import RoleQuery.Proofs.Access.Masks
import RoleQuery.Proofs.Binary64.Rounding
import RoleQuery.Proofs.Service.Writing

/-!
# What is stored of a written value

A value on its way into a row is a JSON scalar, then a scalar of the service, and then a JSON
scalar again. JSON has integers with and without a sign, each of sixty-four bits, and the
service has only those with one. So an integer above the range of these is stored as the
floating-point number next to it, and everything else is stored as it is. The answer to the
write shows what is stored.
-/
namespace RoleQuery

/-! ## Scalars -/

namespace Binary64

/-- Integers of sixty-four bits are rounded to finite numbers. -/
theorem isFinite_ofInt {n : Int} (h : n.natAbs ≤ 2 ^ 64) : (ofInt n).isFinite = true := by
  have hbound : ratioBits (2 ^ 64) 1 < 2 ^ 52 * 2047 := by decide +kernel
  have hbits := Nat.lt_of_le_of_lt (ratioBits_one_mono h) hbound
  have hexponent : (ofInt n).exponentField = ratioBits n.natAbs 1 / 2 ^ 52 :=
    exponentField_withSign (ratioBits_le _) _
  rw [isFinite, hexponent, bne_iff_ne]
  omega

theorem same_self {x : Binary64} (h : x.isFinite = true) : x.same x = true := by
  have hexponent : (x.exponentField == 2047) = false := beq_eq_false_iff_ne.2 (bne_iff_ne.1 h)
  rw [same, compare?, isNaN, hexponent, Bool.false_and, Bool.or_self, if_neg Bool.false_ne_true,
    compare_eq_iff_eq.2 rfl]
  rfl

end Binary64

namespace Json

/-- The scalars of a JSON document. An integer has sixty-four bits, with or without a sign,
and every other number is finite. -/
def Scalar : Json → Prop
  | .null | .bool _ | .str _ => True
  | .int n => -0x8000000000000000 ≤ n ∧ n < 0x10000000000000000
  | .float x => x.isFinite = true
  | .list _ | .object _ => False

instance : DecidablePred Scalar
  | .null | .bool _ | .str _ => isTrue trivial
  | .int n => inferInstanceAs (Decidable (-0x8000000000000000 ≤ n ∧ n < 0x10000000000000000))
  | .float x => inferInstanceAs (Decidable (x.isFinite = true))
  | .list _ | .object _ => isFalse id

/-- What is stored of a scalar: the scalar, or the number next to an integer
that is out of range. -/
def stored : Json → Json
  | .int n => if Value.fitsInt64 n then .int n else .float (.ofInt n)
  | j => j

/-- Exactly the integers that are out of range are not stored as they are. -/
theorem stored_eq_self_iff {j : Json} :
    j.stored = j ↔ ∀ n, j = .int n → Value.fitsInt64 n = true := by
  cases j with
  | int n =>
    rw [stored]
    by_cases h : Value.fitsInt64 n
    · simp [h]
    · simp [h]
  | _ => simp [stored]

/-- What is stored of an integer that is out of range does not equal it. -/
theorem same_stored_iff {j : Json} (h : j.Scalar) :
    j.stored.same j = true ↔ ∀ n, j = .int n → Value.fitsInt64 n = true := by
  cases j with
  | int n =>
    rw [stored]
    by_cases hfits : Value.fitsInt64 n <;> simp [hfits, same]
  | float x => simpa [stored, same] using Binary64.same_self h
  | list items => exact h.elim
  | object ms => exact h.elim
  | _ => simp [stored, same]

end Json

/-- A scalar of a document is turned into what is stored of it. -/
theorem Value.toJson_of_ofJson? {j : Json} {v : Value} (hj : j.Scalar) (hv : ofJson? j = some v) :
    v.toJson = j.stored := by
  cases j with
  | null => cases hv; rfl
  | bool b => cases hv; rfl
  | str s => cases hv; rfl
  | float x => cases hv; exact if_pos hj
  | list items => cases hv
  | object ms => cases hv
  | int n =>
    obtain rfl := Option.some.inj hv
    rw [Json.stored]
    by_cases hfits : fitsInt64 n
    · obtain ⟨hlow, hhigh⟩ := of_decide_eq_true hfits
      rw [if_pos hfits, if_pos hfits, toJson, Int64.toInt_ofInt_of_le hlow hhigh]
    · have hfinite : (Binary64.ofInt n).isFinite = true := Binary64.isFinite_ofInt (by
        obtain ⟨hlow, hhigh⟩ := hj
        omega)
      rw [if_neg hfits, if_neg hfits, toJson, if_pos hfinite]

/-! ## Answers -/

namespace FieldMask

/-- An answer shows under a name the last value that is shown under it, if all fields of
the name have the same. -/
theorem get?_shapeFieldsInto {name : String} {value row : Json} {fields : List MaskedField}
    {shown : Members}
    (hvalue : ∀ field ∈ fields, field.output = name →
      shapeValue field ((row.get? field.column).getD .null) = value)
    (h : (∃ field ∈ fields, field.output = name) ∨ shown.get? name = some value) :
    (shapeFieldsInto shown fields row).get? name = some value := by
  induction fields generalizing shown with
  | nil => exact h.resolve_left (by simp)
  | cons field rest ih =>
    rw [List.forall_mem_cons] at hvalue
    rw [shapeFieldsInto]
    refine ih hvalue.2 ?_
    by_cases hname : field.output = name
    · rw [hvalue.1 hname, hname]
      exact .inr (Members.get?_insert_self _ _ _)
    · rw [Members.get?_insert_of_ne _ _ hname]
      exact h.imp_left fun ⟨other, hother, heq⟩ =>
        ⟨other, (List.mem_cons.1 hother).resolve_left fun hfirst => hname (hfirst ▸ heq), heq⟩

end FieldMask

namespace Catalog

variable {catalog : Catalog} {e : Entity} {request : WriteRequest} {caller : Caller}

/-- The answer to a write shows each field that the caller may read with what its column
holds. A member that is a relationship as well is not looked for in a column. -/
theorem get?_of_answerWrite {row shown : Json} {p : Permission} {field : String}
    (h : catalog.answerWrite e request.operation caller row = .ok (.item shown))
    (hp : catalog.readGrant? e caller = some p) (hallows : p.allows field = true)
    (hfield : (e.field? field).isSome) (hrelationship : e.relationship? field = none) :
    shown.get? field = some ((row.get? (e.column field)).getD .null) := by
  rw [answerWrite, hp] at h
  obtain ⟨mask, hmask, hshown⟩ := Except.map_eq_ok_iff.1 h
  obtain ⟨fields, hfields, rfl⟩ := Except.map_eq_ok_iff.1 hmask
  cases hshown
  have hcolumn : (Selection.leaf field).column (some e) = e.column field := by
    rw [Selection.column]
    exact if_neg (by simp [Selection.leaf, Filter.relationshipOf, hrelationship])
  have hleaf : ∀ masked, FieldMask.ofSelection catalog (some e) (.leaf field) = .ok masked →
      masked.output = field ∧ FieldMask.shapeValue masked ((row.get? masked.column).getD .null) =
        (row.get? (e.column field)).getD .null := by
    intro masked hmasked
    rcases FieldMask.of_ofSelection hmasked with ⟨-, rfl⟩ | ⟨_, hchildren, -⟩
    · exact ⟨rfl, by rw [MaskedField.column, hcolumn]; rfl⟩
    · exact absurd rfl hchildren
  refine FieldMask.get?_shapeFieldsInto (fun masked hmasked houtput => ?_) (.inl ?_)
  · obtain ⟨s, hs, hselected⟩ := FieldMask.exists_of_mem_fieldsOf hfields hmasked
    obtain ⟨f, -, rfl⟩ := List.mem_map.1 hs
    obtain rfl : f.name = field := (FieldMask.output_of_ofSelection hselected).symm.trans houtput
    exact (hleaf masked hselected).2
  · obtain ⟨f, hf⟩ := Option.isSome_iff_exists.1 hfield
    obtain rfl := Entity.name_of_field? hf
    have hreadable : Selection.leaf f.name ∈ Selection.readable e p.allows :=
      List.mem_map.2 ⟨f, List.mem_filter.2 ⟨Entity.mem_fields_of_field? hf, hallows⟩, rfl⟩
    obtain ⟨masked, hmem, hmasked⟩ := FieldMask.exists_field_of_fieldsOf hfields hreadable
    exact ⟨masked, hmem, (hleaf masked hmasked).1⟩

/-- **Of every scalar that a carried out create or update gives for a field, the row that it
puts into the table holds what is stored of the scalar, in the column of the field.** That
is the scalar itself unless it is an integer above the range of the integers with a sign,
which does not equal what is stored of it. The answer shows the stored value of every field
that the caller may read. -/
theorem stored_of_write {config : Config} (hconfig : ofConfig config = .ok catalog) {t t' : Tables}
    {answer : WriteAnswer} (hoperation : request.operation ≠ .delete)
    (h : catalog.write t request caller = (.ok answer, t')) :
    ∃ e row, catalog.entity? request.entity = some e ∧
      e.Puts request row (t.rows e.object) (t'.rows e.object) ∧
      ∀ (before after : Members) field j, request.input = before ++ (field, j) :: after →
        field ∉ after.names → j.Scalar →
          row.get? (e.column field) = some j.stored ∧
          (∀ shown p, answer = .item shown → catalog.readGrant? e caller = some p →
            p.allows field = true → e.relationship? field = none →
              shown.get? field = some j.stored) ∧
          (j.stored = j ↔ ∀ n, j = .int n → Value.fitsInt64 n = true) ∧
          (j.stored.same j = true ↔ ∀ n, j = .int n → Value.fitsInt64 n = true) := by
  have hended := ended_write catalog t request caller
  rw [h] at hended
  cases hended with
  | @carriedOut e plan row _ _ hentity hplan hwrote hanswer =>
    have he := List.mem_of_find?_eq_some hentity
    have hputs := puts_of_wrote (columnsApart_of_ofConfig hconfig e he)
      (key_ne_nil_of_ofConfig hconfig e he) hoperation hplan hwrote
    obtain ⟨old, new, rfl, hstores⟩ := hputs.exists_stores
    refine ⟨e, .object new, hentity, hputs, fun before after field j hinput hlast hj => ?_⟩
    obtain ⟨v, hv, hnew⟩ := hstores.written before after field j hinput hlast
    have hstored : (Json.object new).get? (e.column field) = some j.stored :=
      hnew.trans (congrArg some (Value.toJson_of_ofJson? hj hv))
    refine ⟨hstored, fun shown p hshown hp hallows hrelationship => ?_, Json.stored_eq_self_iff,
      Json.same_stored_iff hj⟩
    have hfield : (e.field? field).isSome := by
      refine (planWrite_spec hplan).2.2.2.2 field ?_
      rw [hinput, Members.names, List.map_append]
      exact List.mem_append_right _ List.mem_cons_self
    rw [get?_of_answerWrite (hshown ▸ hanswer) hp hallows hfield hrelationship, hstored]
    rfl

/-! ## Engines -/

/-- Engines with a serial number, of which anyone may read and write everything. -/
def engineConfig : Config where
  settings := .default
  entities :=
    [("Engine", {
        object := "engines"
        backend := .relational
        displayNames := none
        fields := [⟨"id", none, true, .scalar, none⟩,
          ⟨"serial", some "serial_no", false, .scalar, none⟩]
        relationships := []
        permissions := [⟨anonymousRole, [⟨"create", none, none⟩, ⟨"read", none, none⟩]⟩]
        cache := none })]

/-- Engines with a number and a serial number. -/
def engine : Entity :=
  .ofFields "Engine" "engines" .relational
    [⟨"id", "id", true, .scalar⟩, ⟨"serial", "serial_no", false, .scalar⟩]

/-- An engine of a serial number. -/
def newEngine (serial : Json) : WriteRequest :=
  ⟨"Engine", .create, [], [("id", .int 1), ("serial", serial)]⟩

/-- The largest integer with a sign is stored and shown as it is. -/
theorem stored_of_write_engine :
    ∃ catalog, ofConfig engineConfig = .ok catalog ∧ catalog.entity? "Engine" = some engine ∧
      ∃ shown t', catalog.write ⟨[]⟩ (newEngine (.int 9223372036854775807)) .anonymous =
          (.ok (.item shown), t') ∧
        ∃ row, engine.Puts (newEngine (.int 9223372036854775807)) row [] (t'.rows "engines") ∧
          row.get? "serial_no" = some (.int 9223372036854775807) ∧
          shown.get? "serial" = some (.int 9223372036854775807) := by
  obtain ⟨catalog, hconfig⟩ : ∃ catalog, ofConfig engineConfig = .ok catalog := ⟨_, rfl⟩
  have hstored : ∀ answer t', catalog.write ⟨[]⟩ (newEngine (.int 9223372036854775807)) .anonymous =
      (.ok answer, t') → _ := fun answer t' => stored_of_write hconfig (by decide)
  cases hconfig
  refine ⟨_, rfl, rfl, _, _, rfl, ?_⟩
  obtain ⟨e, row, hentity, hputs, hvalues⟩ := hstored _ _ rfl
  obtain rfl : engine = e := Option.some.inj hentity
  obtain ⟨hrow, hshown, -⟩ := hvalues [("id", .int 1)] [] "serial" _ rfl (by decide) (by decide)
  exact ⟨row, hputs, hrow, hshown _ _ rfl rfl rfl rfl⟩

/-- The largest integer without a sign is out of range: a floating-point number is stored
and shown in its place. -/
theorem not_stored_of_large_serial :
    ∃ catalog, ofConfig engineConfig = .ok catalog ∧ catalog.entity? "Engine" = some engine ∧
      ∃ shown t' row, catalog.write ⟨[]⟩ (newEngine (.int 18446744073709551615)) .anonymous =
          (.ok (.item shown), t') ∧
        shown.compact = "\x7b\"id\":1,\"serial\":1.8446744073709552e+19\x7d" ∧
        t'.rows "engines" = [row] ∧
        (row.get? "serial_no").map (·.same (.int 18446744073709551615)) = some false ∧
        (shown.get? "serial").map (·.same (.int 18446744073709551615)) = some false := by
  refine ⟨_, rfl, rfl, _, _, _, rfl, ?_, rfl, ?_, ?_⟩ <;> decide +kernel

end Catalog

end RoleQuery
