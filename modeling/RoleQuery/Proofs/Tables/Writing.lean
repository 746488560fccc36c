import RoleQuery.Tables.Run

/-!
# What a write does to tables

A write that is refused leaves the tables alone. One that is carried out adds a row at the end
of one table, or changes or removes the first row of it that has the key; every other row
stays in its place, and every other table stays as it is. Written columns take their new
values, and a row keeps its other columns.
-/
namespace RoleQuery

namespace Members

/-- Inserting pairs leaves the members alone that have other names. -/
theorem get?_foldl_insert_of_not_mem {pairs : List (String × Json)} {name : String}
    (h : name ∉ pairs.map (·.1)) (ms : Members) :
    (pairs.foldl (fun ms pair => ms.insert pair.1 pair.2) ms).get? name = ms.get? name := by
  induction pairs generalizing ms with
  | nil => rfl
  | cons pair rest ih =>
    rw [List.map_cons, List.mem_cons, not_or] at h
    rw [List.foldl_cons, ih h.2]
    exact get?_insert_of_ne ms pair.2 (Ne.symm h.1)

theorem names_insert (ms : Members) (name : String) (value : Json) :
    (ms.insert name value).names =
      if ms.names.contains name then ms.names else ms.names ++ [name] := by
  induction ms with
  | nil => rfl
  | cons m rest ih =>
    obtain ⟨key, old⟩ := m
    by_cases hkey : key = name
    · simp [insert, names, hkey]
    · simp only [names] at ih
      by_cases hmem : name ∈ rest.map (·.1) <;> simp_all [insert, names, Ne.symm hkey]

/-- Inserting pairs adds their names to those there are. -/
theorem names_foldl_insert (pairs : List (String × Json)) (ms : Members) :
    (pairs.foldl (fun ms pair => ms.insert pair.1 pair.2) ms).names =
      Predicate.addNew ms.names (pairs.map (·.1)) := by
  induction pairs generalizing ms with
  | nil => rfl
  | cons pair rest ih => rw [List.foldl_cons, ih, names_insert, List.map_cons, Predicate.addNew]

end Members

namespace Tables

/-! ## Written rows -/

/-- The members of a row with values written to them. -/
def stored (values : List (String × Value)) (ms : Members) : Members :=
  (values.map fun value => (value.1, value.2.toJson)).foldl
    (fun ms pair => ms.insert pair.1 pair.2) ms

theorem newRow_eq (values : List (String × Value)) :
    newRow values = .object (stored values []) := rfl

theorem writeValues_object (values : List (String × Value)) (ms : Members) :
    writeValues values (.object ms) = .object (stored values ms) := by
  rw [stored, List.foldl_map]
  rfl

theorem names_stored (values : List (String × Value)) (ms : Members) :
    (stored values ms).names = Predicate.addNew ms.names (values.map (·.1)) := by
  rw [stored, Members.names_foldl_insert, List.map_map]
  rfl

/-- A row keeps the columns that are not written. -/
theorem get?_stored_of_not_mem {values : List (String × Value)} {column : String}
    (h : column ∉ values.map (·.1)) (ms : Members) :
    (stored values ms).get? column = ms.get? column := by
  apply Members.get?_foldl_insert_of_not_mem
  rwa [List.map_map]

/-- A column holds the last value that is written to it. -/
theorem get?_stored {before after : List (String × Value)} {column : String} {v : Value}
    (h : column ∉ after.map (·.1)) (ms : Members) :
    (stored (before ++ (column, v) :: after) ms).get? column = some v.toJson := by
  have hafter := get?_stored_of_not_mem h ((stored before ms).insert column v.toJson)
  rw [Members.get?_insert_self] at hafter
  rw [← hafter]
  simp [stored]

/-- A row has a key if it has each part of it. -/
theorem hasKey_cons {column : String} {v : Value} {key : List (String × Value)} {row : Json} :
    hasKey ((column, v) :: key) row = true ↔
      (∃ found, (row.get? column).bind Value.ofJson? = some found ∧ found.same v = true) ∧
        hasKey key row = true := by
  rw [hasKey, List.all_cons, Bool.and_eq_true]
  apply and_congr_left'
  cases hfound : (row.get? column).bind Value.ofJson? <;> simp [hfound]

/-! ## Outcomes -/

variable {t : Tables} {plan : WritePlan}

/-- What a write has done to the tables. -/
inductive Wrote (t : Tables) (plan : WritePlan) : WriteOutcome → Tables → Prop where
  | rejected : Wrote t plan .rejected t
  | notFound : Wrote t plan .notFound t
  | created (operation : plan.operation = .create) (admitted : t.admits plan (newRow plan.values)) :
      Wrote t plan (.applied (newRow plan.values))
        (t.put plan.object (t.rows plan.object ++ [newRow plan.values]))
  | updated {before after : List Json} {row : Json} (operation : plan.operation = .update)
      (rows : t.rows plan.object = before ++ row :: after) (key : hasKey plan.key row)
      (first : ∀ other ∈ before, ¬ hasKey plan.key other) (admitted : t.admits plan row) :
      Wrote t plan (.applied (writeValues plan.values row))
        (t.put plan.object (before ++ writeValues plan.values row :: after))
  | deleted {before after : List Json} {row : Json} (operation : plan.operation = .delete)
      (rows : t.rows plan.object = before ++ row :: after) (key : hasKey plan.key row)
      (first : ∀ other ∈ before, ¬ hasKey plan.key other) (admitted : t.admits plan row) :
      Wrote t plan (.applied row) (t.put plan.object (before ++ after))

/-- What is found is found where it stands: nothing before it is of its kind. -/
theorem exists_append_of_find? {rows : List Json} {p : Json → Bool} {row : Json}
    (h : rows.find? p = some row) :
    ∃ before after, rows = before ++ row :: after ∧ rows.findIdx? p = some before.length ∧ p row ∧
      ∀ other ∈ before, ¬ p other := by
  obtain ⟨hp, before, after, rfl, hbefore⟩ := List.find?_eq_some_iff_append.1 h
  have hnone : before.findIdx? p = none := by
    rw [List.findIdx?_eq_none_iff]
    intro other hother
    simpa using hbefore other hother
  refine ⟨before, after, rfl, ?_, hp, fun other hother => by simpa using hbefore other hother⟩
  simp [List.findIdx?_append, hnone, List.findIdx?_cons, hp]

/-- A write on the first row that has the key. -/
theorem wrote_of_writeAt {before after : List Json} {row : Json} {outcome : WriteOutcome}
    {t' : Tables} (hoperation : plan.operation = .update ∨ plan.operation = .delete)
    (hrows : t.rows plan.object = before ++ row :: after) (hkey : hasKey plan.key row)
    (hfirst : ∀ other ∈ before, ¬ hasKey plan.key other)
    (h : t.writeAt plan before.length row = (outcome, t')) : Wrote t plan outcome t' := by
  rw [writeAt, hrows] at h
  by_cases hadmitted : t.admits plan row
  · rw [if_neg (by simpa using hadmitted)] at h
    rcases hoperation with hupdate | hdelete
    · rw [if_neg (by simp [hupdate])] at h
      simp only [List.set_append_right _ _ (Nat.le_refl _), Nat.sub_self, List.set_cons_zero] at h
      cases h
      exact .updated hupdate hrows hkey hfirst hadmitted
    · rw [if_pos hdelete, List.eraseIdx_append_of_length_le (Nat.le_refl _)] at h
      simp only [Nat.sub_self, List.eraseIdx_cons_zero] at h
      cases h
      exact .deleted hdelete hrows hkey hfirst hadmitted
  · rw [if_pos (by simpa using hadmitted)] at h
    cases h
    exact .rejected

/-- A write to a row that may or may not exist. -/
theorem wrote_of_write_existing {outcome : WriteOutcome} {t' : Tables}
    (hoperation : plan.operation = .update ∨ plan.operation = .delete)
    (h : t.write plan = .ok (outcome, t')) : Wrote t plan outcome t' := by
  cases hrow : (t.rows plan.object).find? (hasKey plan.key) with
  | none =>
    have hwrite : t.write plan = .ok (.notFound, t) := by
      rcases hoperation with hop | hop <;> simp [write, hop, hrow]
    rw [hwrite] at h
    cases h
    exact .notFound
  | some row =>
    obtain ⟨before, after, hrows, hindex, hkey, hfirst⟩ := exists_append_of_find? hrow
    have hwrite : t.write plan = .ok (t.writeAt plan before.length row) := by
      rcases hoperation with hop | hop <;> simp only [write, hop, hindex, hrow]
    rw [hwrite] at h
    exact wrote_of_writeAt hoperation hrows hkey hfirst (Except.ok.inj h)

/-- A write has done one of these things. -/
theorem wrote_of_write {outcome : WriteOutcome} {t' : Tables}
    (h : t.write plan = .ok (outcome, t')) :
    Wrote t plan outcome t' := by
  cases hoperation : plan.operation with
  | read =>
    rw [write, hoperation] at h
    cases h
  | create =>
    rw [write, hoperation] at h
    by_cases hadmitted : t.admits plan (newRow plan.values)
    · simp only [hadmitted, ↓reduceIte] at h
      cases h
      exact .created hoperation hadmitted
    · simp only [hadmitted, Bool.false_eq_true, ↓reduceIte] at h
      cases h
      exact .rejected
  | update => exact wrote_of_write_existing (.inl hoperation) h
  | delete => exact wrote_of_write_existing (.inr hoperation) h

/-- No other table is touched. -/
theorem Wrote.rows_of_ne {outcome : WriteOutcome} {t' : Tables} (h : Wrote t plan outcome t')
    {object : String} (hne : object ≠ plan.object) : t'.rows object = t.rows object := by
  cases h with
  | rejected => rfl
  | notFound => rfl
  | created => exact rows_put_of_ne t _ hne
  | updated => exact rows_put_of_ne t _ hne
  | deleted => exact rows_put_of_ne t _ hne

end Tables

end RoleQuery
