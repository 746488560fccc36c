import RoleQuery.Proofs.Binary64.Rounding
import RoleQuery.Proofs.Tables.Order

/-!
# What rows can be sorted by

The order of two rows turns around with the rows, whatever they hold. Values that come one
before the other do so transitively as well, since rounding keeps the order of integers. Being
tied need not be transitive: values of different kinds are tied, a NaN is tied with
everything, and a floating-point number is tied with every integer that rounds to it, though
these are ordered among themselves. The values of a column are *commensurable* if no value
stands between ordered ones in this way. The order of rows is a total preorder exactly for
orderings by such columns, and then sorting puts no row behind one that it comes before.
-/
namespace RoleQuery

/-! ## Numbers -/

namespace Binary64

theorem compare?_eq_some_iff {x y : Binary64} {o : Ordering} :
    x.compare? y = some o ↔ x.isNaN = false ∧ y.isNaN = false ∧ compare x.units y.units = o := by
  unfold compare?
  cases x.isNaN <;> cases y.isNaN <;> simp

theorem compare?_swap (x y : Binary64) : y.compare? x = (x.compare? y).map Ordering.swap := by
  have hunits : compare y.units x.units = (compare x.units y.units).swap := Std.OrientedCmp.eq_swap
  unfold compare?
  rw [Bool.or_comm, hunits]
  split <;> rfl

theorem compare?_lt_trans {x y z : Binary64} (hxy : x.compare? y = some .lt)
    (hyz : y.compare? z = some .lt) : x.compare? z = some .lt := by
  rw [compare?_eq_some_iff] at hxy hyz ⊢
  exact ⟨hxy.1, hyz.2.1, Std.TransCmp.lt_trans hxy.2.2 hyz.2.2⟩

theorem compare?_eq_trans {x y z : Binary64} (hxy : x.compare? y = some .eq)
    (hyz : y.compare? z = some .eq) : x.compare? z = some .eq := by
  rw [compare?_eq_some_iff] at hxy hyz ⊢
  exact ⟨hxy.1, hyz.2.1, Std.TransCmp.eq_trans hxy.2.2 hyz.2.2⟩

section Integers

variable {m n : Int} {x : Binary64}

/-- What lies beyond an integer lies beyond the smaller ones. -/
theorem ofInt_compare?_of_le (h : m ≤ n) (hx : (ofInt n).compare? x = some .lt) :
    (ofInt m).compare? x = some .lt := by
  rw [compare?_eq_some_iff, Std.compare_eq_lt] at hx ⊢
  exact ⟨isNaN_ofInt m, hx.2.1, Int.lt_of_le_of_lt (units_ofInt_mono h) hx.2.2⟩

/-- What lies before an integer lies before the larger ones. -/
theorem compare?_ofInt_of_le (h : m ≤ n) (hx : x.compare? (ofInt m) = some .lt) :
    x.compare? (ofInt n) = some .lt := by
  rw [compare?_eq_some_iff, Std.compare_eq_lt] at hx ⊢
  exact ⟨hx.1, isNaN_ofInt n, Int.lt_of_lt_of_le hx.2.2 (units_ofInt_mono h)⟩

/-- Integers that round to ordered numbers are ordered. -/
theorem lt_of_ofInt_compare? (h : (ofInt m).compare? (ofInt n) = some .lt) : m < n := by
  rw [compare?_eq_some_iff, Std.compare_eq_lt] at h
  exact Int.not_le.1 fun hle => Int.not_le.2 h.2.2 (units_ofInt_mono hle)

end Integers

end Binary64

/-! ## The order of values -/

namespace Value

theorem compare?_swap (a b : Value) : b.compare? a = (a.compare? b).map Ordering.swap := by
  cases a with
  | null => cases b <;> rfl
  | boolean x =>
    cases b with
    | boolean y => exact congrArg some Std.OrientedCmp.eq_swap
    | _ => rfl
  | integer m =>
    cases b with
    | integer n => exact congrArg some Std.OrientedCmp.eq_swap
    | float y => exact Binary64.compare?_swap _ _
    | _ => rfl
  | float x =>
    cases b with
    | integer n => exact Binary64.compare?_swap _ _
    | float y => exact Binary64.compare?_swap _ _
    | _ => rfl
  | text s =>
    cases b with
    | text t => exact congrArg some Std.OrientedCmp.eq_swap
    | _ => rfl

/-- **The strict order of values is transitive**, also where it passes between integers and
floating-point numbers. -/
theorem compare?_lt_trans {a b c : Value} (hab : a.compare? b = some .lt)
    (hbc : b.compare? c = some .lt) : a.compare? c = some .lt := by
  cases b with
  | null => cases a <;> cases hab
  | boolean y =>
    cases a <;> cases c <;> simp only [compare?, reduceCtorEq, Option.some.injEq] at hab hbc ⊢
    exact Std.TransCmp.lt_trans hab hbc
  | text t =>
    cases a <;> cases c <;> simp only [compare?, reduceCtorEq, Option.some.injEq] at hab hbc ⊢
    exact Std.TransCmp.lt_trans hab hbc
  | integer n =>
    cases a <;> cases c <;> simp only [compare?, reduceCtorEq, Option.some.injEq, Std.compare_eq_lt,
      Int64.lt_iff_toInt_lt] at hab hbc ⊢
    case integer.integer => exact Int.lt_trans hab hbc
    case integer.float => exact Binary64.ofInt_compare?_of_le (Int.le_of_lt hab) hbc
    case float.integer => exact Binary64.compare?_ofInt_of_le (Int.le_of_lt hbc) hab
    case float.float => exact Binary64.compare?_lt_trans hab hbc
  | float y =>
    cases a <;> cases c <;> simp only [compare?, reduceCtorEq, Option.some.injEq, Std.compare_eq_lt,
      Int64.lt_iff_toInt_lt] at hab hbc ⊢
    case integer.integer =>
      exact Binary64.lt_of_ofInt_compare? (Binary64.compare?_lt_trans hab hbc)
    all_goals exact Binary64.compare?_lt_trans hab hbc

/-- Equality of numbers in the order of values is transitive, unless it passes from an integer
through a floating-point number to another integer. -/
theorem compare?_eq_trans {a b c : Value} (hab : a.compare? b = some .eq)
    (hbc : b.compare? c = some .eq)
    (h : a.kind? = some .integer → b.kind? = some .float → c.kind? = some .integer → a = c) :
    a.compare? c = some .eq := by
  cases b with
  | null => cases a <;> cases hab
  | boolean y =>
    cases a <;> cases c <;> simp only [compare?, reduceCtorEq, Option.some.injEq] at hab hbc ⊢
    exact Std.TransCmp.eq_trans hab hbc
  | text t =>
    cases a <;> cases c <;> simp only [compare?, reduceCtorEq, Option.some.injEq] at hab hbc ⊢
    exact Std.TransCmp.eq_trans hab hbc
  | integer n =>
    cases a <;> cases c <;> simp only [compare?, reduceCtorEq, Option.some.injEq,
      Std.LawfulEqCmp.compare_eq_iff_eq] at hab hbc ⊢
    case integer.integer => exact hab.trans hbc
    case integer.float => rwa [hab]
    case float.integer => rwa [← hbc]
    case float.float => exact Binary64.compare?_eq_trans hab hbc
  | float y =>
    cases a <;> cases c <;> simp only [compare?, reduceCtorEq, Option.some.injEq,
      Std.LawfulEqCmp.compare_eq_iff_eq] at hab hbc ⊢
    case integer.integer => exact Value.integer.inj (h rfl rfl rfl)
    all_goals exact Binary64.compare?_eq_trans hab hbc

/-- The kind of values that a value can be ordered with. Numbers are of one kind here, and a
null and a NaN are of none. -/
def measure? : Value → Option Kind
  | .null => none
  | .boolean _ => some .boolean
  | .integer _ => some .float
  | .float x => if x.isNaN then none else some .float
  | .text _ => some .text

theorem isSome_compare?_iff {a b : Value} :
    (a.compare? b).isSome ↔ ∃ k, a.measure? = some k ∧ b.measure? = some k := by
  cases a <;> cases b <;>
    simp [compare?, measure?, Binary64.compare?, Binary64.isNaN_ofInt, apply_ite]

/-- Values that can both be ordered with a third can be ordered with each other. -/
theorem isSome_compare?_trans {a b c : Value} (hab : (a.compare? b).isSome)
    (hbc : (b.compare? c).isSome) : (a.compare? c).isSome := by
  rw [isSome_compare?_iff] at hab hbc ⊢
  obtain ⟨k, ha, hb⟩ := hab
  obtain ⟨l, hb', hc⟩ := hbc
  exact ⟨k, ha, hc.trans (hb'.symm.trans hb)⟩

theorem isSome_compare?_symm {a b : Value} (h : (a.compare? b).isSome) : (b.compare? a).isSome := by
  rwa [compare?_swap, Option.isSome_map]

/-- Neither of two values comes before the other. -/
def Tied (a b : Value) : Prop := compareValues a b .asc = .eq

instance (a b : Value) : Decidable (a.Tied b) := inferInstanceAs (Decidable (_ = _))

end Value

theorem compareValues_swap (a b : Value) (d : SortDirection) :
    compareValues b a d = (compareValues a b d).swap := by
  have hasc : compareValues b a .asc = (compareValues a b .asc).swap := by
    unfold compareValues
    rw [Value.compare?_swap a b]
    cases a.isNull <;> cases b.isNull <;> try rfl
    cases a.compare? b <;> rfl
  cases d with
  | asc => exact hasc
  | desc => exact congrArg Ordering.swap hasc

/-- A descending order is the ascending one turned around. -/
theorem compareValues_desc (a b : Value) : compareValues a b .desc = compareValues b a .asc :=
  (compareValues_swap a b .asc).symm

theorem compareValues_eq_lt_iff {a b : Value} :
    compareValues a b .asc = .lt ↔
      b.isNull = false ∧ (a.isNull = true ∨ a.compare? b = some .lt) := by
  have hnull : a.isNull = true → a.compare? b = none := by
    intro ha
    cases a <;> first | rfl | cases ha
  unfold compareValues
  cases ha : a.isNull <;> cases hb : b.isNull
  case false.false => cases a.compare? b <;> simp
  all_goals simp [hnull, ha]

theorem compareValues_lt_trans {a b c : Value} (hab : compareValues a b .asc = .lt)
    (hbc : compareValues b c .asc = .lt) : compareValues a c .asc = .lt := by
  rw [compareValues_eq_lt_iff] at hab hbc ⊢
  refine ⟨hbc.1, ?_⟩
  rcases hab.2 with ha | hab'
  · exact .inl ha
  · rcases hbc.2 with hb | hbc'
    · cases hb.symm.trans hab.1
    · exact .inr (Value.compare?_lt_trans hab' hbc')

namespace Value

theorem tied_iff {a b : Value} :
    a.Tied b ↔
      a.isNull = b.isNull ∧ (a.isNull = false → a.compare? b = none ∨ a.compare? b = some .eq) := by
  unfold Tied compareValues
  cases a.isNull <;> cases b.isNull
  case false.false => cases a.compare? b <;> simp
  all_goals simp

theorem Tied.symm {a b : Value} (h : a.Tied b) : b.Tied a := by
  unfold Tied at h ⊢
  rw [compareValues_swap, h]
  rfl

theorem Tied.ne_lt {a b : Value} (h : a.Tied b) : compareValues b a .asc ≠ .lt := by
  have hsymm : compareValues b a .asc = .eq := h.symm
  rw [hsymm]
  decide

end Value

/-! ## Commensurable values -/

/-- No two of the values that are not null come one before the other. -/
def NoneOrdered (values : List Value) : Prop :=
  ∀ a ∈ values, ∀ b ∈ values, a.isNull = false → b.isNull = false → a.Tied b

/-- Any two of the values that are not null can be ordered. -/
def AllComparable (values : List Value) : Prop :=
  ∀ a ∈ values, ∀ b ∈ values, a.isNull = false → b.isNull = false → (a.compare? b).isSome

/-- No floating-point number among the values is tied with two of the integers. -/
def KeepsIntegersApart (values : List Value) : Prop :=
  ∀ a ∈ values, ∀ x ∈ values, ∀ b ∈ values, a.kind? = some .integer → x.kind? = some .float →
    b.kind? = some .integer → a.Tied x → x.Tied b → a = b

/-- Being tied is transitive among the values, as told from their kinds. -/
def Commensurable (values : List Value) : Prop :=
  NoneOrdered values ∨ AllComparable values ∧ KeepsIntegersApart values

instance (values : List Value) : Decidable (NoneOrdered values) := by
  unfold NoneOrdered
  infer_instance

instance (values : List Value) : Decidable (AllComparable values) := by
  unfold AllComparable
  infer_instance

instance (values : List Value) : Decidable (KeepsIntegersApart values) := by
  unfold KeepsIntegersApart
  infer_instance

instance (values : List Value) : Decidable (Commensurable values) :=
  inferInstanceAs (Decidable (_ ∨ _ ∧ _))

section Values

variable {values : List Value}

/-- Values that cannot be ordered are tied with each other. If being tied is transitive, this
ties whatever can be ordered with one of them. -/
theorem tied_of_compare?_eq_none
    (htrans : ∀ a ∈ values, ∀ b ∈ values, ∀ c ∈ values, a.Tied b → b.Tied c → a.Tied c)
    {u v a b : Value} (hu : u ∈ values) (hv : v ∈ values) (ha : a ∈ values) (hb : b ∈ values)
    (hunull : u.isNull = false) (hvnull : v.isNull = false) (huv : u.compare? v = none)
    (hanull : a.isNull = false) (hbnull : b.isNull = false) : a.Tied b := by
  have htied : ∀ {w z : Value}, w.isNull = false → z.isNull = false → w.compare? z = none →
      w.Tied z := fun hw hz hwz => Value.tied_iff.2 ⟨hw.trans hz.symm, fun _ => .inl hwz⟩
  have htiedu : ∀ w ∈ values, w.isNull = false → w.Tied u := by
    intro w hw hwnull
    cases hwu : w.compare? u with
    | none => exact htied hwnull hunull hwu
    | some o =>
      -- Were `w` ordered with `v` too, then so were `u` and `v`.
      have hwv : w.compare? v = none := by
        by_contra hne
        have huw := Value.isSome_compare?_symm (hwu ▸ rfl : (w.compare? u).isSome)
        have hsome := Value.isSome_compare?_trans huw (Option.isSome_iff_ne_none.2 hne)
        rw [huv] at hsome
        cases hsome
      exact htrans w hw v hv u hu (htied hwnull hvnull hwv) (htied hunull hvnull huv).symm
  exact htrans a ha u hu b hb (htiedu a ha hanull) (htiedu b hb hbnull).symm

/-- **Values are commensurable exactly if being tied is transitive among them.** -/
theorem tied_trans_iff :
    (∀ a ∈ values, ∀ b ∈ values, ∀ c ∈ values, a.Tied b → b.Tied c → a.Tied c) ↔
      Commensurable values := by
  constructor
  · intro htrans
    by_cases hall : ∀ a ∈ values, ∀ b ∈ values, a.isNull = false → b.isNull = false → a.Tied b
    · exact .inl hall
    · refine .inr ⟨?_, ?_⟩
      · intro u hu v hv hunull hvnull
        rw [Option.isSome_iff_ne_none]
        intro huv
        exact hall fun a ha b hb =>
          tied_of_compare?_eq_none htrans hu hv ha hb hunull hvnull huv
      · intro a ha x hx b hb hakind _ hbkind hax hxb
        have hab := (Value.tied_iff.1 (htrans a ha x hx b hb hax hxb)).2
        cases a <;> cases hakind
        cases b <;> cases hbkind
        simpa [Value.isNull, Value.compare?] using hab rfl
  · intro h a ha b hb c hc hab hbc
    rw [Value.tied_iff] at hab hbc ⊢
    refine ⟨hab.1.trans hbc.1, fun hanull => ?_⟩
    have hbnull : b.isNull = false := hab.1.symm.trans hanull
    have hcnull : c.isNull = false := hbc.1.symm.trans hbnull
    rcases h with htied | ⟨hcomparable, hapart⟩
    · exact (Value.tied_iff.1 (htied a ha c hc hanull hcnull)).2 hanull
    · have heq : ∀ {u v : Value}, (u.compare? v).isSome →
          u.compare? v = none ∨ u.compare? v = some .eq → u.compare? v = some .eq :=
        fun hsome h => h.resolve_left (Option.isSome_iff_ne_none.1 hsome)
      refine .inr (Value.compare?_eq_trans
        (heq (hcomparable a ha b hb hanull hbnull) (hab.2 hanull))
        (heq (hcomparable b hb c hc hbnull hcnull) (hbc.2 hbnull)) ?_)
      intro hakind hbkind hckind
      exact hapart a ha b hb c hc hakind hbkind hckind (Value.tied_iff.2 hab)
        (Value.tied_iff.2 hbc)

/-- Values of one kind and null are commensurable, unless they are floating-point numbers. -/
theorem commensurable_of_isOf {k : Value.Kind} (hk : k ≠ .float) (h : ∀ v ∈ values, v.isOf k) :
    Commensurable values := by
  have hkind : ∀ v ∈ values, v.isNull = false → v.kind? = some k := by
    intro v hv hnull
    rcases h v hv with rfl | hkind
    · cases hnull
    · exact hkind
  refine .inr ⟨?_, ?_⟩
  · intro a ha b hb hanull hbnull
    have hak := hkind a ha hanull
    have hbk := hkind b hb hbnull
    cases a <;> cases hak <;> cases b <;> cases hbk <;> first | rfl | exact absurd rfl hk
  · intro a _ x hx b _ _ hxkind _ _ _
    have hxk := hkind x hx (by cases x <;> first | rfl | cases hxkind)
    exact absurd (Option.some.inj (hxk.symm.trans hxkind)) hk

/-- Numbers are commensurable if no NaN is among them and the integers are small. -/
theorem commensurable_of_numbers (h : ∀ v ∈ values, v = .null ∨ v.measure? = some .float)
    (hsmall : ∀ n, .integer n ∈ values → n.toInt.natAbs ≤ 2 ^ 53) : Commensurable values := by
  have hmeasure : ∀ v ∈ values, v.isNull = false → v.measure? = some .float := by
    intro v hv hnull
    rcases h v hv with rfl | hmeasure
    · cases hnull
    · exact hmeasure
  refine .inr ⟨?_, ?_⟩
  · intro a ha b hb hanull hbnull
    exact Value.isSome_compare?_iff.2 ⟨.float, hmeasure a ha hanull, hmeasure b hb hbnull⟩
  · intro a ha x hx b hb hakind hxkind hbkind hax hxb
    have hequal : ∀ {u v : Value}, u ∈ values → v ∈ values → u.isNull = false → v.isNull = false →
        u.Tied v → u.compare? v = some .eq := by
      intro u v hu hv hunull hvnull huv
      have hsome := Value.isSome_compare?_iff.2 ⟨.float, hmeasure u hu hunull, hmeasure v hv hvnull⟩
      exact ((Value.tied_iff.1 huv).2 hunull).resolve_left (Option.isSome_iff_ne_none.1 hsome)
    cases a <;> cases hakind
    cases x <;> cases hxkind
    cases b <;> cases hbkind
    next m y n =>
      have hm := (Binary64.compare?_eq_some_iff.1 (hequal ha hx rfl rfl hax)).2.2
      have hn := (Binary64.compare?_eq_some_iff.1 (hequal hx hb rfl rfl hxb)).2.2
      have hunits := (Std.LawfulEqCmp.eq_of_compare hm).trans (Std.LawfulEqCmp.eq_of_compare hn)
      rcases Int.lt_trichotomy m.toInt n.toInt with hlt | heq | hgt
      · exact absurd hunits (Int.ne_of_lt (Binary64.units_ofInt_lt (hsmall m ha) (hsmall n hb) hlt))
      · rw [Int64.toInt_inj.1 heq]
      · exact absurd hunits.symm
          (Int.ne_of_lt (Binary64.units_ofInt_lt (hsmall n hb) (hsmall m ha) hgt))

/-- Commensurable values are in a total preorder, in either direction. -/
theorem Commensurable.isLE_trans (h : Commensurable values) (d : SortDirection) {a b c : Value}
    (ha : a ∈ values) (hb : b ∈ values) (hc : c ∈ values) (hab : (compareValues a b d).isLE)
    (hbc : (compareValues b c d).isLE) : (compareValues a c d).isLE := by
  have hasc : ∀ {a b c : Value}, a ∈ values → b ∈ values → c ∈ values →
      (compareValues a b .asc).isLE → (compareValues b c .asc).isLE →
        (compareValues a c .asc).isLE := by
    intro a b c ha hb hc hab hbc
    rw [Ordering.isLE_iff_ne_gt]
    intro hac
    have hca : compareValues c a .asc = .lt := by rw [compareValues_swap, hac]; rfl
    -- Whichever step is a tie, going round from `c` through `a` contradicts it.
    cases hab' : compareValues a b .asc with
    | gt => simp [hab'] at hab
    | lt =>
      cases hbc' : compareValues b c .asc with
      | gt => simp [hbc'] at hbc
      | lt => cases hac.symm.trans (compareValues_lt_trans hab' hbc')
      | eq => exact Value.Tied.ne_lt hbc' (compareValues_lt_trans hca hab')
    | eq =>
      cases hbc' : compareValues b c .asc with
      | gt => simp [hbc'] at hbc
      | lt => exact Value.Tied.ne_lt hab' (compareValues_lt_trans hbc' hca)
      | eq => cases hac.symm.trans (tied_trans_iff.2 h a ha b hb c hc hab' hbc')
  cases d with
  | asc => exact hasc ha hb hc hab hbc
  | desc =>
    rw [compareValues_desc] at hab hbc ⊢
    exact hasc hc hb ha hbc hab

end Values

/-! ## Rows -/

def columnValues (rows : List Json) (column : String) : List Value :=
  rows.map fun row => sortValue row column

section Rows

variable {rows : List Json} {order : List OrderKey}

/-- The order of two rows turns around with them, whatever they hold. -/
theorem compareRows_eq_swap (a b : Json) (order : List OrderKey) :
    compareRows b a order = (compareRows a b order).swap := by
  induction order with
  | nil => rfl
  | cons key rest ih => rw [compareRows, compareRows, compareValues_swap, ih, Ordering.swap_then]

/-- Rows are in a total preorder if the columns of the ordering are commensurable: it is the
lexicographic order of the columns. -/
theorem transCmp_compareRows (h : ∀ key ∈ order, Commensurable (columnValues rows key.column)) :
    Std.TransCmp fun a b : { row // row ∈ rows } => compareRows a b order := by
  induction order with
  | nil => exact { eq_swap := rfl, isLE_trans := fun _ _ => rfl }
  | cons key rest ih =>
    have hmem : ∀ row : { row // row ∈ rows },
        sortValue row key.column ∈ columnValues rows key.column :=
      fun row => List.mem_map_of_mem row.2
    have hkey : Std.TransCmp fun a b : { row // row ∈ rows } =>
        compareValues (sortValue a key.column) (sortValue b key.column) key.direction :=
      { eq_swap := compareValues_swap _ _ _
        isLE_trans :=
          (h key List.mem_cons_self).isLE_trans key.direction (hmem _) (hmem _) (hmem _) }
    have hrest := ih fun other hother => h other (List.mem_cons_of_mem key hother)
    exact inferInstanceAs (Std.TransCmp (compareLex _ _))

theorem compareRows_le_trans (h : ∀ key ∈ order, Commensurable (columnValues rows key.column))
    {a b c : Json} (ha : a ∈ rows) (hb : b ∈ rows) (hc : c ∈ rows)
    (hab : compareRows a b order ≠ .gt) (hbc : compareRows b c order ≠ .gt) :
    compareRows a c order ≠ .gt := by
  have hpreorder := transCmp_compareRows h
  rw [ne_eq, Ordering.ne_gt_iff_isLE] at hab hbc ⊢
  exact hpreorder.isLE_trans (a := ⟨a, ha⟩) (b := ⟨b, hb⟩) (c := ⟨c, hc⟩) hab hbc

/-- **Rows are in a total preorder exactly for orderings by commensurable columns.** The
order of two rows always turns around with them; that it is transitive hangs on the
values of the columns. -/
theorem compareRows_preorder_iff (rows : List Json) (columns : List String) :
    (∀ (a b : Json) (order : List OrderKey),
      compareRows b a order = (compareRows a b order).swap) ∧
    ((∀ order : List OrderKey, (∀ key ∈ order, key.column ∈ columns) →
      ∀ a ∈ rows, ∀ b ∈ rows, ∀ c ∈ rows,
        compareRows a b order ≠ .gt → compareRows b c order ≠ .gt → compareRows a c order ≠ .gt) ↔
      ∀ column ∈ columns, Commensurable (columnValues rows column)) := by
  refine ⟨compareRows_eq_swap, ?_, ?_⟩
  · intro htrans column hcolumn
    -- The ordering by this column alone is transitive, in particular between tied values.
    have hkey : ∀ a b : Json,
        compareRows a b [⟨column, column, .asc, false⟩] =
          compareValues (sortValue a column) (sortValue b column) .asc :=
      fun a b => Ordering.then_eq
    have hcolumn' := htrans [⟨column, column, .asc, false⟩] (by simpa using hcolumn)
    simp only [hkey] at hcolumn'
    rw [← tied_trans_iff]
    simp only [columnValues, List.forall_mem_map]
    intro a ha b hb c hc hab hbc
    have hac := hcolumn' a ha b hb c hc (by rw [hab]; decide) (by rw [hbc]; decide)
    have hca := hcolumn' c hc b hb a ha (by rw [hbc.symm]; decide) (by rw [hab.symm]; decide)
    rw [compareValues_swap] at hca
    unfold Value.Tied
    cases hcompare : compareValues (sortValue a column) (sortValue c column) .asc with
    | eq => rfl
    | gt => exact absurd hcompare hac
    | lt => rw [hcompare] at hca; exact absurd rfl hca
  · intro h order horder a ha b hb c hc
    exact compareRows_le_trans (fun key hkey => h key.column (horder key hkey)) ha hb hc

/-- Two integers, and between them a floating-point number that both round to. -/
def parcels : List Json :=
  [.object [("weight", .int 9007199254740993)],
   .object [("weight", .float ⟨0x4340000000000000⟩)],
   .object [("weight", .int 9007199254740992)]]

/-- The heavier integer is tied with the number, the number with the lighter integer. -/
theorem compareRows_not_trans_parcels :
    ¬ ∀ (order : List OrderKey) (a b c : Json),
      compareRows a b order ≠ .gt → compareRows b c order ≠ .gt → compareRows a c order ≠ .gt := by
  intro h
  have hweight := h [⟨"weight", "weight", .asc, false⟩] parcels[0] parcels[1] parcels[2]
  exact hweight (by decide +kernel) (by decide +kernel) (by decide +kernel)

/-- Texts between numbers part them as well. -/
example : ¬ Commensurable [.integer 2, .text "a", .integer 1] := by decide

end Rows

/-! ## Sorting -/

section Sorting

variable {rows : List Json} {order : List OrderKey}
  (h : ∀ key ∈ order, Commensurable (columnValues rows key.column))
include h

/-- Inserting a row keeps rows in order, last first. -/
theorem insertRow_pairwise_le {row : Json} (hrow : row ∈ rows) {sorted : List Json}
    (hsub : ∀ other ∈ sorted, other ∈ rows)
    (hsorted : sorted.Pairwise fun a b => compareRows b a order ≠ .gt) :
    (insertRow order row sorted).Pairwise fun a b => compareRows b a order ≠ .gt := by
  induction sorted with
  | nil => exact List.pairwise_singleton _ _
  | cons last rest ih =>
    rw [List.pairwise_cons] at hsorted
    have hlast : last ∈ rows := hsub last List.mem_cons_self
    have hrest : ∀ other ∈ rest, other ∈ rows := fun other ho =>
      hsub other (List.mem_cons_of_mem last ho)
    rw [insertRow]
    split
    · next hlt =>
      refine List.pairwise_cons.2 ⟨?_, ih hrest hsorted.2⟩
      intro other ho
      rcases List.mem_cons.1 ((insertRow_perm order row rest).mem_iff.1 ho) with rfl | ho
      · rw [hlt]
        decide
      · exact hsorted.1 other ho
    · next hlt =>
      have hle : compareRows last row order ≠ .gt := by
        rw [compareRows_eq_swap row last]
        intro hgt
        exact hlt (Ordering.swap_eq_gt.1 hgt)
      refine List.pairwise_cons.2 ⟨?_, List.pairwise_cons.2 hsorted⟩
      intro other ho
      rcases List.mem_cons.1 ho with rfl | ho
      · exact hle
      · exact compareRows_le_trans h (hrest other ho) hlast hrow (hsorted.1 other ho) hle

/-- **Rows sorted by commensurable columns are in order.** -/
theorem sortRows_pairwise_le :
    (sortRows order rows).Pairwise fun a b => compareRows a b order ≠ .gt := by
  suffices hfold : ∀ todo sorted : List Json, (∀ row ∈ todo, row ∈ rows) →
      (∀ row ∈ sorted, row ∈ rows) →
      sorted.Pairwise (fun a b => compareRows b a order ≠ .gt) →
      (todo.foldl (fun sorted row => insertRow order row sorted) sorted).Pairwise
        fun a b => compareRows b a order ≠ .gt by
    rw [sortRows, List.pairwise_reverse]
    exact hfold rows [] (fun _ hr => hr) (by simp) List.Pairwise.nil
  intro todo
  induction todo with
  | nil => exact fun sorted _ _ hsorted => hsorted
  | cons row rest ih =>
    intro sorted htodo hsub hsorted
    have hrow : row ∈ rows := htodo row List.mem_cons_self
    refine ih _ (fun other ho => htodo other (List.mem_cons_of_mem row ho)) ?_
      (insertRow_pairwise_le h hrow hsub hsorted)
    intro other ho
    rcases List.mem_cons.1 ((insertRow_perm order row sorted).mem_iff.1 ho) with rfl | ho
    · exact hrow
    · exact hsub other ho

end Sorting

/-- Rows are in order once they are sorted, if each column of the ordering holds values of one
kind that is not the floating-point numbers, or numbers of which the integers are small. -/
theorem sortRows_pairwise_le_of_kinds {rows : List Json} {order : List OrderKey}
    (h : ∀ key ∈ order,
      (∃ k, k ≠ Value.Kind.float ∧ ∀ v ∈ columnValues rows key.column, v.isOf k) ∨
      (∀ v ∈ columnValues rows key.column, v = .null ∨ v.measure? = some .float) ∧
        ∀ n, .integer n ∈ columnValues rows key.column → n.toInt.natAbs ≤ 2 ^ 53) :
    (sortRows order rows).Pairwise fun a b => compareRows a b order ≠ .gt := by
  apply sortRows_pairwise_le
  intro key hkey
  rcases h key hkey with ⟨k, hk, hkind⟩ | ⟨hnumbers, hsmall⟩
  · exact commensurable_of_isOf hk hkind
  · exact commensurable_of_numbers hnumbers hsmall

end RoleQuery
