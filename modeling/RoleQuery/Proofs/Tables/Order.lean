import RoleQuery.Tables.Order
import Mathlib.Data.List.Pairwise
import Mathlib.Data.String.Basic

/-!
# The order of rows is linear

Values of one kind, together with null, are ordered linearly in either direction, unless they
are floating-point numbers. If every column of an ordering holds values of one such kind, then
rows that differ in some of these columns are ordered linearly, sorting puts them in this
order, and the position of a row separates the rows up to it from those after it.
-/
namespace RoleQuery

namespace Value

/-- Whether a value is null, or of a kind. -/
def isOf (k : Kind) (v : Value) : Prop := v = .null ∨ v.kind? = some k

/-- The value that wraps something, or null. -/
def ofOption {α : Type} (wrap : α → Value) : Option α → Value
  | none => .null
  | some a => wrap a

/-- Two wrapped values are ordered as what they wrap. -/
structure Wraps {α : Type} [Ord α] (wrap : α → Value) : Prop where
  isNull : ∀ a, (wrap a).isNull = false
  compare? : ∀ a b, (wrap a).compare? (wrap b) = some (compare a b)

/-- Nothing is wrapped as null, so null and the wrapped values are all different. -/
theorem ofOption_injective {α : Type} [Ord α] {wrap : α → Value} (h : Wraps wrap)
    (hwrap : Function.Injective wrap) : Function.Injective (ofOption wrap) := by
  have hne : ∀ a, wrap a ≠ .null := by
    intro a ha
    have hnull := h.isNull a
    rw [ha] at hnull
    cases hnull
  intro x y hxy
  cases x with
  | none =>
    cases y with
    | none => rfl
    | some b => exact absurd hxy.symm (hne b)
  | some a =>
    cases y with
    | none => exact absurd hxy (hne a)
    | some b => rw [hwrap hxy]

theorem wraps_boolean : Wraps Value.boolean := ⟨fun _ => rfl, fun _ _ => rfl⟩

theorem wraps_integer : Wraps Value.integer := ⟨fun _ => rfl, fun _ _ => rfl⟩

theorem wraps_text : Wraps Value.text := ⟨fun _ => rfl, fun _ _ => rfl⟩

/-- The values of a kind are those that wrap something. -/
theorem isOf_boolean {v : Value} : v.isOf .boolean ↔ ∃ x, v = ofOption .boolean x := by
  cases v <;> simp [isOf, kind?, ofOption, Option.exists]

theorem isOf_integer {v : Value} : v.isOf .integer ↔ ∃ x, v = ofOption .integer x := by
  cases v <;> simp [isOf, kind?, ofOption, Option.exists]

theorem isOf_text {v : Value} : v.isOf .text ↔ ∃ x, v = ofOption .text x := by
  cases v <;> simp [isOf, kind?, ofOption, Option.exists]

end Value

/-- The order of two wrapped values is that of what they wrap, in the direction. -/
theorem compareValues_ofOption {α : Type} [Ord α] {wrap : α → Value} (h : Value.Wraps wrap)
    (x y : Option α) (d : SortDirection) :
    compareValues (.ofOption wrap x) (.ofOption wrap y) d =
      match d with
      | .asc => compare x y
      | .desc => (compare x y).swap := by
  unfold compareValues
  cases x with
  | none =>
    cases y with
    | none => rfl
    | some b => simp only [Value.ofOption, h.isNull]; rfl
  | some a =>
    cases y with
    | none => simp only [Value.ofOption, h.isNull]; rfl
    | some b => simp only [Value.ofOption, h.isNull, h.compare?]; rfl

/-- Some values are ordered linearly in either direction. -/
structure LinearOn (S : Value → Prop) : Prop where
  swap : ∀ {a b}, S a → S b → ∀ d, compareValues b a d = (compareValues a b d).swap
  eq_iff : ∀ {a b}, S a → S b → ∀ d, compareValues a b d = .eq ↔ a = b
  trans : ∀ {a b c}, S a → S b → S c → ∀ d, compareValues a b d = .lt →
    compareValues b c d = .lt → compareValues a c d = .lt

/-- Wrapped values and null are ordered linearly if what is wrapped is. -/
theorem linearOn_ofOption {α : Type} [Ord α] [Std.TransOrd α] [Std.LawfulEqOrd α]
    {wrap : α → Value} (h : Value.Wraps wrap) (hwrap : Function.Injective wrap) :
    LinearOn fun v => ∃ x, v = .ofOption wrap x where
  swap := by
    rintro _ _ ⟨x, rfl⟩ ⟨y, rfl⟩ d
    have hswap : compare y x = (compare x y).swap := Std.OrientedCmp.eq_swap
    rw [compareValues_ofOption h, compareValues_ofOption h, hswap]
    cases d <;> rfl
  eq_iff := by
    rintro _ _ ⟨x, rfl⟩ ⟨y, rfl⟩ d
    have heq : compare x y = .eq ↔ x = y := Std.LawfulEqCmp.compare_eq_iff_eq
    rw [compareValues_ofOption h, (Value.ofOption_injective h hwrap).eq_iff, ← heq]
    cases d with
    | asc => rfl
    | desc => simp only [Ordering.swap_eq_eq]
  trans := by
    rintro _ _ _ ⟨x, rfl⟩ ⟨y, rfl⟩ ⟨z, rfl⟩ d
    rw [compareValues_ofOption h, compareValues_ofOption h, compareValues_ofOption h]
    cases d with
    | asc =>
      intro (hxy : compare x y = .lt) (hyz : compare y z = .lt)
      exact (Std.TransCmp.lt_trans hxy hyz : compare x z = .lt)
    | desc =>
      simp only [Ordering.swap_eq_lt]
      intro hxy hyz
      exact Std.TransCmp.gt_trans hxy hyz

/-- The values of a kind are ordered linearly, unless they are floating-point numbers. -/
theorem linearOn_isOf {k : Value.Kind} (h : k ≠ .float) : LinearOn (Value.isOf k) := by
  cases k with
  | float => exact absurd rfl h
  | boolean =>
    simp only [funext fun v => propext (Value.isOf_boolean (v := v))]
    exact linearOn_ofOption Value.wraps_boolean fun _ _ => Value.boolean.inj
  | integer =>
    simp only [funext fun v => propext (Value.isOf_integer (v := v))]
    exact linearOn_ofOption Value.wraps_integer fun _ _ => Value.integer.inj
  | text =>
    simp only [funext fun v => propext (Value.isOf_text (v := v))]
    exact linearOn_ofOption Value.wraps_text fun _ _ => Value.text.inj

/-! ## Rows -/

/-- In the rows, the column of each key holds values of one kind, and no
floating-point numbers. -/
def OneKind (order : List OrderKey) (rows : List Json) : Prop :=
  ∀ key ∈ order, ∃ k, k ≠ Value.Kind.float ∧ ∀ row ∈ rows, (sortValue row key.column).isOf k

theorem OneKind.linearOn {order : List OrderKey} {rows : List Json} (h : OneKind order rows)
    {key : OrderKey} (hkey : key ∈ order) :
    ∃ S : Value → Prop, LinearOn S ∧ ∀ row ∈ rows, S (sortValue row key.column) := by
  obtain ⟨k, hk, hrows⟩ := h key hkey
  exact ⟨_, linearOn_isOf hk, hrows⟩

section Rows

variable {rows : List Json} {a b c : Json}

theorem compareRows_swap (ha : a ∈ rows) (hb : b ∈ rows) {order : List OrderKey}
    (h : OneKind order rows) : compareRows b a order = (compareRows a b order).swap := by
  induction order with
  | nil => rfl
  | cons key rest ih =>
    obtain ⟨S, hS, hrows⟩ := h.linearOn List.mem_cons_self
    have hrest := ih fun other hother => h other (List.mem_cons_of_mem key hother)
    rw [compareRows, compareRows, hS.swap (hrows a ha) (hrows b hb), hrest, Ordering.swap_then]

/-- Rows are level if they hold the same values in the columns of the ordering. -/
theorem compareRows_eq_iff (ha : a ∈ rows) (hb : b ∈ rows) {order : List OrderKey}
    (h : OneKind order rows) :
    compareRows a b order = .eq ↔
      ∀ key ∈ order, sortValue a key.column = sortValue b key.column := by
  induction order with
  | nil => simp [compareRows]
  | cons key rest ih =>
    obtain ⟨S, hS, hrows⟩ := h.linearOn List.mem_cons_self
    have hrest := ih fun other hother => h other (List.mem_cons_of_mem key hother)
    rw [compareRows, Ordering.then_eq_eq, hS.eq_iff (hrows a ha) (hrows b hb), hrest]
    simp only [List.mem_cons, forall_eq_or_imp]

theorem compareRows_trans (ha : a ∈ rows) (hb : b ∈ rows) (hc : c ∈ rows)
    {order : List OrderKey} (h : OneKind order rows) (hab : compareRows a b order = .lt)
    (hbc : compareRows b c order = .lt) : compareRows a c order = .lt := by
  induction order with
  | nil => cases hab
  | cons key rest ih =>
    obtain ⟨S, hS, hrows⟩ := h.linearOn List.mem_cons_self
    have hrest := ih fun other hother => h other (List.mem_cons_of_mem key hother)
    have heq : ∀ {x y}, x ∈ rows → y ∈ rows →
        compareValues (sortValue x key.column) (sortValue y key.column) key.direction = .eq →
        sortValue x key.column = sortValue y key.column :=
      fun hx hy => (hS.eq_iff (hrows _ hx) (hrows _ hy) _).1
    rw [compareRows, Ordering.then_eq_lt] at hab hbc ⊢
    rcases hab with hab | ⟨hab, hab'⟩
    · rcases hbc with hbc | ⟨hbc, -⟩
      · exact .inl (hS.trans (hrows a ha) (hrows b hb) (hrows c hc) _ hab hbc)
      · rw [← heq hb hc hbc]
        exact .inl hab
    · rw [heq ha hb hab]
      rcases hbc with hbc | ⟨hbc, hbc'⟩
      · exact .inl hbc
      · exact .inr ⟨hbc, hrest hab' hbc'⟩

/-- The order of a row and the position of another is that of the two rows. -/
theorem compareToPosition_sortValues (row other : Json) (order : List OrderKey) :
    compareToPosition row (order.map fun key => sortValue other key.column) order =
      compareRows row other order := by
  induction order with
  | nil => rfl
  | cons key rest ih => rw [List.map_cons, compareToPosition, compareRows, ih]

end Rows

/-! ## Sorting -/

section Sorting

variable {order : List OrderKey} {rows : List Json}

/-- Inserting a row that is level with no other keeps rows in order, last first. -/
theorem insertRow_pairwise (h : OneKind order rows) {row : Json} (hrow : row ∈ rows)
    {sorted : List Json} (hsub : ∀ other ∈ sorted, other ∈ rows)
    (hlevel : ∀ other ∈ sorted, compareRows row other order ≠ .eq)
    (hsorted : sorted.Pairwise fun a b => compareRows b a order = .lt) :
    (insertRow order row sorted).Pairwise fun a b => compareRows b a order = .lt := by
  induction sorted with
  | nil => exact List.pairwise_singleton _ _
  | cons last rest ih =>
    rw [List.pairwise_cons] at hsorted
    have hlast : last ∈ rows := hsub last List.mem_cons_self
    have hrest : ∀ other ∈ rest, other ∈ rows := fun other ho =>
      hsub other (List.mem_cons_of_mem last ho)
    rw [insertRow]
    split
    · next hlt =>
      have hinsert :=
        ih hrest (fun other ho => hlevel other (List.mem_cons_of_mem last ho)) hsorted.2
      refine List.pairwise_cons.2 ⟨?_, hinsert⟩
      intro other ho
      rcases List.mem_cons.1 ((insertRow_perm order row rest).mem_iff.1 ho) with rfl | ho
      · exact hlt
      · exact hsorted.1 other ho
    · next hlt =>
      have hgt : compareRows last row order = .lt := by
        rw [compareRows_swap hrow hlast h]
        have hne := hlevel last List.mem_cons_self
        cases hcompare : compareRows row last order with
        | lt => exact absurd hcompare hlt
        | eq => exact absurd hcompare hne
        | gt => rfl
      refine List.pairwise_cons.2 ⟨?_, List.pairwise_cons.2 hsorted⟩
      intro other ho
      rcases List.mem_cons.1 ho with rfl | ho
      · exact hgt
      · exact compareRows_trans (hrest other ho) hlast hrow h (hsorted.1 other ho) hgt

/-- If no two rows are level, sorting puts each row before those after it. -/
theorem sortRows_pairwise (h : OneKind order rows)
    (hlevel : rows.Pairwise fun a b => compareRows a b order ≠ .eq) :
    (sortRows order rows).Pairwise fun a b => compareRows a b order = .lt := by
  -- The rows that are already sorted are among all rows, and level with none
  -- that is still to come.
  suffices hfold : ∀ (todo sorted : List Json), (∀ row ∈ todo, row ∈ rows) →
      (∀ row ∈ sorted, row ∈ rows) →
      todo.Pairwise (fun a b => compareRows a b order ≠ .eq) →
      (∀ row ∈ todo, ∀ other ∈ sorted, compareRows row other order ≠ .eq) →
      sorted.Pairwise (fun a b => compareRows b a order = .lt) →
      (todo.foldl (fun sorted row => insertRow order row sorted) sorted).Pairwise
        fun a b => compareRows b a order = .lt by
    rw [sortRows, List.pairwise_reverse]
    exact hfold rows [] (fun _ hr => hr) (by simp) hlevel (by simp) List.Pairwise.nil
  intro todo
  induction todo with
  | nil => exact fun sorted _ _ _ _ hsorted => hsorted
  | cons row rest ih =>
    intro sorted htodo hsub hpairwise hcross hsorted
    rw [List.pairwise_cons] at hpairwise
    have hrow : row ∈ rows := htodo row List.mem_cons_self
    have hmem : ∀ other ∈ insertRow order row sorted, other = row ∨ other ∈ sorted :=
      fun other ho =>
      List.mem_cons.1 ((insertRow_perm order row sorted).mem_iff.1 ho)
    refine ih _ (fun other ho => htodo other (List.mem_cons_of_mem row ho)) ?_ hpairwise.2 ?_ ?_
    · intro other ho
      rcases hmem other ho with rfl | ho
      · exact hrow
      · exact hsub other ho
    · intro next hnext other ho
      rcases hmem other ho with rfl | ho
      · intro heq
        have hswap := compareRows_swap (htodo next (List.mem_cons_of_mem other hnext)) hrow h
        rw [heq] at hswap
        exact hpairwise.1 next hnext hswap
      · exact hcross next (List.mem_cons_of_mem row hnext) other ho
    · exact insertRow_pairwise h hrow hsub (hcross row List.mem_cons_self) hsorted

/-- In sorted rows, the rows up to the position of a row are those before
it and the row itself. -/
theorem takeWhile_compareToPosition (h : OneKind order rows) {before after : List Json} {row : Json}
    (hsub : ∀ other ∈ before ++ row :: after, other ∈ rows)
    (hsorted : (before ++ row :: after).Pairwise fun a b => compareRows a b order = .lt) :
    ((before ++ row :: after).takeWhile fun other =>
      compareToPosition other (order.map fun key => sortValue row key.column) order != .gt) =
        before ++ [row] := by
  have hrow : row ∈ rows := hsub row (by simp)
  obtain ⟨-, hafter, hcross⟩ := List.pairwise_append.1 hsorted
  rw [List.pairwise_cons] at hafter
  simp only [compareToPosition_sortValues]
  have hupto : ∀ other ∈ before ++ [row], (compareRows other row order != .gt) = true := by
    intro other ho
    rcases List.mem_append.1 ho with ho | ho
    · rw [hcross other ho row List.mem_cons_self]
      rfl
    · rw [List.mem_singleton] at ho
      rw [ho, (compareRows_eq_iff hrow hrow h).2 fun _ _ => rfl]
      rfl
  have hbeyond : after.takeWhile (fun other => compareRows other row order != .gt) = [] := by
    cases after with
    | nil => rfl
    | cons next rest =>
      have hnext : next ∈ rows := hsub next (by simp)
      have hgt : compareRows next row order = .gt := by
        rw [compareRows_swap hrow hnext h, hafter.1 next List.mem_cons_self]
        rfl
      rw [List.takeWhile_cons, hgt]
      rfl
  rw [← List.singleton_append, ← List.append_assoc, List.takeWhile_append_of_pos hupto, hbeyond,
    List.append_nil]

end Sorting

end RoleQuery
