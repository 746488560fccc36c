import RoleQuery.Predicate.Evaluation
import RoleQuery.Proofs.Sql.Pattern
import RoleQuery.Sql.Condition

/-!
# What conditions in SQL mean

A condition is true, false or unknown of the columns that the tables of a statement hold. A
comparison with null is unknown, and so is one of values that do not compare. Several columns
are compared with their operands from left to right, up to the first pair that is not equal;
if that pair does not compare, the comparison is unknown. A sub-query is true or false: some
row of it satisfies its condition, or none does.
-/
namespace RoleQuery.Sql

/-- What the columns of tables hold. -/
abbrev Reading := Column → Value

/-- The rows that a sub-query ranges over, where the columns of the tables
outside hold given values. -/
abbrev Subrows := Related → Reading → List Reading

/-- Whether values that stand in an order satisfy a comparison with a sign. -/
def signAdmits (sign : String) (order : Ordering) : Bool :=
  match sign with
  | "=" => order == .eq
  | "!=" => order != .eq
  | ">" => order == .gt
  | ">=" => order != .lt
  | "<" => order == .lt
  | "<=" => order != .gt
  | _ => false

/-- The order of two rows: that of the first pair of values that are not equal. It is unknown
if those do not compare. -/
def rowOrder? : List (Value × Value) → Option Ordering
  | [] => some .eq
  | (a, b) :: rest =>
    match a.compare? b with
    | some .eq => rowOrder? rest
    | order => order

def Atom.truth (read : Reading) : Atom → Truth
  | .compare column sign operand => ((read column).compare? operand).map (signAdmits sign)
  | .like column pattern =>
    (read column).text?.map fun s => matchesPattern pattern.toList s.toList
  | .isNull column => some (read column).isNull
  | .isNotNull column => some !(read column).isNull
  | .compareRow columns sign operands =>
    (rowOrder? ((columns.map read).zip operands)).map (signAdmits sign)

section

variable (rows : Subrows)

mutual

/-- What a condition says. -/
def truth (read : Reading) : RoleQuery.Condition Atom Related → Truth
  | .const b => some b
  | .atom a => a.truth read
  | .chain .and terms => Truth.all (truths read terms)
  | .chain .or terms => Truth.any (truths read terms)
  | .not inner => Truth.not (truth read inner)
  | .notParen inner => Truth.not (truth read inner)
  | .subquery head inner =>
    some ((rows head read).any fun inside => truth inside inner == some true)
termination_by structural c => c

def truths (read : Reading) : List (RoleQuery.Condition Atom Related) → List Truth
  | [] => []
  | c :: rest => truth read c :: truths read rest
termination_by structural cs => cs

end

variable {rows} {read : Reading}

theorem truths_eq_map (cs : List Condition) : truths rows read cs = cs.map (truth rows read) := by
  induction cs with
  | nil => rfl
  | cons c rest ih => rw [truths, ih, List.map_cons]

theorem truth_chain_and {cs : List Condition} :
    truth rows read (.chain .and cs) = some true ↔ ∀ c ∈ cs, truth rows read c = some true := by
  rw [truth, truths_eq_map, Truth.all_eq_true_iff, List.forall_mem_map]

theorem truth_chain_or {cs : List Condition} :
    truth rows read (.chain .or cs) = some true ↔ ∃ c ∈ cs, truth rows read c = some true := by
  rw [truth, truths_eq_map, Truth.any_eq_true_iff, List.mem_map]

/-- Several terms hold if each of them does. -/
theorem truth_allTerms {cs : List Condition} :
    truth rows read (allTerms cs) = some true ↔ ∀ c ∈ cs, truth rows read c = some true := by
  match cs with
  | [c] => simp [allTerms]
  | [] => exact truth_chain_and
  | _ :: _ :: _ => exact truth_chain_and

end

end RoleQuery.Sql
