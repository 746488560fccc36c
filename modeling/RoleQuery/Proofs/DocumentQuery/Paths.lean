import RoleQuery.Proofs.Statement.Reading
import RoleQuery.Proofs.Text.Marking

/-!
# Reading paths in documents

A path is the name of its scope, which is a word, and then its steps. It can be read step by
step: a point and the longest identifier behind it, or a name in brackets and quotes up to the
first quote without a backslash. What is read is what was written, whatever characters the
names have, and the text goes on where the path ends. So other steps give another path.
-/
namespace RoleQuery.DocumentQuery

/-! ## Steps -/

/-- A character that an identifier may go on with. -/
def continuesIdentifier (c : Char) : Bool := startsIdentifier c || c.isDigit

theorem isIdentifier_cons (c : Char) (cs : List Char) :
    isIdentifier (c :: cs) = (startsIdentifier c && cs.all continuesIdentifier) := rfl

theorem continuesIdentifier_of_isIdentifier {cs : List Char} (h : isIdentifier cs) :
    ∀ c ∈ cs, continuesIdentifier c := by
  cases cs with
  | nil => cases h
  | cons first cs =>
    rw [isIdentifier_cons, Bool.and_eq_true, List.all_eq_true] at h
    exact List.forall_mem_cons.2 ⟨by rw [continuesIdentifier, h.1, Bool.true_or], h.2⟩

/-- The ways to write a step in front of a text. -/
inductive WritesStep (name rest : List Char) : List Char → Prop
  /-- An identifier that the text does not go on with. -/
  | plain (hname : isIdentifier name) (hrest : ∀ c ∈ rest.head?, continuesIdentifier c = false) :
      WritesStep name rest ('.' :: (name ++ rest))
  /-- A name in brackets and quotes, in which backslashes and quotes are marked. -/
  | quoted : WritesStep name rest
      ('[' :: '"' :: (Text.marks ['\\', '"'] name ++ '"' :: ']' :: rest))

/-- A name up to the first quote without a backslash, and what follows the quote. -/
def readEscaped : List Char → Option (List Char × List Char)
  | [] => none
  | '"' :: rest => some ([], rest)
  | '\\' :: '"' :: rest => (readEscaped rest).map fun (cs, rest) => ('"' :: cs, rest)
  | '\\' :: '\\' :: rest => (readEscaped rest).map fun (cs, rest) => ('\\' :: cs, rest)
  | '\\' :: _ => none
  | c :: rest => (readEscaped rest).map fun (cs, rest) => (c :: cs, rest)

/-- The step at the beginning of a text, and what follows. -/
def readStep? : List Char → Option (List Char × List Char)
  | '.' :: c :: rest =>
    if startsIdentifier c then
      some (c :: rest.takeWhile continuesIdentifier, rest.dropWhile continuesIdentifier)
    else none
  | '[' :: '"' :: rest =>
    match readEscaped rest with
    | some (name, ']' :: rest) => some (name, rest)
    | _ => none
  | _ => none

variable {name rest text : List Char}

theorem readEscaped_flatMap : readEscaped (name.flatMap escapeNameChar ++ '"' :: rest) =
    some (name, rest) := by
  induction name with
  | nil => rfl
  | cons c name ih =>
    rw [List.flatMap_cons, List.append_assoc]
    by_cases hc : c = '"' ∨ c = '\\'
    · rcases hc with rfl | rfl <;> simp [escapeNameChar, readEscaped, ih]
    · rw [escapeNameChar, if_neg hc, List.singleton_append]
      rw [not_or] at hc
      simp [readEscaped, hc, ih]

theorem eq_of_readEscaped (h : readEscaped text = some (name, rest)) :
    text = name.flatMap escapeNameChar ++ '"' :: rest := by
  fun_induction readEscaped text generalizing name with
  | case1 => cases h
  | case2 =>
    cases h
    rfl
  | case3 text ih | case4 text ih =>
    obtain ⟨⟨cs, rest⟩, hread, heq⟩ := Option.map_eq_some_iff.1 h
    cases heq
    rw [ih hread]
    simp [escapeNameChar]
  | case5 => cases h
  | case6 c text hquote hescapedQuote hescapedBackslash hbackslash ih =>
    obtain ⟨⟨cs, rest⟩, hread, heq⟩ := Option.map_eq_some_iff.1 h
    cases heq
    rw [ih hread, List.flatMap_cons, escapeNameChar, if_neg (not_or.2 ⟨hquote, hbackslash⟩)]
    rfl

/-- The longest beginning of a text whose characters are all of one kind, and what follows. -/
theorem takeWhile_dropWhile_eq_iff {p : Char → Bool} :
    text.takeWhile p = name ∧ text.dropWhile p = rest ↔
      text = name ++ rest ∧ name.all p ∧ ∀ c ∈ rest.head?, p c = false := by
  constructor
  · rintro ⟨rfl, rfl⟩
    refine ⟨List.takeWhile_append_dropWhile.symm, List.all_takeWhile, fun c hc => ?_⟩
    have hstops := List.head?_dropWhile_not p text
    rwa [Option.mem_def.1 hc] at hstops
  · rintro ⟨rfl, hname, hrest⟩
    rw [List.all_eq_true] at hname
    rw [List.takeWhile_append_of_pos hname, List.dropWhile_append_of_pos hname]
    cases rest with
    | nil => simp
    | cons c rest => simp [hrest c rfl]

theorem writesStep_of_readStep? (h : readStep? text = some (name, rest)) :
    WritesStep name rest text := by
  rw [readStep?.eq_def] at h
  split at h
  · rename_i c text
    split at h
    · rename_i hc
      cases h
      obtain ⟨htext, hname, hrest⟩ :=
        (@takeWhile_dropWhile_eq_iff _ _ text continuesIdentifier).1 ⟨rfl, rfl⟩
      have hidentifier : isIdentifier (c :: text.takeWhile continuesIdentifier) := by
        rw [isIdentifier_cons, hc, hname, Bool.true_and]
      have hstep := WritesStep.plain hidentifier hrest
      rwa [List.cons_append, ← htext] at hstep
    · cases h
  · split at h
    · rename_i hread
      cases h
      rw [eq_of_readEscaped hread, flatMap_escapeNameChar]
      exact .quoted
    · cases h
  · cases h

theorem readStep?_of_writesStep (h : WritesStep name rest text) :
    readStep? text = some (name, rest) := by
  cases h with
  | plain hname hrest =>
    cases name with
    | nil => cases hname
    | cons c name =>
      rw [isIdentifier_cons, Bool.and_eq_true] at hname
      obtain ⟨htake, hdrop⟩ := takeWhile_dropWhile_eq_iff.2 ⟨rfl, hname.2, hrest⟩
      rw [List.cons_append, readStep?, if_pos hname.1, htake, hdrop]
  | quoted =>
    rw [← flatMap_escapeNameChar, readStep?, readEscaped_flatMap]
    rfl

/-- What is read was written as a step. -/
theorem readStep?_eq_some_iff : readStep? text = some (name, rest) ↔ WritesStep name rest text :=
  ⟨writesStep_of_readStep?, readStep?_of_writesStep⟩

theorem length_lt_of_readStep? (h : readStep? text = some (name, rest)) :
    rest.length < text.length := by
  cases readStep?_eq_some_iff.1 h with
  | plain hname hrest =>
    rw [List.length_cons, List.length_append]
    omega
  | quoted =>
    simp only [List.length_cons, List.length_append]
    omega

/-! ## Paths -/

/-- The steps at the beginning of a text, and what follows the last of them. -/
def readSteps (text : List Char) : List String × List Char :=
  match h : readStep? text with
  | none => ([], text)
  | some (name, rest) =>
    have : rest.length < text.length := length_lt_of_readStep? h
    let (names, rest) := readSteps rest
    (String.ofList name :: names, rest)
termination_by text.length

theorem readSteps_of_none (h : readStep? text = none) : readSteps text = ([], text) := by
  rw [readSteps]
  split
  · rfl
  · simp_all

theorem readSteps_of_some (h : readStep? text = some (name, rest)) :
    readSteps text = (String.ofList name :: (readSteps rest).1, (readSteps rest).2) := by
  rw [readSteps]
  split
  · simp_all
  · rename_i hread
    rw [h] at hread
    cases hread
    rfl

/-- The steps of a path from `base` at the beginning of a text, and what follows the path. -/
def readPath? (base : String) (text : List Char) : Option (List String × List Char) :=
  (text.dropPrefix? base.toList).map readSteps

/-- The text goes on with something that is no part of a path. -/
def EndsPath (rest : List Char) : Prop :=
  ∀ c ∈ rest.head?, continuesIdentifier c = false ∧ c ≠ '.' ∧ c ≠ '['

theorem readStep?_of_endsPath (h : EndsPath rest) : readStep? rest = none := by
  rw [Option.eq_none_iff_forall_ne_some]
  rintro ⟨name, after⟩ hread
  cases readStep?_eq_some_iff.1 hread with
  | plain hname hafter => exact (h '.' rfl).2.1 rfl
  | quoted => exact (h '[' rfl).2.2 rfl

/-- A step in front of a text that does not go on with its name. -/
theorem writesStep_segmentText (name : String)
    (hrest : ∀ c ∈ rest.head?, continuesIdentifier c = false) :
    WritesStep name.toList rest ((segmentText name).toList ++ rest) := by
  rw [segmentText]
  split
  · rename_i hname
    have hstep := WritesStep.plain hname hrest
    simpa using hstep
  · have hstep := @WritesStep.quoted name.toList rest
    rw [← flatMap_escapeNameChar] at hstep
    simpa using hstep

theorem head?_segmentText (name : String) :
    (segmentText name).toList.head? = some '.' ∨ (segmentText name).toList.head? = some '[' := by
  rw [segmentText]
  split <;> simp

theorem readSteps_segments {segments : List String} (hrest : EndsPath rest) :
    readSteps ((segments.flatMap fun name => (segmentText name).toList) ++ rest) =
      (segments, rest) := by
  induction segments with
  | nil => exact readSteps_of_none (readStep?_of_endsPath hrest)
  | cons name segments ih =>
    -- Neither another step nor the end of the path goes on with an identifier.
    have hnext : ∀ c ∈ ((segments.flatMap fun name => (segmentText name).toList) ++ rest).head?,
        continuesIdentifier c = false := by
      cases segments with
      | nil => exact fun c hc => (hrest c hc).1
      | cons next segments =>
        rw [List.flatMap_cons, List.append_assoc, List.head?_append]
        rcases head?_segmentText next with hhead | hhead <;> simp [hhead] <;> decide
    rw [List.flatMap_cons, List.append_assoc,
      readSteps_of_some (readStep?_of_writesStep (writesStep_segmentText name hnext)), ih,
      String.ofList_toList]

theorem toList_propertyPath (base : String) (segments : List String) :
    (propertyPath base segments).toList =
      base.toList ++ segments.flatMap fun name => (segmentText name).toList := by
  rw [propertyPath, String.toList_append, String.toList_join, List.flatMap_map]

/-- A path is read as its steps. -/
theorem readPath?_propertyPath (base : String) (segments : List String) (hrest : EndsPath rest) :
    readPath? base ((propertyPath base segments).toList ++ rest) = some (segments, rest) := by
  have hbase : ((propertyPath base segments).toList ++ rest).dropPrefix? base.toList =
      some ((segments.flatMap fun name => (segmentText name).toList) ++ rest) := by
    rw [toList_propertyPath, List.append_assoc]
    exact List.dropPrefix?_eq_some_iff.2 ⟨base.toList, rfl, beq_self_eq_true _⟩
  rw [readPath?, hbase, Option.map_some, readSteps_segments hrest]

theorem propertyPath_injective (base : String) : Function.Injective (propertyPath base) := by
  intro segments segments' h
  have hnil : EndsPath [] := by simp [EndsPath]
  have hread := readPath?_propertyPath base segments hnil
  rw [h, readPath?_propertyPath base segments' hnil] at hread
  cases hread
  rfl

/-! ## Paths in statements -/

open Cell

variable {n : Nat} {k l : List Cell}

/-- The text does not go on with what paths are made of. -/
abbrev PathEnds : List Cell → Prop := Stops fun c => continuesIdentifier c ∨ c = '.' ∨ c = '['

theorem legible_segments : Legible (fun _ => True) PathEnds fun segments : List String =>
    ofChars (segments.flatMap fun name => (segmentText name).toList) := by
  refine @legible_of_read _ _ (fun text => some (readSteps text)) _ _
    fun segments rest _ hrest => ?_
  refine congrArg some (readSteps_segments fun c hc => ?_)
  simpa using hrest c hc

theorem ofString_aliasName (a : Alias) : ofString (aliasName a) =
    ofString "table" ++ ofChars (Nat.toDigits 10 a.toNat) := by
  simp [aliasName, ofString, Nat.toList_repr]

/-- The name of a scope is legible before anything but a digit. -/
theorem legible_scope :
    Legible (fun _ => True) (Stops fun c => c.isDigit) fun scope => ofString (scopeName scope) := by
  intro n a b k l _ _ hk hl h
  cases a with
  | root =>
    cases b with
    | root => rfl
    | bound b =>
      simp only [scopeName, ofString_aliasName] at h
      simp [rootName, ofString] at h
  | bound a =>
    cases b with
    | root =>
      simp only [scopeName, ofString_aliasName] at h
      simp [rootName, ofString] at h
    | bound b =>
      simp only [scopeName, ofString_aliasName, List.append_assoc, alike_ofString_append] at h
      rw [eq_of_alike_digits hk hl h]

theorem scopeName_injective : Function.Injective scopeName := by
  intro a b h
  have hnil : Stops (fun c => c.isDigit) [] := by simp [Stops, text]
  have halike : Alike 0 (ofString (scopeName a) ++ []) (ofString (scopeName b) ++ []) := by
    rw [h]
    exact ⟨rfl, rfl⟩
  exact legible_scope trivial trivial hnil hnil halike

theorem ofString_propertyPath (base : String) (segments : List String) :
    ofString (propertyPath base segments) =
      ofString base ++ ofChars (segments.flatMap fun name => (segmentText name).toList) := by
  rw [ofString, toList_propertyPath, ofChars, List.map_append]
  rfl

/-- Paths are legible. -/
theorem read_path {scope scope' : Scope} {segments segments' : List String} (hk : PathEnds k)
    (hl : PathEnds l) (h : Alike n (ofString (propertyPath (scopeName scope) segments) ++ k)
      (ofString (propertyPath (scopeName scope') segments') ++ l)) :
    scope = scope' ∧ segments = segments' ∧ ∃ m, Alike m k l := by
  simp only [ofString_propertyPath, List.append_assoc] at h
  -- A number would go on with a digit, but a step begins with a point or a bracket.
  have hdigit : ∀ {segments : List String} {j : List Cell}, PathEnds j →
      Stops (fun c => c.isDigit)
        (ofChars (segments.flatMap fun name => (segmentText name).toList) ++ j) := by
    intro segments j hj n c hc hdigit
    rw [text_ofChars_append] at hc
    cases segments with
    | nil => exact hj n c hc (.inl (by simp [continuesIdentifier, hdigit]))
    | cons name rest =>
      rw [List.flatMap_cons, List.append_assoc, List.head?_append] at hc
      rcases head?_segmentText name with hhead | hhead
      · rw [hhead] at hc
        cases hc
        cases hdigit
      · rw [hhead] at hc
        cases hc
        cases hdigit
  obtain ⟨rfl, m, h⟩ := legible_scope.read trivial trivial (hdigit hk) (hdigit hl) h
  obtain ⟨rfl, hrest⟩ := legible_segments.read trivial trivial hk hl h
  exact ⟨rfl, rfl, hrest⟩

/-- A path tells its scope and its steps. -/
theorem propertyPath_inj {scope scope' : Scope} {segments segments' : List String}
    (h : propertyPath (scopeName scope) segments = propertyPath (scopeName scope') segments') :
    scope = scope' ∧ segments = segments' := by
  have hnil : PathEnds [] := by simp [Stops, text]
  have halike : Alike 0 (ofString (propertyPath (scopeName scope) segments) ++ [])
      (ofString (propertyPath (scopeName scope') segments') ++ []) := by
    rw [h]
    exact ⟨rfl, rfl⟩
  obtain ⟨hscope, hsegments, -⟩ := read_path hnil hnil halike
  exact ⟨hscope, hsegments⟩

end RoleQuery.DocumentQuery
