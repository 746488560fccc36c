import RoleQuery.Statement.Basic

/-!
# The words of a text

The text of a statement is a sequence of words and parentheses. A word ends at a space or a
parenthesis, but not inside quotation marks, so a quoted name is part of a word whatever
its characters are. A mark that stands twice inside a name ends one quotation and begins
the next, and both belong to one word. Some dialects also escape characters inside a
quotation with a backslash.

What a text is cut into does not depend on what follows it, if that begins with
something that ends a word.
-/
namespace RoleQuery

/-- A token of a statement. -/
inductive Token where
  | opening
  | closing
  | word (text : String)
  /-- The end of the text inside a quotation. -/
  | unfinished
  deriving DecidableEq, Repr

namespace Token

/-- Where a character stands: inside no quotation, inside one, or after a
backslash inside one. -/
inductive Context where
  | outside
  | quoted (mark : Char)
  | escaped (mark : Char)
  deriving DecidableEq, Repr

/-- The word that has been begun, if any has. -/
def ofWord (w : List Char) : List Token :=
  if w.isEmpty then [] else [.word (String.ofList w)]

/-- The tokens of characters after `w`, a word that has been begun. In some dialects a
backslash escapes the character after it, inside a quotation. -/
def lex (escapes : Bool) : Context → List Char → List Char → List Token
  | .outside, w, [] => ofWord w
  | .quoted _, _, [] | .escaped _, _, [] => [.unfinished]
  | .outside, w, c :: rest =>
    if c = ' ' then ofWord w ++ lex escapes .outside [] rest
    else if c = '(' then ofWord w ++ .opening :: lex escapes .outside [] rest
    else if c = ')' then ofWord w ++ .closing :: lex escapes .outside [] rest
    else lex escapes (if c = '"' ∨ c = '\'' then .quoted c else .outside) (w ++ [c]) rest
  | .quoted mark, w, c :: rest =>
    lex escapes (if c = mark then .outside else if escapes ∧ c = '\\' then .escaped mark
      else .quoted mark) (w ++ [c]) rest
  | .escaped mark, w, c :: rest => lex escapes (.quoted mark) (w ++ [c]) rest

def ofText (escapes : Bool) (text : List Char) : List Token := lex escapes .outside [] text

variable {escapes : Bool} {w rest text text' : List Char} {ts ts' : List Token}

/-! ## Words -/

/-- Characters that continue a word, whatever stands before and after them. -/
def Wordlike (escapes : Bool) (cs : List Char) : Prop :=
  ∀ w rest, lex escapes .outside w (cs ++ rest) = lex escapes .outside (w ++ cs) rest

/-- A character that neither ends a word nor begins a quotation. -/
def plain (c : Char) : Bool := c != ' ' && c != '(' && c != ')' && c != '"' && c != '\''

theorem wordlike_nil : Wordlike escapes [] := by
  intro w rest
  rw [List.nil_append, List.append_nil]

theorem Wordlike.append {cs cs' : List Char} (h : Wordlike escapes cs) (h' : Wordlike escapes cs') :
    Wordlike escapes (cs ++ cs') := by
  intro w rest
  rw [List.append_assoc, h, h', List.append_assoc]

theorem wordlike_of_plain {cs : List Char} (h : cs.all plain) : Wordlike escapes cs := by
  induction cs with
  | nil => exact wordlike_nil
  | cons c cs ih =>
    rw [List.all_cons, Bool.and_eq_true] at h
    intro w rest
    obtain ⟨hc, hcs⟩ := h
    simp only [plain, Bool.and_eq_true, bne_iff_ne, ne_eq] at hc
    obtain ⟨⟨⟨⟨hspace, hopening⟩, hclosing⟩, hdouble⟩, hsingle⟩ := hc
    rw [List.cons_append, lex, if_neg hspace, if_neg hopening, if_neg hclosing,
      if_neg (by simp [hdouble, hsingle]), ih hcs, List.append_assoc, List.singleton_append]

theorem wordlike_join {ss : List String} (h : ∀ s ∈ ss, Wordlike escapes s.toList) :
    Wordlike escapes (String.join ss).toList := by
  induction ss with
  | nil => exact wordlike_nil
  | cons s ss ih =>
    rw [List.forall_mem_cons] at h
    rw [String.join_cons, String.toList_append]
    exact h.1.append (ih h.2)

/-- Words put together with a separator that continues a word. -/
theorem wordlike_intercalate {separator : String} (hseparator : Wordlike escapes separator.toList)
    {ss : List String} (h : ∀ s ∈ ss, Wordlike escapes s.toList) :
    Wordlike escapes (separator.intercalate ss).toList := by
  induction ss with
  | nil => exact wordlike_nil
  | cons s ss ih =>
    rw [List.forall_mem_cons] at h
    cases ss with
    | nil =>
      rw [String.intercalate_singleton]
      exact h.1
    | cons next ss =>
      rw [String.intercalate_cons_cons, String.toList_append, String.toList_append]
      exact (h.1.append hseparator).append (ih h.2)

theorem plain_of_isDigit {c : Char} (h : c.isDigit) : plain c := by
  simp only [plain, Bool.and_eq_true, bne_iff_ne, ne_eq]
  refine ⟨⟨⟨⟨?_, ?_⟩, ?_⟩, ?_⟩, ?_⟩ <;> rintro rfl <;> exact absurd h (by decide)

theorem wordlike_repr (n : Nat) : Wordlike escapes (toString n).toList :=
  wordlike_of_plain (List.all_eq_true.2 fun _ hc => plain_of_isDigit
    (Nat.isDigit_of_mem_toDigits (by decide) (by decide) (Nat.toList_repr ▸ hc)))

/-- Characters that continue a quotation. -/
def Inside (escapes : Bool) (mark : Char) (cs : List Char) : Prop :=
  ∀ w rest, lex escapes (.quoted mark) w (cs ++ rest) =
    lex escapes (.quoted mark) (w ++ cs) rest

theorem inside_flatMap {α : Type} {mark : Char} {f : α → List Char} {as : List α}
    (h : ∀ a ∈ as, Inside escapes mark (f a)) : Inside escapes mark (as.flatMap f) := by
  induction as with
  | nil =>
    intro w rest
    rw [List.flatMap_nil, List.nil_append, List.append_nil]
  | cons a as ih =>
    rw [List.forall_mem_cons] at h
    intro w rest
    rw [List.flatMap_cons, List.append_assoc, h.1, ih h.2, List.append_assoc]

/-- A quotation continues a word. -/
theorem wordlike_quotation {mark : Char} (hmark : mark = '"' ∨ mark = '\'') {cs : List Char}
    (h : Inside escapes mark cs) : Wordlike escapes (mark :: cs ++ [mark]) := by
  intro w rest
  have hopen : ∀ w rest, lex escapes .outside w (mark :: rest) =
      lex escapes (.quoted mark) (w ++ [mark]) rest := by
    intro w rest
    rcases hmark with rfl | rfl <;> simp [lex]
  rw [List.append_assoc, List.cons_append, hopen, h, List.singleton_append, lex, if_pos rfl]
  simp

/-! ## Texts -/

/-- The text goes on with something that ends a word. -/
def Delimits (rest : List Char) : Prop := ∀ c ∈ rest.head?, c = ' ' ∨ c = '(' ∨ c = ')'

/-- A text and its tokens, whatever follows that ends a word. -/
def Lexes (escapes : Bool) (text : List Char) (ts : List Token) : Prop :=
  ∀ rest, Delimits rest → lex escapes .outside [] (text ++ rest) =
    ts ++ lex escapes .outside [] rest

theorem delimits_nil : Delimits [] := by simp [Delimits]

theorem delimits_space : Delimits (' ' :: rest) := by simp [Delimits]

theorem delimits_opening : Delimits ('(' :: rest) := by simp [Delimits]

theorem delimits_closing : Delimits (')' :: rest) := by simp [Delimits]

/-- What delimits a word ends it. -/
theorem lex_of_delimits (h : Delimits rest) :
    lex escapes .outside w rest = ofWord w ++ lex escapes .outside [] rest := by
  cases rest with
  | nil => simp [lex, ofWord]
  | cons c rest => rcases h c rfl with rfl | rfl | rfl <;> simp [lex, ofWord]

theorem Lexes.ofText_eq (h : Lexes escapes text ts) : ofText escapes text = ts := by
  have hall := h [] delimits_nil
  rwa [List.append_nil, lex, ofWord, List.isEmpty_nil, if_pos rfl, List.append_nil] at hall

theorem lexes_nil : Lexes escapes [] [] := fun _ _ => rfl

/-- A word, which is one token wherever it stands. -/
structure IsWord (escapes : Bool) (s : String) : Prop where
  wordlike : Wordlike escapes s.toList
  ne_empty : s ≠ ""

theorem isWord_of_plain {s : String} (h : s ≠ "" ∧ s.toList.all plain) : IsWord escapes s :=
  ⟨wordlike_of_plain h.2, h.1⟩

theorem IsWord.lexes {s : String} (h : IsWord escapes s) : Lexes escapes s.toList [.word s] := by
  intro rest hrest
  rw [h.wordlike, List.nil_append, lex_of_delimits hrest, ofWord,
    if_neg (by simpa using h.ne_empty), String.ofList_toList]

/-- The tokens of one text and of another that ends its last word. -/
theorem Lexes.append (h : Lexes escapes text ts) (h' : Lexes escapes text' ts')
    (hdelimits : Delimits text') : Lexes escapes (text ++ text') (ts ++ ts') := by
  intro rest hrest
  have hboth : Delimits (text' ++ rest) := by
    cases text' with
    | nil => exact hrest
    | cons c text' => exact hdelimits
  rw [List.append_assoc, h _ hboth, h' _ hrest, List.append_assoc]

theorem Lexes.space (h : Lexes escapes text ts) : Lexes escapes (' ' :: text) ts := by
  intro rest hrest
  rw [List.cons_append, lex, if_pos rfl, h rest hrest]
  rfl

theorem Lexes.opening (h : Lexes escapes text ts) :
    Lexes escapes ('(' :: text) (.opening :: ts) := by
  intro rest hrest
  rw [List.cons_append, lex, if_neg (by decide), if_pos rfl, h rest hrest]
  rfl

theorem lexes_closing : Lexes escapes [')'] [.closing] := by
  intro rest _
  simp [lex, ofWord]

/-- A text in parentheses. -/
theorem Lexes.parentheses (h : Lexes escapes text ts) :
    Lexes escapes ('(' :: (text ++ [')'])) (.opening :: (ts ++ [.closing])) :=
  (h.append lexes_closing delimits_closing).opening

/-- Words with a space between them. -/
def spaced : List String → List Char
  | [] => []
  | [s] => s.toList
  | s :: ss => s.toList ++ ' ' :: spaced ss

/-- Words with spaces between them are one token each. -/
theorem lexes_words {ss : List String} (h : ∀ s ∈ ss, IsWord escapes s) :
    Lexes escapes (spaced ss) (ss.map .word) := by
  induction ss with
  | nil => exact lexes_nil
  | cons s ss ih =>
    rw [List.forall_mem_cons] at h
    cases ss with
    | nil => exact h.1.lexes
    | cons next ss => exact h.1.lexes.append (ih h.2).space delimits_space

end Token

end RoleQuery
