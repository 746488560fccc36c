import RoleQuery.Predicate.Evaluation
import RoleQuery.Proofs.Statement.Lexing
import RoleQuery.Statement.Condition
import Mathlib.Data.List.Forall2

/-!
# Reading a text as a boolean expression

A condition is read as SQL is: `NOT` binds more tightly than `AND`, which binds more tightly
than `OR`, and parentheses group. `EXISTS` stands before a sub-query in parentheses, whose
condition follows the word `WHERE` and is read in the same way. Everything else up to the next
connective or closing parenthesis is a comparison, or a constant.

A text that reads as a factor does so wherever it stands: after `NOT`, between connectives and
inside parentheses. So the texts of factors can be put together, and what is read of the whole
is put together from what is read of the parts.
-/
namespace RoleQuery

def Connective.word : Connective → String
  | .and => "AND"
  | .or => "OR"

/-- The truth of terms that are joined. -/
def Connective.truth : Connective → List Truth → Truth
  | .and => Truth.all
  | .or => Truth.any

/-- What a condition is read as. -/
inductive Expression where
  | const (b : Bool)
  | comparison (tokens : List Token)
  /-- Some row of a source satisfies a condition. -/
  | subquery (source : List Token) (condition : Expression)
  | not (inner : Expression)
  | join (c : Connective) (left right : Expression)
  deriving Repr

namespace Token

/-- The words that have a meaning of their own. -/
def reserved : List String := [Connective.and.word, Connective.or.word, "NOT", "EXISTS", "WHERE"]

/-- The tokens of a comparison, up to a connective or parenthesis that does not belong to it,
and the tokens after it. `depth` parentheses have been opened. -/
def comparison : Nat → List Token → List Token × List Token
  | _, [] => ([], [])
  | _, .unfinished :: rest => ([], .unfinished :: rest)
  | 0, .closing :: rest => ([], .closing :: rest)
  | depth + 1, .closing :: rest =>
    (.closing :: (comparison depth rest).1, (comparison depth rest).2)
  | depth, .opening :: rest =>
    (.opening :: (comparison (depth + 1) rest).1, (comparison (depth + 1) rest).2)
  | 0, .word w :: rest =>
    if w = Connective.and.word ∨ w = Connective.or.word then ([], .word w :: rest)
    else (.word w :: (comparison 0 rest).1, (comparison 0 rest).2)
  | depth + 1, .word w :: rest =>
    (.word w :: (comparison (depth + 1) rest).1, (comparison (depth + 1) rest).2)

/-- The constants of the dialects. -/
def constants : List (List Token × Bool) :=
  [([.word "1", .word "=", .word "1"], true), ([.word "1", .word "=", .word "0"], false),
    ([.word "true"], true), ([.word "false"], false)]

/-- A comparison or a constant; there is none without tokens. -/
def expression? (ts : List Token) : Option Expression :=
  if ts.isEmpty then none
  else match constants.lookup ts with
    | some b => some (.const b)
    | none => some (.comparison ts)

def after? (t : Token) : List Token → Option (List Token)
  | first :: rest => if first = t then some rest else none
  | [] => none

/-- The tokens up to the word `WHERE`, and those after it. -/
def source? : List Token → Option (List Token × List Token)
  | [] => none
  | t :: rest =>
    if t = .word "WHERE" then some ([], rest)
    else (source? rest).map fun found => (t :: found.1, found.2)

mutual

/-- Read a factor, and what follows it: a negation, a group, a sub-query or a comparison. -/
def factor : Nat → List Token → Option (Expression × List Token)
  | 0, _ => none
  | fuel + 1, ts =>
    match ts with
    | .opening :: rest => do
      let (e, rest) ← terms fuel .or rest
      return (e, ← after? .closing rest)
    | .word "NOT" :: rest => do
      let (e, rest) ← factor fuel rest
      return (.not e, rest)
    | .word "EXISTS" :: rest => do
      let (source, rest) ← source? (← after? .opening rest)
      let (e, rest) ← terms fuel .or rest
      return (.subquery source e, ← after? .closing rest)
    | ts => (expression? (comparison 0 ts).1).map fun e => (e, (comparison 0 ts).2)
termination_by structural fuel => fuel

/-- Read what a connective joins: `AND` joins factors, and `OR` what `AND` joins. -/
def operand : Nat → Connective → List Token → Option (Expression × List Token)
  | 0, _, _ => none
  | fuel + 1, .and, ts => factor fuel ts
  | fuel + 1, .or, ts => terms fuel .and ts
termination_by structural fuel => fuel

/-- Read what is joined by a connective, and what follows it. -/
def terms : Nat → Connective → List Token → Option (Expression × List Token)
  | 0, _, _ => none
  | fuel + 1, c, ts => do
    let (e, rest) ← operand fuel c ts
    match after? (.word c.word) rest with
    | some rest => do
      let (e', rest) ← terms fuel c rest
      return (.join c e e', rest)
    | none => return (e, rest)
termination_by structural fuel => fuel

end

end Token

namespace Expression

open Token (Lexes ofText factor terms)

/-- Read a condition; nothing is left of the text. -/
def parse? (escapes : Bool) (text : String) : Option Expression :=
  let ts := ofText escapes text.toList
  match terms (4 * ts.length + 4) .or ts with
  | some (e, []) => some e
  | _ => none

/-! ## Values -/

/-- The truth of an expression, when truths are assigned to its comparisons and sub-queries
from left to right, and the truths that are left. -/
def value : Expression → List Truth → Truth × List Truth
  | .const b, ts => (some b, ts)
  | .comparison _, ts | .subquery _ _, ts => (ts.headD none, ts.tail)
  | .not inner, ts => (Truth.not (inner.value ts).1, (inner.value ts).2)
  | .join c left right, ts =>
    (c.truth [(left.value ts).1, (right.value (left.value ts).2).1],
      (right.value (left.value ts).2).2)

/-- The comparisons and sub-queries of an expression, from left to right. -/
def atoms : Expression → List Expression
  | .const _ => []
  | .comparison ts => [.comparison ts]
  | .subquery source condition => [.subquery source condition]
  | .not inner => inner.atoms
  | .join _ left right => left.atoms ++ right.atoms

/-- Several expressions that are joined. -/
def joined (c : Connective) : List Expression → Expression
  | [] => .const false
  | [e] => e
  | e :: es => .join c e (joined c es)

theorem joined_cons_cons (c : Connective) (e e' : Expression) (es : List Expression) :
    joined c (e :: e' :: es) = .join c e (joined c (e' :: es)) := rfl

end Expression

namespace Token

variable {fuel depth : Nat} {ts us rest : List Token} {e : Expression} {c : Connective} {w : String}

/-- The tokens go on with something that ends a factor. -/
def Ends (rest : List Token) : Prop :=
  ∀ t ∈ rest.head?, t = .closing ∨ t = .word Connective.and.word ∨ t = .word Connective.or.word

/-- The tokens go on with something that ends a group. -/
def EndsGroup (rest : List Token) : Prop := ∀ t ∈ rest.head?, t = .closing

theorem EndsGroup.ends (h : EndsGroup rest) : Ends rest := fun t ht => .inl (h t ht)

theorem endsGroup_closing : EndsGroup (.closing :: rest) := by simp [EndsGroup]

theorem endsGroup_nil : EndsGroup [] := by simp [EndsGroup]

theorem ends_word (c : Connective) : Ends (.word c.word :: rest) := by
  cases c <;> simp [Ends]

/-! ## Ordinary words -/

/-- A word without a meaning of its own. -/
structure Ordinary (escapes : Bool) (s : String) : Prop extends IsWord escapes s where
  unreserved : s ∉ reserved

theorem ordinary_of_plain {escapes : Bool} {s : String}
    (h : (s ≠ "" ∧ s.toList.all plain) ∧ s ∉ reserved) : Ordinary escapes s :=
  ⟨isWord_of_plain h.1, h.2⟩

/-- The first character tells an ordinary word from those that are reserved. -/
theorem ordinary_of_head {escapes : Bool} {s : String} {c : Char}
    (hword : Wordlike escapes s.toList)
    (hs : s.toList.head? = some c) (hc : some c ∉ reserved.map fun s => s.toList.head?) :
    Ordinary escapes s := by
  refine ⟨⟨hword, ?_⟩, fun hmem => hc (List.mem_map.2 ⟨s, hmem, hs⟩)⟩
  rintro rfl
  simp at hs

/-- A name with a number is an ordinary word. -/
theorem ordinary_numbered {escapes : Bool} {s : String} {c : Char} (hs : s.toList.all plain)
    (hhead : s.toList.head? = some c) (hc : some c ∉ reserved.map fun s => s.toList.head?)
    (n : Nat) :
    Ordinary escapes (s ++ toString n) := by
  have hnumbered : (s ++ toString n).toList.head? = some c := by
    rw [String.toList_append, List.head?_append, hhead]
    rfl
  refine ordinary_of_head ?_ hnumbered hc
  rw [String.toList_append]
  exact (wordlike_of_plain hs).append (wordlike_repr n)

theorem ordinary_parameterName {escapes : Bool} (n : Nat) :
    Ordinary escapes (Piece.parameterName n) :=
  ordinary_numbered (by decide) rfl (by decide) n

theorem ordinary_sign {escapes : Bool} {c : Comparison} (h : c ≠ .isNull) :
    Ordinary escapes c.sign := by
  cases c <;> first | exact absurd rfl h | exact ordinary_of_plain (by decide)

/-! ## Comparisons -/

/-- Tokens that a comparison goes on with. -/
def Passes (ts : List Token) : Prop :=
  ∀ depth rest, comparison depth (ts ++ rest) =
    (ts ++ (comparison depth rest).1, (comparison depth rest).2)

theorem passes_nil : Passes [] := fun _ _ => rfl

theorem Passes.append (h : Passes ts) (h' : Passes us) : Passes (ts ++ us) := by
  intro depth rest
  rw [List.append_assoc, h, h', List.append_assoc]

theorem passes_word (h : w ∉ reserved) : Passes [.word w] := by
  intro depth rest
  simp only [reserved, List.mem_cons, not_or] at h
  cases depth with
  | zero => rw [List.singleton_append, comparison, if_neg (by tauto), List.singleton_append]
  | succ depth => rfl

theorem passes_words {ws : List String} (h : ∀ w ∈ ws, w ∉ reserved) : Passes (ws.map .word) := by
  induction ws with
  | nil => exact passes_nil
  | cons w ws ih =>
    rw [List.forall_mem_cons] at h
    exact (passes_word h.1).append (ih h.2)

/-- What stands in parentheses belongs to the comparison that they are opened in. -/
theorem Passes.parentheses (h : Passes ts) : Passes (.opening :: (ts ++ [.closing])) := by
  intro depth rest
  have hopening : comparison depth (.opening :: (ts ++ (.closing :: rest))) =
      (.opening :: (comparison (depth + 1) (ts ++ (.closing :: rest))).1,
        (comparison (depth + 1) (ts ++ (.closing :: rest))).2) := by
    cases depth <;> rfl
  rw [List.cons_append, List.append_assoc, List.singleton_append, hopening, h, comparison]
  simp

theorem comparison_of_ends (h : Ends rest) : comparison 0 rest = ([], rest) := by
  cases rest with
  | nil => rfl
  | cons t rest => rcases h t rfl with rfl | rfl | rfl <;> simp [comparison]

/-! ## Factors -/

/-- Tokens that read as a factor, whatever ends it. -/
structure IsFactor (ts : List Token) (e : Expression) : Prop where
  ne_nil : ts ≠ []
  factor_eq : ∀ fuel rest, Ends rest → 4 * ts.length ≤ fuel →
    factor fuel (ts ++ rest) = some (e, rest)

/-- A word that is not reserved begins a comparison. -/
theorem factor_word (h : w ∉ reserved) :
    factor (fuel + 1) (.word w :: rest) =
      (expression? (comparison 0 (.word w :: rest)).1).map
        fun e => (e, (comparison 0 (.word w :: rest)).2) := by
  rw [factor]
  · rintro rest ⟨⟩
  · rintro rest ⟨⟩
    exact h (by decide)
  · rintro rest ⟨⟩
    exact h (by decide)

theorem isFactor_comparison (hw : w ∉ reserved) (hpasses : Passes ts)
    (hread : expression? (.word w :: ts) = some e) : IsFactor (.word w :: ts) e := by
  refine ⟨by simp, fun fuel rest hrest hfuel => ?_⟩
  obtain ⟨fuel, rfl⟩ : ∃ n, fuel = n + 1 := ⟨fuel - 1, by simp at hfuel; omega⟩
  have hall := (passes_word hw).append hpasses 0 rest
  rw [comparison_of_ends hrest, List.append_nil, List.singleton_append] at hall
  rw [List.cons_append, factor_word hw, ← List.cons_append, hall, hread]
  rfl

/-- A negated factor. -/
theorem IsFactor.not (h : IsFactor ts e) : IsFactor (.word "NOT" :: ts) (.not e) := by
  refine ⟨by simp, fun fuel rest hrest hfuel => ?_⟩
  rw [List.length_cons] at hfuel
  obtain ⟨fuel, rfl⟩ : ∃ n, fuel = n + 1 := ⟨fuel - 1, by omega⟩
  rw [List.cons_append, factor]
  simp only [h.factor_eq fuel rest hrest (by omega)]
  rfl

/-! ## Joined factors -/

/-- Tokens with a connective between them. -/
def separated (c : Connective) : List (List Token) → List Token
  | [] => []
  | [ts] => ts
  | ts :: others => ts ++ .word c.word :: separated c others

theorem after?_of_endsGroup (hrest : EndsGroup rest) : after? (.word w) rest = none := by
  cases rest with
  | nil => rfl
  | cons t rest =>
    rw [hrest t rfl]
    rfl

/-- The last operand of a connective is all that is read. -/
theorem terms_last (h : operand fuel c ts = some (e, rest)) (hrest : EndsGroup rest) :
    terms (fuel + 1) c ts = some (e, rest) := by
  rw [terms, h]
  simp only [Option.bind_eq_bind, Option.bind_some, after?_of_endsGroup hrest]
  rfl

/-- After an operand and the word of a connective, further operands are read. -/
theorem terms_join {e' : Expression} (h : operand fuel c ts = some (e, .word c.word :: us))
    (hothers : terms fuel c us = some (e', rest)) :
    terms (fuel + 1) c ts = some (.join c e e', rest) := by
  rw [terms, h]
  simp only [Option.bind_eq_bind, Option.bind_some, after?, if_pos, hothers]
  rfl

theorem separated_cons_cons (c : Connective) (ts us : List Token) (others : List (List Token)) :
    separated c (ts :: us :: others) = ts ++ .word c.word :: separated c (us :: others) := rfl

/-- A factor is an operand of both connectives. -/
theorem IsFactor.operand_eq (h : IsFactor ts e)
    (hrest : EndsGroup rest ∨ ∃ us, rest = .word c.word :: us) (hfuel : 4 * ts.length + 3 ≤ fuel) :
    operand fuel c (ts ++ rest) = some (e, rest) := by
  have hends : Ends rest := by
    rcases hrest with hrest | ⟨us, rfl⟩
    · exact hrest.ends
    · exact ends_word c
  cases c with
  | and =>
    obtain ⟨fuel, rfl⟩ : ∃ n, fuel = n + 1 := ⟨fuel - 1, by omega⟩
    exact h.factor_eq fuel rest hends (by omega)
  | or =>
    obtain ⟨fuel, rfl⟩ : ∃ n, fuel = n + 3 := ⟨fuel - 3, by omega⟩
    have hafter : after? (.word Connective.and.word) rest = none := by
      rcases hrest with hrest | ⟨us, rfl⟩
      · exact after?_of_endsGroup hrest
      · rfl
    rw [operand, terms, operand, h.factor_eq fuel rest hends (by omega)]
    simp only [Option.bind_eq_bind, Option.bind_some, hafter]
    rfl

/-- Factors that are joined by a connective are read in order, up to
the end of their group. -/
theorem terms_separated {parts : List (List Token)} {es : List Expression}
    (h : List.Forall₂ IsFactor parts es) (hne : es ≠ []) (hrest : EndsGroup rest)
    (hfuel : 4 * (separated c parts).length + 4 ≤ fuel) :
    terms fuel c (separated c parts ++ rest) = some (Expression.joined c es, rest) := by
  induction h generalizing fuel with
  | nil => exact absurd rfl hne
  | @cons ts e parts es hfirst hothers ih =>
    obtain ⟨fuel, rfl⟩ : ∃ n, fuel = n + 1 := ⟨fuel - 1, by omega⟩
    cases hothers with
    | nil =>
      rw [separated] at hfuel ⊢
      exact terms_last (hfirst.operand_eq (.inl hrest) (by omega)) hrest
    | @cons us e' parts es hnext hothers =>
      rw [separated_cons_cons, List.length_append, List.length_cons] at hfuel
      rw [separated_cons_cons, List.append_assoc, List.cons_append]
      exact terms_join (hfirst.operand_eq (.inr ⟨_, rfl⟩) (by omega)) (ih (by simp) (by omega))

/-- Joined factors are read as the only operand of a disjunction, too. -/
theorem terms_or_separated {parts : List (List Token)} {es : List Expression}
    (h : List.Forall₂ IsFactor parts es) (hne : es ≠ []) (hrest : EndsGroup rest)
    (hfuel : 4 * (separated c parts).length + 6 ≤ fuel) :
    terms fuel .or (separated c parts ++ rest) = some (Expression.joined c es, rest) := by
  cases c with
  | or => exact terms_separated h hne hrest (by omega)
  | and =>
    obtain ⟨fuel, rfl⟩ : ∃ n, fuel = n + 2 := ⟨fuel - 2, by omega⟩
    exact terms_last (terms_separated h hne hrest (by omega)) hrest

/-- Joined factors in parentheses are a factor. -/
theorem isFactor_group {parts : List (List Token)} {es : List Expression}
    (h : List.Forall₂ IsFactor parts es) (hne : es ≠ []) :
    IsFactor (.opening :: (separated c parts ++ [.closing])) (Expression.joined c es) := by
  refine ⟨by simp, fun fuel rest hrest hfuel => ?_⟩
  rw [List.length_cons, List.length_append, List.length_singleton] at hfuel
  obtain ⟨fuel, rfl⟩ : ∃ n, fuel = n + 1 := ⟨fuel - 1, by omega⟩
  have hterms : terms fuel .or (separated c parts ++ .closing :: rest) =
      some (Expression.joined c es, .closing :: rest) :=
    terms_or_separated h hne endsGroup_closing (by omega)
  rw [List.cons_append, List.append_assoc, List.singleton_append, factor, hterms]
  rfl

/-- The words of a source are those up to `WHERE`. -/
theorem source?_append {source : List Token} (h : .word "WHERE" ∉ source) :
    source? (source ++ .word "WHERE" :: rest) = some (source, rest) := by
  induction source with
  | nil => simp [source?]
  | cons t source ih =>
    rw [List.mem_cons, not_or] at h
    rw [List.cons_append, source?, if_neg (Ne.symm h.1), ih h.2]
    rfl

/-- A sub-query whose condition is that of several factors is a factor. -/
theorem isFactor_subquery {source : List Token} (hsource : .word "WHERE" ∉ source)
    {parts : List (List Token)} {es : List Expression} (h : List.Forall₂ IsFactor parts es)
    (hne : es ≠ []) :
    IsFactor (.word "EXISTS" :: .opening ::
        (source ++ .word "WHERE" :: (separated .and parts ++ [.closing])))
      (.subquery source (Expression.joined .and es)) := by
  refine ⟨by simp, fun fuel rest hrest hfuel => ?_⟩
  simp only [List.length_cons, List.length_append, List.length_nil] at hfuel
  obtain ⟨fuel, rfl⟩ : ∃ n, fuel = n + 1 := ⟨fuel - 1, by omega⟩
  have hterms : terms fuel .or (separated .and parts ++ .closing :: rest) =
      some (Expression.joined .and es, .closing :: rest) :=
    terms_or_separated h hne endsGroup_closing (by omega)
  simp only [List.cons_append, List.append_assoc, List.nil_append]
  rw [factor]
  simp only [after?, if_pos, Option.bind_eq_bind, Option.bind_some, source?_append hsource, hterms]
  rfl

/-- Texts with the separator of a connective between them. -/
def separatedText (c : Connective) : List (List Char) → List Char
  | [] => []
  | [text] => text
  | text :: others => text ++ (c.separator.toList ++ separatedText c others)

theorem separatedText_cons_cons (c : Connective) (text next : List Char)
    (others : List (List Char)) :
    separatedText c (text :: next :: others) =
      text ++ (c.separator.toList ++ separatedText c (next :: others)) := rfl

theorem lexes_separator {escapes : Bool} (c : Connective) {text : List Char}
    (h : Lexes escapes text ts) :
    Lexes escapes (c.separator.toList ++ text) (.word c.word :: ts) := by
  have hseparator : c.separator.toList ++ text = ' ' :: (c.word.toList ++ ' ' :: text) := by
    cases c <;> simp [Connective.separator, Connective.word]
  have hword : Lexes escapes c.word.toList [.word c.word] := by
    cases c with
    | and => exact (isWord_of_plain (by decide)).lexes
    | or => exact (isWord_of_plain (by decide)).lexes
  rw [hseparator]
  exact (hword.append h.space delimits_space).space

theorem lexes_separatedText {escapes : Bool} {texts : List (List Char)} {parts : List (List Token)}
    (h : List.Forall₂ (Lexes escapes) texts parts) :
    Lexes escapes (separatedText c texts) (separated c parts) := by
  induction h with
  | nil => exact lexes_nil
  | @cons text ts texts parts hfirst hothers ih =>
    cases hothers with
    | nil => exact hfirst
    | @cons next us texts parts hnext hothers =>
      rw [separatedText_cons_cons, separated_cons_cons]
      refine hfirst.append (lexes_separator c ih) ?_
      cases c <;> simp [Connective.separator, Delimits]

end Token

namespace Expression

open Token

variable {escapes : Bool} {text : List Char} {ts : List Token} {w : String} {e : Expression}
  {c : Connective}

/-- A text that reads as a factor, wherever it stands. -/
def Reads (escapes : Bool) (text : List Char) (e : Expression) : Prop :=
  ∃ ts, Lexes escapes text ts ∧ IsFactor ts e

/-- **What reads as a factor is parsed.** -/
theorem Reads.parse?_eq {text : String} (h : Reads escapes text.toList e) :
    parse? escapes text = some e := by
  obtain ⟨ts, hlexes, hfactor⟩ := h
  have hoperand : operand (4 * ts.length + 3) .or (ts ++ []) = some (e, []) :=
    hfactor.operand_eq (.inl endsGroup_nil) (Nat.le_refl _)
  rw [List.append_nil] at hoperand
  simp only [parse?, hlexes.ofText_eq, terms_last hoperand endsGroup_nil]

/-- `NOT` binds more tightly than `AND`, and `AND` more tightly than `OR`. -/
example : parse? false "NOT a AND b OR (c OR d) AND e" =
    some (.join .or (.join .and (.not (.comparison [.word "a"])) (.comparison [.word "b"]))
      (.join .and (.join .or (.comparison [.word "c"]) (.comparison [.word "d"]))
        (.comparison [.word "e"]))) := by cbv

/-- Several tokens, the first of them a word other than `1`, are a comparison. -/
theorem reads_comparison {t : Token} (hlexes : Lexes escapes text (.word w :: t :: ts))
    (hw : w ∉ reserved) (hone : w ≠ "1") (hpasses : Passes (t :: ts)) :
    Reads escapes text (.comparison (ofText escapes text)) := by
  refine ⟨_, hlexes, isFactor_comparison hw hpasses ?_⟩
  have hconstant : constants.lookup (.word w :: t :: ts) = none := by
    rw [List.lookup_eq_none_iff]
    simp [constants, hone]
  rw [hlexes.ofText_eq, expression?, hconstant]
  rfl

/-- Several words, the first of them other than `1`, are a comparison. -/
theorem reads_words {v : String} {ws : List String}
    (h : ∀ s ∈ w :: v :: ws, Ordinary escapes s) (hone : w ≠ "1") :
    Reads escapes (spaced (w :: v :: ws))
      (.comparison (ofText escapes (spaced (w :: v :: ws)))) := by
  have hpasses : Passes ((v :: ws).map .word) :=
    passes_words fun s hs => (h s (List.mem_cons_of_mem w hs)).unreserved
  exact reads_comparison (lexes_words fun s hs => (h s hs).toIsWord) (h w (by simp)).unreserved hone
    hpasses

/-- A function of several words is a comparison. -/
theorem reads_call (ws : List String) (hw : Ordinary escapes w) (hone : w ≠ "1")
    (hws : ∀ s ∈ ws, Ordinary escapes s) (htext : text = w.toList ++ '(' :: (spaced ws ++ [')'])) :
    Reads escapes text (.comparison (ofText escapes text)) := by
  have hlexes : Lexes escapes text (.word w :: .opening :: (ws.map .word ++ [.closing])) := by
    rw [htext]
    exact hw.lexes.append (lexes_words fun s hs => (hws s hs).toIsWord).parentheses delimits_opening
  exact reads_comparison hlexes hw.unreserved hone
    (passes_words fun s hs => (hws s hs).unreserved).parentheses

/-- The words of a constant read as it. -/
theorem reads_const {b : Bool} (w : String) (ws : List String)
    (h : ∀ s ∈ w :: ws, Ordinary escapes s)
    (hconstant : constants.lookup ((w :: ws).map .word) = some b) :
    Reads escapes (spaced (w :: ws)) (.const b) := by
  refine ⟨_, lexes_words fun s hs => (h s hs).toIsWord,
    isFactor_comparison (h w (by simp)).unreserved
    (passes_words fun s hs => (h s (List.mem_cons_of_mem w hs)).unreserved) ?_⟩
  rw [expression?, ← List.map_cons, hconstant]
  rfl

/-- The tokens of several texts that read as factors. -/
theorem exists_tokens_of_reads {texts : List (List Char)} {es : List Expression}
    (h : List.Forall₂ (Reads escapes) texts es) :
    ∃ parts, List.Forall₂ (Lexes escapes) texts parts ∧ List.Forall₂ IsFactor parts es := by
  induction h with
  | nil => exact ⟨[], .nil, .nil⟩
  | cons hfirst _ ih =>
    obtain ⟨ts, hlexes, hfactor⟩ := hfirst
    obtain ⟨parts, hparts, hfactors⟩ := ih
    exact ⟨ts :: parts, .cons hlexes hparts, .cons hfactor hfactors⟩

/-- Joined texts in parentheses read as what is joined. -/
theorem Reads.chain {texts : List (List Char)} {es : List Expression}
    (h : List.Forall₂ (Reads escapes) texts es) (hne : es ≠ []) :
    Reads escapes ('(' :: (separatedText c texts ++ [')'])) (joined c es) := by
  obtain ⟨parts, hlexes, hfactors⟩ := exists_tokens_of_reads h
  exact ⟨_, (lexes_separatedText hlexes).parentheses, isFactor_group hfactors hne⟩

/-- The negation of a factor. -/
theorem Reads.not (h : Reads escapes text e) :
    Reads escapes ("NOT ".toList ++ text) (.not e) := by
  obtain ⟨ts, hlexes, hfactor⟩ := h
  have hword : Lexes escapes "NOT".toList [.word "NOT"] := (isWord_of_plain (by decide)).lexes
  have htext : "NOT ".toList ++ text = "NOT".toList ++ ' ' :: text := by simp
  rw [htext]
  exact ⟨_, hword.append hlexes.space delimits_space, hfactor.not⟩

/-- The negation of what stands in parentheses. -/
theorem Reads.notParen (h : Reads escapes text e) :
    Reads escapes ("NOT (".toList ++ (text ++ [')'])) (.not e) := by
  have hterm : List.Forall₂ (Reads escapes) [text] [e] := .cons h .nil
  have hgroup : Reads escapes ('(' :: (text ++ [')'])) e := Reads.chain (c := .and) hterm (by simp)
  have htext : "NOT (".toList ++ (text ++ [')']) = "NOT ".toList ++ '(' :: (text ++ [')']) := by
    simp
  rw [htext]
  exact hgroup.not

/-- A sub-query over a source, for the rows of which several texts hold. -/
theorem Reads.subquery {source : List Char} {words : List Token}
    (hlexes : Lexes escapes source words)
    (hwhere : .word "WHERE" ∉ words) {texts : List (List Char)} {es : List Expression}
    (h : List.Forall₂ (Reads escapes) texts es) (hne : es ≠ []) :
    Reads escapes
      ("EXISTS (".toList ++ (source ++ (" WHERE ".toList ++ (separatedText .and texts ++ [')']))))
      (.subquery words (joined .and es)) := by
  obtain ⟨parts, htexts, hfactors⟩ := exists_tokens_of_reads h
  refine ⟨_, ?_, isFactor_subquery hwhere hfactors hne⟩
  have hcondition : Lexes escapes (separatedText .and texts ++ [')'])
      (separated .and parts ++ [.closing]) :=
    (lexes_separatedText htexts).append lexes_closing delimits_closing
  have hwords : Lexes escapes (" WHERE ".toList ++ (separatedText .and texts ++ [')']))
      (.word "WHERE" :: (separated .and parts ++ [.closing])) := by
    have hword : Lexes escapes "WHERE".toList [.word "WHERE"] := (isWord_of_plain (by decide)).lexes
    have htext : " WHERE ".toList ++ (separatedText .and texts ++ [')']) =
        ' ' :: ("WHERE".toList ++ ' ' :: (separatedText .and texts ++ [')'])) := by simp
    rw [htext]
    exact (hword.append hcondition.space delimits_space).space
  have hexists : Lexes escapes "EXISTS".toList [.word "EXISTS"] :=
    (isWord_of_plain (by decide)).lexes
  have htext : ∀ rest, "EXISTS (".toList ++ rest = "EXISTS".toList ++ ' ' :: '(' :: rest := by simp
  rw [htext]
  exact hexists.append (hlexes.append hwords delimits_space).opening.space delimits_space

end Expression

end RoleQuery
