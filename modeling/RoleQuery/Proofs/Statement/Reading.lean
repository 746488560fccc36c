import RoleQuery.Statement.Basic

/-!
# Reading statements

A statement is its text and its parameters. What it was written from can be read off these
two, part by part: the beginning of the text decides which part comes first and where that
part ends, and the operands come in the order of the holes.

So that this can be said of a part alone, a statement is cut into cells. A cell is a
character, or stands for an operand. Two lists of cells are alike if they have one
text and the same operands. A way of writing is legible if whatever is alike was
written from the same thing.
-/
namespace RoleQuery

/-- A cell of a statement. -/
inductive Cell where
  | char (c : Char)
  /-- A hole in the text and its operand. -/
  | hole (v : Value)
  /-- An operand that the text does not mention. -/
  | hidden (v : Value)
  deriving DecidableEq, Repr

namespace Cell

/-- The text of cells, of which the first operand has the number `n`. -/
def text (n : Nat) : List Cell → List Char
  | [] => []
  | .char c :: rest => c :: text n rest
  | .hole _ :: rest => (Piece.parameterName n).toList ++ text (n + 1) rest
  | .hidden _ :: rest => text (n + 1) rest

def operands : List Cell → List Value
  | [] => []
  | .char _ :: rest => operands rest
  | .hole v :: rest | .hidden v :: rest => v :: operands rest

abbrev ofChars (cs : List Char) : List Cell := cs.map .char

/-- The cells of a text. -/
def ofString (s : String) : List Cell := ofChars s.toList

@[simp] theorem ofString_append (s t : String) :
    ofString (s ++ t) = ofString s ++ ofString t := by
  rw [ofString, String.toList_append, ofChars, List.map_append]
  rfl

/-- One text, if the first operands have the number `n`, and the same operands. -/
structure Alike (n : Nat) (k l : List Cell) : Prop where
  text : text n k = text n l
  operands : operands k = operands l

variable {n : Nat} {k l : List Cell}

theorem Alike.symm (h : Alike n k l) : Alike n l k := ⟨h.text.symm, h.operands.symm⟩

@[simp] theorem alike_char_char {c d : Char} :
    Alike n (.char c :: k) (.char d :: l) ↔ c = d ∧ Alike n k l := by
  constructor
  · rintro ⟨htext, hoperands⟩
    rw [Cell.text, Cell.text, List.cons.injEq] at htext
    exact ⟨htext.1, htext.2, hoperands⟩
  · rintro ⟨rfl, htext, hoperands⟩
    exact ⟨congrArg (c :: ·) htext, hoperands⟩

@[simp] theorem alike_hole_hole {v w : Value} :
    Alike n (.hole v :: k) (.hole w :: l) ↔ v = w ∧ Alike (n + 1) k l := by
  constructor
  · rintro ⟨htext, hoperands⟩
    rw [Cell.operands, Cell.operands, List.cons.injEq] at hoperands
    exact ⟨hoperands.1, List.append_cancel_left htext, hoperands.2⟩
  · rintro ⟨rfl, htext, hoperands⟩
    exact ⟨congrArg ((Piece.parameterName n).toList ++ ·) htext, congrArg (v :: ·) hoperands⟩

/-- The text of a hole begins with a sign that nothing else begins with. -/
@[simp] theorem head?_text_hole (v : Value) : (text n (.hole v :: k)).head? = some '@' := by
  simp [text, Piece.parameterName]

theorem head?_text_of_alike (h : Alike n k l) : (text n k).head? = (text n l).head? := by
  rw [h.text]

@[simp] theorem alike_char_hole {c : Char} {v : Value} (hc : c ≠ '@') :
    ¬ Alike n (.char c :: k) (.hole v :: l) := by
  intro h
  have hhead := head?_text_of_alike h
  rw [head?_text_hole, Cell.text, List.head?_cons, Option.some.injEq] at hhead
  exact hc hhead

@[simp] theorem alike_hole_char {c : Char} {v : Value} (hc : c ≠ '@') :
    ¬ Alike n (.hole v :: k) (.char c :: l) := fun h => alike_char_hole hc h.symm

@[simp] theorem alike_nil_char {c : Char} : ¬ Alike n [] (.char c :: l) := fun h => by
  have hhead := head?_text_of_alike h
  simp [Cell.text] at hhead

@[simp] theorem alike_char_nil {c : Char} : ¬ Alike n (.char c :: k) [] :=
  fun h => alike_nil_char h.symm

/-- What two lists of cells begin with in common can be taken off. -/
theorem Alike.append_left {x : List Cell} (h : Alike n (x ++ k) (x ++ l)) : ∃ m, Alike m k l := by
  induction x generalizing n with
  | nil => exact ⟨n, h⟩
  | cons cell rest ih =>
    cases cell with
    | char c => exact ih (alike_char_char.1 h).2
    | hole v => exact ih (alike_hole_hole.1 h).2
    | hidden v =>
      refine ih (n := n + 1) ⟨h.text, ?_⟩
      exact (List.cons.inj h.operands).2

/-- Characters in common can be taken off without counting operands. -/
@[simp] theorem alike_ofChars_append {cs : List Char} :
    Alike n (ofChars cs ++ k) (ofChars cs ++ l) ↔ Alike n k l := by
  induction cs with
  | nil => rfl
  | cons c rest ih => simpa using ih

@[simp] theorem alike_ofString_append {s : String} :
    Alike n (ofString s ++ k) (ofString s ++ l) ↔ Alike n k l := alike_ofChars_append

@[simp] theorem text_ofChars_append (cs : List Char) :
    text n (ofChars cs ++ k) = cs ++ text n k := by
  induction cs with
  | nil => rfl
  | cons c rest ih => exact congrArg (c :: ·) ih

@[simp] theorem operands_ofChars_append (cs : List Char) :
    operands (ofChars cs ++ k) = operands k := by
  induction cs with
  | nil => rfl
  | cons c rest ih => exact ih

/-! ## Where a part ends -/

/-- The text does not go on with certain characters. -/
def Stops (p : Char → Prop) (k : List Cell) : Prop := ∀ n, ∀ c ∈ (text n k).head?, ¬ p c

@[simp] theorem stops_char {p : Char → Prop} {c : Char} : Stops p (.char c :: k) ↔ ¬ p c := by
  simp [Stops, text]

@[simp] theorem stops_hole {p : Char → Prop} {v : Value} : Stops p (.hole v :: k) ↔ ¬ p '@' := by
  simp [Stops]

/-- What stops goes on with none of the characters. -/
theorem Stops.not_alike_char {p : Char → Prop} (h : Stops p k) {c : Char} (hc : p c) :
    ¬ Alike n k (.char c :: l) := by
  intro halike
  have hhead := head?_text_of_alike halike
  rw [text, List.head?_cons] at hhead
  exact h n c hhead hc

variable {α : Type} {ok : α → Prop} {F : List Cell → Prop} {write : α → List Cell}

/-- Of what is written before certain continuations, one thing only can have been written. -/
def Legible (ok : α → Prop) (F : List Cell → Prop) (write : α → List Cell) : Prop :=
  ∀ ⦃n a b k l⦄, ok a → ok b → F k → F l → Alike n (write a ++ k) (write b ++ l) → a = b

/-- What is legible is read, and what follows it is alike. -/
theorem Legible.read (h : Legible ok F write) {a b : α} (ha : ok a) (hb : ok b) (hk : F k)
    (hl : F l) (halike : Alike n (write a ++ k) (write b ++ l)) : a = b ∧ ∃ m, Alike m k l := by
  obtain rfl := h ha hb hk hl halike
  exact ⟨rfl, halike.append_left⟩

/-- What can be read back from the beginning of a text is legible. -/
theorem legible_of_read {read : List Char → Option (α × List Char)} {spell : α → List Char}
    {p : Char → Prop} (h : ∀ a rest, ok a → (∀ c ∈ rest.head?, ¬ p c) →
      read (spell a ++ rest) = some (a, rest)) :
    Legible ok (Stops p) fun a => ofChars (spell a) := by
  intro n a b k l ha hb hk hl halike
  have htext := halike.text
  rw [text_ofChars_append, text_ofChars_append] at htext
  have hread := h a _ ha (hk n)
  rw [htext, h b _ hb (hl n)] at hread
  exact (congrArg Prod.fst (Option.some.inj hread)).symm

/-- A continuation that cannot be taken for another item. -/
structure Ends (ok : α → Prop) (F : List Cell → Prop) (write : α → List Cell)
    (k : List Cell) : Prop where
  follows : F k
  not_alike : ∀ ⦃n a x⦄, ok a → ¬ Alike n k (write a ++ x)

/-- Items one after another are legible if each of them is, and what follows is none. -/
theorem Legible.flatMap (h : Legible ok F write) (hnext : ∀ a x, ok a → F (write a ++ x))
    {as bs : List α} (has : ∀ a ∈ as, ok a) (hbs : ∀ b ∈ bs, ok b) (hk : Ends ok F write k)
    (hl : Ends ok F write l) (halike : Alike n (as.flatMap write ++ k) (bs.flatMap write ++ l)) :
    as = bs := by
  have hfollows : ∀ {cs : List α} {j : List Cell}, (∀ c ∈ cs, ok c) → Ends ok F write j →
      F (cs.flatMap write ++ j) := by
    intro cs j hcs hj
    cases cs with
    | nil => exact hj.follows
    | cons c rest =>
      rw [List.flatMap_cons, List.append_assoc]
      exact hnext c _ (hcs c List.mem_cons_self)
  induction as generalizing bs n with
  | nil =>
    cases bs with
    | nil => rfl
    | cons b rest =>
      rw [List.flatMap_cons, List.append_assoc] at halike
      exact absurd halike (hk.not_alike (hbs b List.mem_cons_self))
  | cons a as ih =>
    cases bs with
    | nil =>
      rw [List.flatMap_cons, List.append_assoc] at halike
      exact absurd halike.symm (hl.not_alike (has a List.mem_cons_self))
    | cons b bs =>
      rw [List.forall_mem_cons] at has hbs
      simp only [List.flatMap_cons, List.append_assoc] at halike
      obtain ⟨rfl, m, hrest⟩ := h.read has.1 hbs.1 (hfollows has.2 hk) (hfollows hbs.2 hl) halike
      rw [ih has.2 hbs.2 hrest]

/-- A word is legible before a character that words do not have. -/
theorem eq_of_alike_span {p : Char → Prop} {a b : List Char} (ha : ∀ c ∈ a, p c)
    (hb : ∀ c ∈ b, p c) (hk : Stops p k) (hl : Stops p l)
    (halike : Alike n (ofChars a ++ k) (ofChars b ++ l)) : a = b := by
  have hread : Legible p (fun _ => True) fun c => [Cell.char c] := by
    intro n c d k l _ _ _ _ h
    exact (alike_char_char.1 h).1
  refine hread.flatMap (fun _ _ _ => trivial) ha hb ⟨trivial, fun _ c _ hc => hk.not_alike_char hc⟩
    ⟨trivial, fun _ c _ hc => hl.not_alike_char hc⟩ (n := n) ?_
  simpa only [List.flatMap_singleton', List.map_eq_flatMap] using halike

/-- A word is legible before a space. -/
theorem read_word {word word' : String} (hword : ' ' ∉ word.toList) (hword' : ' ' ∉ word'.toList)
    (halike : Alike n (ofString (word ++ " ") ++ k) (ofString (word' ++ " ") ++ l)) :
    word = word' ∧ ∃ m, Alike m k l := by
  simp only [ofString_append, List.append_assoc] at halike
  have hspace : ∀ x, Stops (fun c => c ≠ ' ') (ofString " " ++ x) := by simp [ofString]
  have hchars : ∀ {w : String}, ' ' ∉ w.toList → ∀ c ∈ w.toList, c ≠ ' ' := by
    rintro w hw _ hc rfl
    exact hw hc
  have heq := eq_of_alike_span (hchars hword) (hchars hword') (hspace _) (hspace _) halike
  obtain rfl := String.toList_inj.1 heq
  obtain ⟨m, hrest⟩ := halike.append_left
  exact ⟨rfl, m, alike_ofString_append.1 hrest⟩

/-- A number is legible before anything but a digit. -/
theorem eq_of_alike_digits {a b : UInt32} (hk : Stops (fun c => c.isDigit) k)
    (hl : Stops (fun c => c.isDigit) l)
    (halike : Alike n (ofChars (Nat.toDigits 10 a.toNat) ++ k)
      (ofChars (Nat.toDigits 10 b.toNat) ++ l)) : a = b := by
  have hdigit : ∀ (m : Nat), ∀ c ∈ Nat.toDigits 10 m, c.isDigit :=
    fun m c hc => Nat.isDigit_of_mem_toDigits (by omega) (by omega) hc
  have hdigits := eq_of_alike_span (hdigit _) (hdigit _) hk hl halike
  have hnat : a.toNat = b.toNat := by
    rw [← Nat.ofDigitChars_ten_toDigits (n := a.toNat), hdigits, Nat.ofDigitChars_ten_toDigits]
  exact UInt32.toNat_inj.1 hnat

/-- The cells of items with a separator between them. -/
def separated (separator : String) (write : α → List Cell) : List α → List Cell
  | [] => []
  | a :: rest => write a ++ rest.flatMap fun b => ofString separator ++ write b

theorem separated_map {β : Type} (separator : String) (write : α → List Cell) (f : β → α)
    (bs : List β) :
    separated separator write (bs.map f) = separated separator (fun b => write (f b)) bs := by
  cases bs with
  | nil => rfl
  | cons b rest => rw [List.map_cons, separated, separated, List.flatMap_map]

/-- Items with a separator between them are legible if each of them is, and what follows is
neither an item nor a separator before one. -/
theorem Legible.separated {separator : String} (h : Legible ok F write)
    (hnext : ∀ x, F (ofString separator ++ x)) {as bs : List α} (has : ∀ a ∈ as, ok a)
    (hbs : ∀ b ∈ bs, ok b) (hk : Ends ok F write k) (hl : Ends ok F write l)
    (hk' : Ends ok F (fun a => ofString separator ++ write a) k)
    (hl' : Ends ok F (fun a => ofString separator ++ write a) l)
    (halike : Alike n (Cell.separated separator write as ++ k)
      (Cell.separated separator write bs ++ l)) : as = bs := by
  have htail : Legible ok F fun a => ofString separator ++ write a := by
    intro n a b k l ha hb hF hF' halike
    rw [List.append_assoc, List.append_assoc, alike_ofString_append] at halike
    exact h ha hb hF hF' halike
  have hfollows : ∀ {cs : List α} {j : List Cell}, Ends ok F write j →
      F ((cs.flatMap fun b => ofString separator ++ write b) ++ j) := by
    intro cs j hj
    cases cs with
    | nil => exact hj.follows
    | cons c rest =>
      rw [List.flatMap_cons, List.append_assoc, List.append_assoc]
      exact hnext _
  cases as with
  | nil =>
    cases bs with
    | nil => rfl
    | cons b rest =>
      rw [Cell.separated, Cell.separated, List.append_assoc] at halike
      exact absurd halike (hk.not_alike (hbs b List.mem_cons_self))
  | cons a as =>
    cases bs with
    | nil =>
      rw [Cell.separated, Cell.separated, List.append_assoc] at halike
      exact absurd halike.symm (hl.not_alike (has a List.mem_cons_self))
    | cons b bs =>
      rw [List.forall_mem_cons] at has hbs
      rw [Cell.separated, Cell.separated, List.append_assoc, List.append_assoc] at halike
      obtain ⟨rfl, m, hrest⟩ := h.read has.1 hbs.1 (hfollows hk) (hfollows hl) halike
      rw [htail.flatMap (fun a x _ => by rw [List.append_assoc]; exact hnext _) has.2 hbs.2 hk' hl'
        hrest]

end Cell

namespace Piece

open Cell

/-- The cells of pieces. -/
def cells : List Piece → List Cell
  | [] => []
  | .text s :: rest => ofString s ++ cells rest
  | .operand v :: rest => .hole v :: cells rest
  | .hidden v :: rest => .hidden v :: cells rest

@[simp] theorem cells_append (ps qs : List Piece) : cells (ps ++ qs) = cells ps ++ cells qs := by
  induction ps with
  | nil => rfl
  | cons p rest ih => cases p <;> simp [cells, ih]

theorem text_cells (n : Nat) (ps : List Piece) :
    Cell.text n (cells ps) = (String.join (render n ps)).toList := by
  induction ps generalizing n with
  | nil => rfl
  | cons p rest ih =>
    cases p with
    | text s =>
      rw [cells, ofString, text_ofChars_append, ih, render, String.join_cons,
        String.toList_append]
    | operand v => rw [cells, Cell.text, ih, render, String.join_cons, String.toList_append]
    | hidden v => rw [cells, Cell.text, ih, render]

theorem operands_cells (n : Nat) (ps : List Piece) :
    Cell.operands (cells ps) = (parameters n ps).map (·.2) := by
  induction ps generalizing n with
  | nil => rfl
  | cons p rest ih =>
    cases p with
    | text s => rw [cells, ofString, operands_ofChars_append, ih n, parameters]
    | operand v => rw [cells, Cell.operands, ih (n + 1), parameters, List.map_cons]
    | hidden v => rw [cells, Cell.operands, ih (n + 1), parameters, List.map_cons]

/-- Pieces with a separator between them are items with a separator between them. -/
theorem cells_intercalate (separator : String) (pss : List (List Piece)) :
    cells (intercalate separator pss) = Cell.separated separator cells pss := by
  induction pss with
  | nil => rfl
  | cons ps rest ih =>
    cases rest with
    | nil => simp [intercalate, Cell.separated]
    | cons qs rest => simp [intercalate, cells, ih, Cell.separated]

end Piece

/-- A text with separators is a list of texts with separators. -/
theorem Cell.ofString_intercalate {α : Type} (separator : String) (write : α → String)
    (as : List α) : Cell.ofString (separator.intercalate (as.map write)) =
      Cell.separated separator (fun a => Cell.ofString (write a)) as := by
  induction as with
  | nil => rfl
  | cons a rest ih =>
    cases rest with
    | nil => simp [Cell.separated]
    | cons b rest =>
      rw [List.map_cons] at ih
      rw [List.map_cons, List.map_cons, String.intercalate_cons_cons, ofString_append,
        ofString_append, ih]
      simp [Cell.separated]

/-- Texts one after another are written one after another. -/
theorem Cell.ofString_join {α : Type} (write : α → String) (as : List α) :
    Cell.ofString (String.join (as.map write)) =
      as.flatMap fun a => Cell.ofString (write a) := by
  induction as with
  | nil => rfl
  | cons a rest ih => rw [List.map_cons, String.join_cons, ofString_append, ih, List.flatMap_cons]

/-- Equal statements have alike cells. -/
theorem Statement.alike_of_ofPieces_eq {ps qs : List Piece} (h : ofPieces ps = ofPieces qs) :
    Cell.Alike 0 (Piece.cells ps) (Piece.cells qs) := by
  have htext := congrArg (·.text) h
  have hparameters := congrArg (·.parameters) h
  refine ⟨?_, ?_⟩
  · rw [Piece.text_cells, Piece.text_cells]
    exact congrArg String.toList htext
  · rw [Piece.operands_cells 0, Piece.operands_cells 0]
    exact congrArg (List.map (·.2)) hparameters

end RoleQuery
