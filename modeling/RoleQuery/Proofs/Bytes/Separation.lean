import RoleQuery.Proofs.Bytes.Wire

/-!
# Written values do not run into each other

What is written of one value is neither what is written of another nor the beginning of it,
whatever follows. So values that are written one after another can be told from the bytes of
all of them. This rests on the lengths that precede texts, lists and parts, which eight bytes
can tell as long as there are fewer than `2 ^ 64` bytes in all.
-/
namespace RoleQuery.Wire

variable {α β : Type} {write : α → List UInt8}

/-- Written values can be told apart from their bytes and from what follows, in
fewer than `2 ^ 64` bytes. -/
def Separates (write : α → List UInt8) : Prop :=
  ∀ ⦃a b : α⦄ ⦃rest rest' : List UInt8⦄, (write a ++ rest).length < 2 ^ 64 →
    write a ++ rest = write b ++ rest' → a = b ∧ rest = rest'

theorem Separates.injective (h : Separates write) {a b : α} (hshort : (write a).length < 2 ^ 64)
    (heq : write a = write b) : a = b :=
  (h (by rwa [List.append_nil]) (congrArg (· ++ []) heq)).1

/-- Values that can be read back while they are short enough are separated. -/
theorem separates_of_reads {read : Reader α}
    (h : ∀ a, (write a).length < 2 ^ 64 → Reads read (write a) a) : Separates write := by
  intro a b rest rest' hshort heq
  have hshort' : (write b ++ rest').length < 2 ^ 64 := heq ▸ hshort
  rw [List.length_append] at hshort hshort'
  have ha := h a (by omega) rest
  have hb := h b (by omega) rest'
  rw [heq, hb] at ha
  cases ha
  exact ⟨rfl, rfl⟩

theorem separates_text : Separates text := by
  refine separates_of_reads fun s hs => reads_text ?_
  rw [text, List.length_append] at hs
  rw [fits]
  omega

theorem separates_value : Separates value := by
  refine separates_of_reads fun v hv => reads_value ?_
  cases v with
  | text s =>
    simp only [value, text, List.length_append] at hv
    rw [valueFits, fits]
    omega
  | _ => trivial

/-- Numbers of a fixed width are separated by their bytes. -/
theorem littleEndian_append_inj {width m n : Nat} {rest rest' : List UInt8} (hm : m < 256 ^ width)
    (hn : n < 256 ^ width) (h : littleEndian width m ++ rest = littleEndian width n ++ rest') :
    m = n ∧ rest = rest' := by
  have hlength : (littleEndian width m).length = (littleEndian width n).length := by
    rw [length_littleEndian, length_littleEndian]
  obtain ⟨hnumber, hrest⟩ := List.append_inj h hlength
  have hread := congrArg ofLittleEndian hnumber
  rw [ofLittleEndian_littleEndian hm, ofLittleEndian_littleEndian hn] at hread
  exact ⟨hread, hrest⟩

/-- Values stay separated if their bytes are preceded by the length. -/
theorem Separates.prefixed (h : Separates write) :
    Separates fun a => littleEndian 8 (write a).length ++ write a := by
  intro a b rest rest' hshort heq
  have hshort' := heq ▸ hshort
  simp only [List.length_append] at hshort hshort'
  simp only [List.append_assoc] at heq
  obtain ⟨hlength, hbytes⟩ := littleEndian_append_inj (by omega) (by omega) heq
  obtain ⟨hwrite, hrest⟩ := List.append_inj hbytes hlength
  exact ⟨h.injective (by omega) hwrite, hrest⟩

theorem Separates.prod {write' : β → List UInt8} (h : Separates write) (h' : Separates write') :
    Separates fun p : α × β => write p.1 ++ write' p.2 := by
  rintro ⟨a, b⟩ ⟨a', b'⟩ rest rest' hshort heq
  simp only [List.append_assoc] at hshort heq
  obtain ⟨rfl, hsecond⟩ := h hshort heq
  rw [List.length_append] at hshort
  obtain ⟨rfl, hrest⟩ := h' (by omega) hsecond
  exact ⟨rfl, hrest⟩

/-- Equally many items one after another are separated. -/
theorem Separates.flatMap (h : Separates write) {as bs : List α} {rest rest' : List UInt8}
    (hlength : as.length = bs.length) (hshort : (as.flatMap write ++ rest).length < 2 ^ 64)
    (heq : as.flatMap write ++ rest = bs.flatMap write ++ rest') : as = bs ∧ rest = rest' := by
  induction as generalizing bs with
  | nil =>
    obtain rfl := List.length_eq_zero_iff.1 hlength.symm
    exact ⟨rfl, heq⟩
  | cons a as ih =>
    cases bs with
    | nil => cases hlength
    | cons b bs =>
      simp only [List.flatMap_cons, List.append_assoc] at hshort heq
      obtain ⟨rfl, htail⟩ := h hshort heq
      rw [List.length_append] at hshort
      obtain ⟨rfl, hrest⟩ := ih (Nat.succ.inj hlength) (by omega) htail
      exact ⟨rfl, hrest⟩

/-- There are at least as many bytes as items if no item is written as nothing. -/
theorem length_le_length_flatMap (hne : ∀ a, write a ≠ []) (as : List α) :
    as.length ≤ (as.flatMap write).length := by
  induction as with
  | nil => exact Nat.zero_le _
  | cons a as ih =>
    have hpos := List.length_pos_iff.2 (hne a)
    rw [List.flatMap_cons, List.length_append, List.length_cons]
    omega

theorem Separates.list (h : Separates write) (hne : ∀ a, write a ≠ []) :
    Separates (Wire.list write) := by
  intro as bs rest rest' hshort heq
  have hshort' := heq ▸ hshort
  have has := length_le_length_flatMap hne as
  have hbs := length_le_length_flatMap hne bs
  simp only [Wire.list, List.length_append] at hshort hshort'
  simp only [Wire.list, List.append_assoc] at heq
  obtain ⟨hlength, hitems⟩ := littleEndian_append_inj (by omega) (by omega) heq
  exact h.flatMap hlength (by rw [List.length_append]; omega) hitems

theorem value_ne_nil (v : Value) : value v ≠ [] := by
  cases v <;> simp [value, littleEndian]

theorem text_ne_nil (s : String) : text s ≠ [] := by
  simp [text, littleEndian]

end RoleQuery.Wire
