import RoleQuery.Bytes.Utf8
import RoleQuery.Proofs.Outcome
import Mathlib.Tactic.SplitIfs

/-!
# Texts survive UTF-8

The bytes of a text are read back as the text. A character takes one to four bytes, the first
of which tells how many; the bytes of the second are restricted exactly so that no shorter
form would do. So no other bytes are read as a text.
-/
namespace RoleQuery.Utf8

/-- A number below 256 is kept by its byte. -/
theorem toNat_byte {n : Nat} (h : n < 256) : (UInt8.ofNat n).toNat = n :=
  UInt8.toNat_ofNat_of_lt' h

/-- The code points of characters: surrogates are none. -/
theorem toNat_valid (c : Char) : c.toNat < 0xD800 ∨ 0xDFFF < c.toNat ∧ c.toNat < 0x110000 :=
  c.valid

theorem charOfNat_eq {c : Char} {n : Nat} (h : n = c.toNat) : Char.ofNat n = c := by
  rw [h, Char.ofNat_toNat]

variable {c : Char}

/-- A character below U+0080 is one byte. -/
theorem decodeAt_one (h : c.toNat < 0x80) (index : Nat) (rest : List UInt8) :
    decodeAt index (UInt8.ofNat c.toNat :: rest) = (decodeAt (index + 1) rest).map (c :: ·) := by
  have ha := toNat_byte (n := c.toNat) (by omega)
  rw [decodeAt.eq_def]
  simp only
  rw [ha, if_pos h, Char.ofNat_toNat]

/-- A character below U+0800 is two bytes. -/
theorem decodeAt_two (h₁ : 0x80 ≤ c.toNat) (h₂ : c.toNat < 0x800) (index : Nat)
    (rest : List UInt8) :
    decodeAt index
        (UInt8.ofNat (0xC0 + c.toNat / 64) :: UInt8.ofNat (0x80 + c.toNat % 64) :: rest) =
      (decodeAt (index + 2) rest).map (c :: ·) := by
  have ha := toNat_byte (n := 0xC0 + c.toNat / 64) (by omega)
  have hb := toNat_byte (n := 0x80 + c.toNat % 64) (by omega)
  have hcont : isContinuation (UInt8.ofNat (0x80 + c.toNat % 64)) = true := by
    rw [isContinuation, hb, decide_eq_true_eq]
    omega
  rw [decodeAt.eq_def]
  simp only
  rw [ha, if_neg (by omega), if_pos (by omega)]
  simp only [hcont, if_true, sextet, hb]
  rw [charOfNat_eq (c := c) (by omega)]

/-- A character below U+10000 is three bytes. -/
theorem decodeAt_three (h₁ : 0x800 ≤ c.toNat) (h₂ : c.toNat < 0x10000) (index : Nat)
    (rest : List UInt8) :
    decodeAt index
        (UInt8.ofNat (0xE0 + c.toNat / 4096) :: UInt8.ofNat (0x80 + c.toNat / 64 % 64) ::
          UInt8.ofNat (0x80 + c.toNat % 64) :: rest) =
      (decodeAt (index + 3) rest).map (c :: ·) := by
  have hvalid := toNat_valid c
  have ha := toNat_byte (n := 0xE0 + c.toNat / 4096) (by omega)
  have hb := toNat_byte (n := 0x80 + c.toNat / 64 % 64) (by omega)
  have hc := toNat_byte (n := 0x80 + c.toNat % 64) (by omega)
  have hsecond : secondOfThree (UInt8.ofNat (0xE0 + c.toNat / 4096))
      (UInt8.ofNat (0x80 + c.toNat / 64 % 64)) = true := by
    rw [secondOfThree, isContinuation, hb]
    simp only [← UInt8.toNat_inj, ha, UInt8.reduceToNat]
    split
    · simp only [decide_eq_true_eq]; omega
    · split <;> simp only [decide_eq_true_eq] <;> omega
  have hcont : isContinuation (UInt8.ofNat (0x80 + c.toNat % 64)) = true := by
    rw [isContinuation, hc, decide_eq_true_eq]
    omega
  rw [decodeAt.eq_def]
  simp only
  rw [ha, if_neg (by omega), if_neg (by omega), if_pos (by omega)]
  simp only [hsecond, hcont, if_true, sextet, hb, hc]
  rw [charOfNat_eq (c := c) (by omega)]

/-- Any other character is four bytes. -/
theorem decodeAt_four (h : 0x10000 ≤ c.toNat) (index : Nat) (rest : List UInt8) :
    decodeAt index
        (UInt8.ofNat (0xF0 + c.toNat / 262144) :: UInt8.ofNat (0x80 + c.toNat / 4096 % 64) ::
          UInt8.ofNat (0x80 + c.toNat / 64 % 64) :: UInt8.ofNat (0x80 + c.toNat % 64) :: rest) =
      (decodeAt (index + 4) rest).map (c :: ·) := by
  have hvalid := toNat_valid c
  have ha := toNat_byte (n := 0xF0 + c.toNat / 262144) (by omega)
  have hb := toNat_byte (n := 0x80 + c.toNat / 4096 % 64) (by omega)
  have hc := toNat_byte (n := 0x80 + c.toNat / 64 % 64) (by omega)
  have hd := toNat_byte (n := 0x80 + c.toNat % 64) (by omega)
  have hsecond : secondOfFour (UInt8.ofNat (0xF0 + c.toNat / 262144))
      (UInt8.ofNat (0x80 + c.toNat / 4096 % 64)) = true := by
    rw [secondOfFour, isContinuation, hb]
    simp only [← UInt8.toNat_inj, ha, UInt8.reduceToNat]
    split
    · simp only [decide_eq_true_eq]; omega
    · split <;> simp only [decide_eq_true_eq] <;> omega
  have hthird : isContinuation (UInt8.ofNat (0x80 + c.toNat / 64 % 64)) = true := by
    rw [isContinuation, hc, decide_eq_true_eq]
    omega
  have hfourth : isContinuation (UInt8.ofNat (0x80 + c.toNat % 64)) = true := by
    rw [isContinuation, hd, decide_eq_true_eq]
    omega
  rw [decodeAt.eq_def]
  simp only
  rw [ha, if_neg (by omega), if_neg (by omega), if_neg (by omega), if_pos (by omega)]
  simp only [hsecond, hthird, hfourth, if_true, sextet, hb, hc, hd]
  rw [charOfNat_eq (c := c) (by omega)]

/-- The bytes of a character are read as the character, and those that
follow are read after it. -/
theorem decodeAt_encodeChar (c : Char) (index : Nat) (rest : List UInt8) :
    decodeAt index (encodeChar c ++ rest) =
      (decodeAt (index + (encodeChar c).length) rest).map (c :: ·) := by
  by_cases h₁ : c.toNat < 0x80
  · have hbytes : encodeChar c = [UInt8.ofNat c.toNat] := if_pos h₁
    rw [hbytes]
    exact decodeAt_one h₁ index rest
  · by_cases h₂ : c.toNat < 0x800
    · have hbytes : encodeChar c =
          [UInt8.ofNat (0xC0 + c.toNat / 64), UInt8.ofNat (0x80 + c.toNat % 64)] :=
        (if_neg h₁).trans (if_pos h₂)
      rw [hbytes]
      exact decodeAt_two (by omega) h₂ index rest
    · by_cases h₃ : c.toNat < 0x10000
      · have hbytes : encodeChar c =
            [UInt8.ofNat (0xE0 + c.toNat / 4096), UInt8.ofNat (0x80 + c.toNat / 64 % 64),
              UInt8.ofNat (0x80 + c.toNat % 64)] :=
          (if_neg h₁).trans ((if_neg h₂).trans (if_pos h₃))
        rw [hbytes]
        exact decodeAt_three (by omega) h₃ index rest
      · have hbytes : encodeChar c =
            [UInt8.ofNat (0xF0 + c.toNat / 262144), UInt8.ofNat (0x80 + c.toNat / 4096 % 64),
              UInt8.ofNat (0x80 + c.toNat / 64 % 64), UInt8.ofNat (0x80 + c.toNat % 64)] :=
          (if_neg h₁).trans ((if_neg h₂).trans (if_neg h₃))
        rw [hbytes]
        exact decodeAt_four (by omega) index rest

/-- The bytes of a text are read as the text. -/
theorem decode_encode (s : String) : decode (encode s) = .ok s := by
  have h : ∀ (cs : List Char) (index : Nat), decodeAt index (cs.flatMap encodeChar) = .ok cs := by
    intro cs
    induction cs with
    | nil => exact fun _ => rfl
    | cons c rest ih =>
      intro index
      rw [List.flatMap_cons, decodeAt_encodeChar, ih]
      rfl
  rw [decode, encode, h]
  exact congrArg Except.ok String.ofList_toList

/-! ## No other bytes are a text -/

theorem toNat_charOfNat {n : Nat} (h : n < 0xD800 ∨ 0xDFFF < n ∧ n < 0x110000) :
    (Char.ofNat n).toNat = n := by
  have hvalid : n.isValidChar := h
  rw [Char.ofNat, dif_pos hvalid]
  rfl

theorem ofNat_eq {b : UInt8} {n : Nat} (h : n = b.toNat) : UInt8.ofNat n = b := by
  rw [h, UInt8.ofNat_toNat]

theorem sextet_zero (b : UInt8) : sextet b 0 = b.toNat % 64 := rfl

theorem sextet_one (b : UInt8) : sextet b 1 = b.toNat % 64 * 64 := Nat.shiftLeft_eq _ _

theorem sextet_two (b : UInt8) : sextet b 2 = b.toNat % 64 * 4096 := Nat.shiftLeft_eq _ _

section Bytes

variable {a b c d : UInt8}

/-- One byte that is read as a character is its byte. -/
theorem encodeChar_one (ha : a.toNat < 0x80) : encodeChar (Char.ofNat a.toNat) = [a] := by
  have hn := toNat_charOfNat (n := a.toNat) (by omega)
  rw [encodeChar, hn]
  simp only [ha, if_true, UInt8.ofNat_toNat]

/-- Two bytes that are read as a character are its bytes. -/
theorem encodeChar_two (ha : 0xC2 ≤ a.toNat ∧ a.toNat < 0xE0) (hb : isContinuation b) :
    encodeChar (Char.ofNat ((a.toNat - 0xC0) * 64 + sextet b 0)) = [a, b] := by
  simp only [isContinuation, decide_eq_true_eq] at hb
  rw [sextet_zero]
  have hn := toNat_charOfNat (n := (a.toNat - 0xC0) * 64 + b.toNat % 64) (by omega)
  rw [encodeChar, hn, if_neg (by omega), if_pos (by omega), ofNat_eq (b := a) (by omega),
    ofNat_eq (b := b) (by omega)]

/-- Three bytes that are read as a character are its bytes: the second keeps the number above
those of two bytes, and off the surrogates. -/
theorem encodeChar_three (ha : 0xE0 ≤ a.toNat ∧ a.toNat < 0xF0) (hb : secondOfThree a b)
    (hc : isContinuation c) :
    encodeChar (Char.ofNat ((a.toNat - 0xE0) * 4096 + sextet b 1 + sextet c 0)) = [a, b, c] := by
  have hsecond : (a.toNat = 0xE0 → 0xA0 ≤ b.toNat) ∧ (a.toNat = 0xED → b.toNat < 0xA0) ∧
      0x80 ≤ b.toNat ∧ b.toNat < 0xC0 := by
    simp only [secondOfThree, isContinuation, ← UInt8.toNat_inj, UInt8.reduceToNat] at hb
    split_ifs at hb <;> simp only [decide_eq_true_eq] at hb <;> omega
  simp only [isContinuation, decide_eq_true_eq] at hc
  rw [sextet_one, sextet_zero]
  have hn := toNat_charOfNat
    (n := (a.toNat - 0xE0) * 4096 + b.toNat % 64 * 64 + c.toNat % 64) (by omega)
  rw [encodeChar, hn, if_neg (by omega), if_neg (by omega), if_pos (by omega),
    ofNat_eq (b := a) (by omega), ofNat_eq (b := b) (by omega), ofNat_eq (b := c) (by omega)]

/-- Four bytes that are read as a character are its bytes: the second keeps the number above
those of three bytes, and below the end of the code points. -/
theorem encodeChar_four (ha : 0xF0 ≤ a.toNat ∧ a.toNat < 0xF5) (hb : secondOfFour a b)
    (hc : isContinuation c) (hd : isContinuation d) :
    encodeChar (Char.ofNat ((a.toNat - 0xF0) * 262144 + sextet b 2 + sextet c 1 + sextet d 0)) =
      [a, b, c, d] := by
  have hsecond : (a.toNat = 0xF0 → 0x90 ≤ b.toNat) ∧ (a.toNat = 0xF4 → b.toNat < 0x90) ∧
      0x80 ≤ b.toNat ∧ b.toNat < 0xC0 := by
    simp only [secondOfFour, isContinuation, ← UInt8.toNat_inj, UInt8.reduceToNat] at hb
    split_ifs at hb <;> simp only [decide_eq_true_eq] at hb <;> omega
  simp only [isContinuation, decide_eq_true_eq] at hc hd
  rw [sextet_two, sextet_one, sextet_zero]
  have hn := toNat_charOfNat
    (n := (a.toNat - 0xF0) * 262144 + b.toNat % 64 * 4096 + c.toNat % 64 * 64 + d.toNat % 64)
    (by omega)
  rw [encodeChar, hn, if_neg (by omega), if_neg (by omega), if_neg (by omega),
    ofNat_eq (b := a) (by omega), ofNat_eq (b := b) (by omega), ofNat_eq (b := c) (by omega),
    ofNat_eq (b := d) (by omega)]

end Bytes

/-- Characters are read only from their own bytes. -/
theorem flatMap_encodeChar_of_decodeAt {index : Nat} {bytes : List UInt8} {cs : List Char}
    (h : decodeAt index bytes = .ok cs) : cs.flatMap encodeChar = bytes := by
  fun_induction decodeAt index bytes generalizing cs with
  | case1 => cases h; rfl
  | case2 index a rest ha ih =>
    obtain ⟨others, hothers, rfl⟩ := Except.map_eq_ok_iff.1 h
    rw [List.flatMap_cons, encodeChar_one ha, ih hothers, List.singleton_append]
  | case4 index a _ ha b rest hb ih =>
    obtain ⟨others, hothers, rfl⟩ := Except.map_eq_ok_iff.1 h
    rw [List.flatMap_cons, encodeChar_two ha hb, ih hothers]
    rfl
  | case8 index a _ _ ha b hb c rest hc ih =>
    obtain ⟨others, hothers, rfl⟩ := Except.map_eq_ok_iff.1 h
    rw [List.flatMap_cons, encodeChar_three ha hb hc, ih hothers]
    rfl
  | case14 index a _ _ _ ha b hb c hc d rest hd ih =>
    obtain ⟨others, hothers, rfl⟩ := Except.map_eq_ok_iff.1 h
    rw [List.flatMap_cons, encodeChar_four ha hb hc hd, ih hothers]
    rfl
  | _ => cases h

/-- Bytes that are read as a text are its bytes. -/
theorem encode_of_decode {bytes : List UInt8} {s : String} (h : decode bytes = .ok s) :
    encode s = bytes := by
  obtain ⟨cs, hcs, rfl⟩ := Except.map_eq_ok_iff.1 h
  rw [encode, String.toList_ofList]
  exact flatMap_encodeChar_of_decodeAt hcs

/-- UTF-8 tells texts apart. -/
theorem encode_injective {s t : String} (h : encode s = encode t) : s = t := by
  have hs := decode_encode s
  rw [h, decode_encode] at hs
  exact (Except.ok.inj hs).symm

/-- A character takes at most four bytes. -/
theorem length_encode_le (s : String) : (encode s).length ≤ 4 * s.toList.length := by
  have hchar : ∀ c, (encodeChar c).length ≤ 4 := by
    intro c
    unfold encodeChar
    simp only
    split_ifs <;> simp
  rw [encode]
  induction s.toList with
  | nil => simp
  | cons c rest ih =>
    have hc := hchar c
    rw [List.flatMap_cons, List.length_append, List.length_cons]
    omega

end RoleQuery.Utf8
