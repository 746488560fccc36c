import RoleQuery.Bytes.Wire
import RoleQuery.Proofs.Bytes.Utf8
import RoleQuery.Proofs.Outcome
import Mathlib.Algebra.Group.Nat.Defs

/-!
# Values survive their binary form

A reader takes off the front of the bytes what was written, and leaves what follows; and it
takes off nothing but what is written for some value. Lengths are written in eight bytes, so a
text must not be longer than they can tell.
-/
namespace RoleQuery.Wire

theorem ofLittleEndian_littleEndian {width n : Nat} (h : n < 256 ^ width) :
    ofLittleEndian (littleEndian width n) = n := by
  induction width generalizing n with
  | zero => simp_all [littleEndian, ofLittleEndian]
  | succ width ih =>
    have hdiv : n / 256 < 256 ^ width := by
      rw [Nat.pow_succ, Nat.mul_comm] at h
      exact Nat.div_lt_of_lt_mul h
    rw [littleEndian, ofLittleEndian, ih hdiv, UInt8.toNat_ofNat']
    omega

theorem readNat_littleEndian {width n : Nat} (h : n < 256 ^ width) (rest : List UInt8) :
    readNat width (littleEndian width n ++ rest) = .ok (n, rest) := by
  have hlen : (littleEndian width n).length = width := length_littleEndian width n
  rw [readNat, if_pos (by simp), List.take_left' hlen, List.drop_left' hlen,
    ofLittleEndian_littleEndian h]

variable {α : Type}

/-- The reader reads the bytes as the value, and leaves whatever follows them. -/
def Reads (read : Reader α) (bytes : List UInt8) (a : α) : Prop :=
  ∀ rest, read (bytes ++ rest) = .ok (a, rest)

/-- The length of the text in bytes can be written. -/
def fits (s : String) : Prop := (Utf8.encode s).length < 2 ^ 64

/-- The length of a text can be written if the value is one. -/
def valueFits : Value → Prop
  | .text s => fits s
  | _ => True

theorem reads_nat (width : Nat) {n : Nat} (h : n < 256 ^ width) :
    Reads (readNat width) (littleEndian width n) n :=
  readNat_littleEndian h

theorem reads_form (index limit : Nat) (hindex : index < limit) (hlimit : limit ≤ 2 ^ 32) :
    Reads (readForm limit) (littleEndian 4 index) index := by
  intro rest
  have hread := reads_nat 4 (n := index) (by omega) rest
  simp only [readForm, hread, hindex, if_true]

theorem reads_text {s : String} (h : fits s) : Reads readText (text s) s := by
  intro rest
  have hlen : (Utf8.encode s).length ≤ (Utf8.encode s ++ rest).length := by
    rw [List.length_append]
    omega
  have hread := reads_nat 8 h (Utf8.encode s ++ rest)
  rw [readText, text, List.append_assoc, hread]
  simp only [hlen, if_true, List.take_left', List.drop_left', Utf8.decode_encode]

theorem reads_truth (b : Bool) : Reads readTruth [if b then 1 else 0] b := by
  intro rest
  cases b <;> simp [readTruth, readNat, ofLittleEndian]

/-- A scalar is read as it was written. -/
theorem reads_value {v : Value} (h : valueFits v) : Reads readValue (value v) v := by
  intro rest
  cases v with
  | null =>
    have hform := reads_form 0 5 (by omega) (by omega) rest
    rw [value, readValue, hform]
    rfl
  | boolean b =>
    have hform := reads_form 1 5 (by omega) (by omega)
      ([if b then 1 else 0] ++ rest)
    rw [value, readValue, List.append_assoc, hform]
    simp only [reads_truth b rest, Except.map]
  | integer n =>
    have hform := reads_form 2 5 (by omega) (by omega)
      (littleEndian 8 n.toUInt64.toNat ++ rest)
    have hnat := reads_nat 8 (n := n.toUInt64.toNat) n.toUInt64.toNat_lt rest
    rw [value, readValue, List.append_assoc, hform]
    simp only [hnat, Except.map, UInt64.ofNat_toNat, Int64.toInt64_toUInt64]
  | float x =>
    have hform := reads_form 3 5 (by omega) (by omega)
      (littleEndian 8 x.bits.toNat ++ rest)
    have hnat := reads_nat 8 (n := x.bits.toNat) x.bits.toNat_lt rest
    rw [value, readValue, List.append_assoc, hform]
    simp only [hnat, Except.map, UInt64.ofNat_toNat]
  | text s =>
    have hform := reads_form 4 5 (by omega) (by omega) (text s ++ rest)
    rw [value, readValue, List.append_assoc, hform]
    simp only [reads_text h rest, Except.map]

/-- Items are read one after another. -/
theorem reads_items {read : Reader α} {item : α → List UInt8} {items : List α}
    (h : ∀ a ∈ items, Reads read (item a) a) :
    Reads (readItems read items.length) (items.flatMap item) items := by
  induction items with
  | nil => exact fun rest => rfl
  | cons a rest ih =>
    intro bytes
    have ha := h a List.mem_cons_self (rest.flatMap item ++ bytes)
    have hrest := ih (fun b hb => h b (List.mem_cons_of_mem a hb)) bytes
    rw [List.length_cons, readItems, List.flatMap_cons, List.append_assoc]
    simp only [ha, hrest, Except.map]

/-- A list is read as it was written, if its length can be. -/
theorem reads_list {read : Reader α} {item : α → List UInt8} {items : List α}
    (hlength : items.length < 2 ^ 64) (h : ∀ a ∈ items, Reads read (item a) a) :
    Reads (readList read) (list item items) items := by
  intro rest
  have hnat := reads_nat 8 hlength (items.flatMap item ++ rest)
  rw [readList, list, List.append_assoc, hnat]
  exact reads_items h rest

/-! ## Nothing else is read -/

/-- The reader takes off nothing but the bytes of a value that can be written. -/
def Exact (read : Reader α) (write : α → List UInt8) (writable : α → Prop) : Prop :=
  ∀ ⦃bytes a rest⦄, read bytes = .ok (a, rest) → writable a ∧ bytes = write a ++ rest

theorem ofLittleEndian_lt (bytes : List UInt8) : ofLittleEndian bytes < 256 ^ bytes.length := by
  induction bytes with
  | nil => simp [ofLittleEndian]
  | cons b rest ih =>
    have hb := b.toNat_lt
    rw [ofLittleEndian, List.length_cons, Nat.pow_succ]
    omega

theorem littleEndian_ofLittleEndian (bytes : List UInt8) :
    littleEndian bytes.length (ofLittleEndian bytes) = bytes := by
  induction bytes with
  | nil => rfl
  | cons b rest ih =>
    have hb := b.toNat_lt
    have hlow : (b.toNat + 256 * ofLittleEndian rest) % 256 = b.toNat := by omega
    have hhigh : (b.toNat + 256 * ofLittleEndian rest) / 256 = ofLittleEndian rest := by omega
    rw [List.length_cons, ofLittleEndian, littleEndian, hlow, hhigh, ih, UInt8.ofNat_toNat]

theorem exact_nat (width : Nat) :
    Exact (readNat width) (littleEndian width) (· < 256 ^ width) := by
  intro bytes n rest h
  rw [readNat] at h
  split_ifs at h with hwidth
  cases h
  have hlength : (bytes.take width).length = width := List.length_take_of_le hwidth
  have hlt := ofLittleEndian_lt (bytes.take width)
  have hwrite := littleEndian_ofLittleEndian (bytes.take width)
  rw [hlength] at hlt hwrite
  exact ⟨hlt, by rw [hwrite, List.take_append_drop]⟩

theorem exact_form (limit : Nat) : Exact (readForm limit) (littleEndian 4) (· < limit) := by
  intro bytes index rest h
  rw [readForm] at h
  split at h
  · cases h
  next found after hfound =>
  split_ifs at h with hlimit
  cases h
  exact ⟨hlimit, (exact_nat 4 hfound).2⟩

theorem exact_text : Exact readText text fits := by
  intro bytes s rest h
  rw [readText] at h
  split at h
  · cases h
  next length after hlength =>
  obtain ⟨hlt, rfl⟩ := exact_nat 8 hlength
  split_ifs at h with hle
  split at h
  · next found hfound =>
    cases h
    have hbytes := Utf8.encode_of_decode hfound
    have hcount : (Utf8.encode s).length = length := by rw [hbytes, List.length_take_of_le hle]
    refine ⟨by rw [fits, hcount]; exact hlt, ?_⟩
    rw [text, hcount, hbytes, List.append_assoc, List.take_append_drop]
  · cases h

theorem exact_truth : Exact readTruth (fun b => [if b then 1 else 0]) fun _ => True := by
  intro bytes b rest h
  rw [readTruth] at h
  split at h
  · cases h
  next byte after hbyte =>
  obtain ⟨-, rfl⟩ := exact_nat 1 hbyte
  split_ifs at h with hzero hone
  · cases h
    exact ⟨trivial, by rw [hzero]; rfl⟩
  · cases h
    exact ⟨trivial, by rw [hone]; rfl⟩

/-- A scalar is read only from its own bytes. -/
theorem exact_value : Exact readValue value valueFits := by
  intro bytes v rest h
  rw [readValue] at h
  split at h
  · cases h
  next after hform =>
    cases h
    exact ⟨trivial, (exact_form 5 hform).2⟩
  next after hform =>
    obtain ⟨⟨b, left⟩, hb, heq⟩ := Except.map_eq_ok_iff.1 h
    cases heq
    rw [(exact_form 5 hform).2, (exact_truth hb).2, value, List.append_assoc]
    exact ⟨trivial, rfl⟩
  next after hform =>
    obtain ⟨⟨n, left⟩, hn, heq⟩ := Except.map_eq_ok_iff.1 h
    cases heq
    obtain ⟨hlt, rfl⟩ := exact_nat 8 hn
    have hword : (UInt64.ofNat n).toNat = n := UInt64.toNat_ofNat_of_lt' hlt
    rw [(exact_form 5 hform).2, value, List.append_assoc, UInt64.toUInt64_toInt64, hword]
    exact ⟨trivial, rfl⟩
  next after hform =>
    obtain ⟨⟨n, left⟩, hn, heq⟩ := Except.map_eq_ok_iff.1 h
    cases heq
    obtain ⟨hlt, rfl⟩ := exact_nat 8 hn
    have hword : (UInt64.ofNat n).toNat = n := UInt64.toNat_ofNat_of_lt' hlt
    rw [(exact_form 5 hform).2, value, List.append_assoc, hword]
    exact ⟨trivial, rfl⟩
  next index after hnull hboolean hinteger hfloat hform =>
    obtain ⟨⟨s, left⟩, hs, heq⟩ := Except.map_eq_ok_iff.1 h
    cases heq
    obtain ⟨hfits, rfl⟩ := exact_text hs
    have hindex : index < 5 := (exact_form 5 hform).1
    have hlast : index ≠ 0 ∧ index ≠ 1 ∧ index ≠ 2 ∧ index ≠ 3 :=
      ⟨hnull, hboolean, hinteger, hfloat⟩
    obtain rfl : index = 4 := by omega
    rw [(exact_form 5 hform).2, value, List.append_assoc]
    exact ⟨hfits, rfl⟩

/-- Items are read only from their own bytes. -/
theorem exact_items {read : Reader α} {write : α → List UInt8} {writable : α → Prop}
    (h : Exact read write writable) (n : Nat) :
    Exact (readItems read n) (·.flatMap write)
      (fun items => items.length = n ∧ ∀ a ∈ items, writable a) := by
  induction n with
  | zero =>
    intro bytes items rest hitems
    cases hitems
    exact ⟨⟨rfl, by simp⟩, rfl⟩
  | succ n ih =>
    intro bytes items rest hitems
    rw [readItems] at hitems
    simp only at hitems
    split at hitems
    · cases hitems
    next a after ha =>
    obtain ⟨⟨others, left⟩, hothers, heq⟩ := Except.map_eq_ok_iff.1 hitems
    cases heq
    obtain ⟨hwritable, rfl⟩ := h ha
    obtain ⟨⟨hlength, hall⟩, rfl⟩ := ih hothers
    refine ⟨⟨by rw [List.length_cons, hlength], List.forall_mem_cons.2 ⟨hwritable, hall⟩⟩, ?_⟩
    simp only [List.flatMap_cons, List.append_assoc]

/-- A list is read only from its own bytes. -/
theorem exact_list {read : Reader α} {write : α → List UInt8} {writable : α → Prop}
    (h : Exact read write writable) :
    Exact (readList read) (list write)
      (fun items => items.length < 2 ^ 64 ∧ ∀ a ∈ items, writable a) := by
  intro bytes items rest hitems
  rw [readList] at hitems
  split at hitems
  · cases hitems
  next n after hn =>
  obtain ⟨hlt, rfl⟩ := exact_nat 8 hn
  obtain ⟨⟨rfl, hall⟩, rfl⟩ := exact_items h n hitems
  exact ⟨⟨hlt, hall⟩, by rw [list, List.append_assoc]⟩

end RoleQuery.Wire
