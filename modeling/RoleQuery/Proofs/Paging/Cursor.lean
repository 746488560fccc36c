import RoleQuery.Paging.Cursor
import RoleQuery.Proofs.Bytes.Base64
import RoleQuery.Proofs.Bytes.Wire

/-!
# Cursors survive their text

A client hands back the text of a cursor, and it is read as the payload it was written from:
its bytes survive the binary form, and the text survives base64 without padding. Both forms
are read back exactly, so whatever else a client hands in is refused.
-/
namespace RoleQuery

/-- The lengths of the texts in a field can be written. -/
def CursorField.fits (f : CursorField) : Prop := Wire.fits f.field ∧ Wire.valueFits f.value

namespace CursorPayload

open Wire (Reads Exact)

/-- The lengths of the list and of the texts in a payload can be written. -/
def fits : CursorPayload → Prop
  | .keyset fields => fields.length < 2 ^ 64 ∧ ∀ f ∈ fields, f.fits
  | .continuation token => Wire.fits token

theorem reads_asc : Reads readDirection (Wire.littleEndian 4 0) .asc := by
  intro rest
  have hform := Wire.reads_form 0 2 (by omega) (by omega) rest
  rw [readDirection, hform]
  rfl

theorem reads_desc : Reads readDirection (Wire.littleEndian 4 1) .desc := by
  intro rest
  have hform := Wire.reads_form 1 2 (by omega) (by omega) rest
  rw [readDirection, hform]
  rfl

theorem reads_field {f : CursorField} (h : f.fits) : Reads readField (fieldBytes f) f := by
  intro rest
  obtain ⟨field, value, direction⟩ := f
  rw [readField, fieldBytes, List.append_assoc, List.append_assoc, Wire.reads_text h.1 _]
  cases direction with
  | asc => simp only [Wire.reads_value h.2 _, reads_asc rest, Except.map]
  | desc => simp only [Wire.reads_value h.2 _, reads_desc rest, Except.map]

/-- A payload is read as it was written. -/
theorem reads_bytes {p : CursorPayload} (h : p.fits) : Reads read p.bytes p := by
  intro rest
  cases p with
  | keyset fields =>
    have hform := Wire.reads_form 0 2 (by omega) (by omega)
      (Wire.list fieldBytes fields ++ rest)
    have hfields : ∀ f ∈ fields, Reads readField (fieldBytes f) f := fun f hf =>
      reads_field (h.2 f hf)
    have hlist := Wire.reads_list h.1 hfields rest
    rw [bytes, read, List.append_assoc, hform]
    simp only [hlist, Except.map]
  | continuation token =>
    have hform := Wire.reads_form 1 2 (by omega) (by omega)
      (Wire.text token ++ rest)
    rw [bytes, read, List.append_assoc, hform]
    simp only [Wire.reads_text h rest, Except.map]

/-- The text of a payload is read as the payload. -/
theorem decode_encode {p : CursorPayload} (h : p.fits) : decode p.encode = .ok p := by
  have hread := reads_bytes h []
  rw [List.append_nil] at hread
  rw [decode, encode, Base64.dropWhile_padding, String.ofList_toList, Base64.decode_encode]
  simp only [hread]

/-! ## Nothing else is decoded -/

def directionBytes : SortDirection → List UInt8
  | .asc => Wire.littleEndian 4 0
  | .desc => Wire.littleEndian 4 1

theorem exact_direction : Exact readDirection directionBytes fun _ => True := by
  intro bytes d rest h
  obtain ⟨⟨index, left⟩, hindex, heq⟩ := Except.map_eq_ok_iff.1 h
  have hlt : index < 2 := (Wire.exact_form 2 hindex).1
  cases heq
  rw [(Wire.exact_form 2 hindex).2]
  obtain rfl | rfl : index = 0 ∨ index = 1 := by omega
  · exact ⟨trivial, rfl⟩
  · exact ⟨trivial, rfl⟩

theorem exact_field : Exact readField fieldBytes CursorField.fits := by
  intro bytes f rest h
  rw [readField] at h
  split at h
  · cases h
  next field after hfield =>
  split at h
  · cases h
  next v after' hvalue =>
  obtain ⟨⟨direction, left⟩, hdirection, heq⟩ := Except.map_eq_ok_iff.1 h
  cases heq
  obtain ⟨hfits, rfl⟩ := Wire.exact_text hfield
  obtain ⟨hvalueFits, rfl⟩ := Wire.exact_value hvalue
  obtain ⟨-, rfl⟩ := exact_direction hdirection
  refine ⟨⟨hfits, hvalueFits⟩, ?_⟩
  simp only [fieldBytes, List.append_assoc]
  cases direction <;> rfl

/-- A payload is read only from its own bytes. -/
theorem exact_read : Exact read bytes fits := by
  intro input p rest h
  rw [read] at h
  split at h
  · cases h
  next after hform =>
    obtain ⟨⟨fields, left⟩, hfields, heq⟩ := Except.map_eq_ok_iff.1 h
    cases heq
    obtain ⟨hfits, rfl⟩ := Wire.exact_list exact_field hfields
    rw [(Wire.exact_form 2 hform).2, bytes, List.append_assoc]
    exact ⟨hfits, rfl⟩
  next index after hkeyset hform =>
    obtain ⟨⟨token, left⟩, htoken, heq⟩ := Except.map_eq_ok_iff.1 h
    cases heq
    obtain ⟨hfits, rfl⟩ := Wire.exact_text htoken
    have hindex : index < 2 := (Wire.exact_form 2 hform).1
    have hlast : index ≠ 0 := hkeyset
    obtain rfl : index = 1 := by omega
    rw [(Wire.exact_form 2 hform).2, bytes, List.append_assoc]
    exact ⟨hfits, rfl⟩

/-- A payload is read from exactly those bytes that begin with its own. -/
theorem exists_read_eq_ok_iff {input : List UInt8} {p : CursorPayload} :
    (∃ rest, read input = .ok (p, rest)) ↔ p.fits ∧ p.bytes <+: input := by
  constructor
  · rintro ⟨rest, h⟩
    obtain ⟨hfits, rfl⟩ := exact_read h
    exact ⟨hfits, List.prefix_append _ _⟩
  · rintro ⟨hfits, rest, rfl⟩
    exact ⟨rest, reads_bytes hfits rest⟩

/-- The bytes of a payload begin with those of no other. -/
theorem eq_of_bytes_prefix {p q : CursorPayload} (hp : p.fits) (hq : q.fits)
    (h : p.bytes <+: q.bytes) : p = q := by
  obtain ⟨rest, hread⟩ := exists_read_eq_ok_iff.2 ⟨hp, h⟩
  have hother := reads_bytes hq []
  rw [List.append_nil, hread] at hother
  exact congrArg Prod.fst (Except.ok.inj hother)

/-- A text without the padding at its end. -/
def withoutPadding (s : String) : String :=
  String.ofList (s.toList.reverse.dropWhile (· = '=')).reverse

/-- Padding: so many signs of equality. -/
def padding (n : Nat) : String := String.ofList (List.replicate n '=')

theorem withoutPadding_append (s : String) (n : Nat) :
    withoutPadding (s ++ padding n) = withoutPadding s := by
  have hdrop : (List.replicate n '=' ++ s.toList.reverse).dropWhile (· = '=') =
      s.toList.reverse.dropWhile (· = '=') := by
    induction n with
    | zero => rfl
    | succ n ih =>
        rw [List.replicate_succ, List.cons_append, List.dropWhile_cons_of_pos (by rfl), ih]
  rw [withoutPadding, padding, String.toList_append, String.toList_ofList, List.reverse_append,
    List.reverse_replicate, hdrop, withoutPadding]

theorem withoutPadding_encode (input : List UInt8) :
    withoutPadding (Base64.encode input) = Base64.encode input := by
  rw [withoutPadding, Base64.dropWhile_padding, String.ofList_toList]

/-- A cursor is decoded as a payload exactly if it is, without its padding, the text of bytes
that begin with those of the payload. -/
theorem decode_eq_ok_iff {cursor : String} {p : CursorPayload} :
    decode cursor = .ok p ↔
      p.fits ∧ ∃ input, p.bytes <+: input ∧ withoutPadding cursor = Base64.encode input := by
  constructor
  · intro h
    rw [decode] at h
    split at h
    · cases h
    next input hinput =>
    split at h
    · cases h
    next q rest hread =>
    cases h
    obtain ⟨hfits, hprefix⟩ := exists_read_eq_ok_iff.1 ⟨rest, hread⟩
    exact ⟨hfits, input, hprefix, (Utf8.encode_injective (Base64.encode_of_decode hinput)).symm⟩
  · rintro ⟨hfits, input, hprefix, hcursor⟩
    obtain ⟨rest, hread⟩ := exists_read_eq_ok_iff.2 ⟨hfits, hprefix⟩
    rw [withoutPadding] at hcursor
    simp only [decode, hcursor, Base64.decode_encode, hread]

/-- Padding may follow the text of a payload. -/
theorem decode_encode_padding {p : CursorPayload} (h : p.fits) (n : Nat) :
    decode (p.encode ++ padding n) = .ok p := by
  refine decode_eq_ok_iff.2 ⟨h, p.bytes, List.prefix_refl _, ?_⟩
  rw [withoutPadding_append, encode, withoutPadding_encode]

/-- What is no cursor is refused as one. -/
theorem decode_eq_ok_or_error (cursor : String) :
    (∃ p, decode cursor = .ok p) ∨ ∃ fault, decode cursor = .error (.cursor fault) := by
  rw [decode]
  split
  · exact .inr ⟨_, rfl⟩
  · split
    · exact .inr ⟨_, rfl⟩
    · exact .inl ⟨_, rfl⟩

/-- **Cursors say exactly what was written into them.** A payload is read from the bytes
that begin with its own and from no others, and the bytes of no payload begin with those of
another. A cursor is decoded as a payload if and only if it is, padding apart, the text of
such bytes; so the text of every payload is, with or without padding, and every other text
is refused as a cursor. -/
theorem decoded_iff_encoded :
    (∀ input p, (∃ rest, read input = .ok (p, rest)) ↔ p.fits ∧ p.bytes <+: input) ∧
    (∀ p q : CursorPayload, p.fits → q.fits → p.bytes <+: q.bytes → p = q) ∧
    (∀ cursor p, decode cursor = .ok p ↔
      p.fits ∧ ∃ input, p.bytes <+: input ∧ withoutPadding cursor = Base64.encode input) ∧
    (∀ p : CursorPayload, p.fits → ∀ n, decode (p.encode ++ padding n) = .ok p) ∧
    ∀ cursor, (∃ p, decode cursor = .ok p) ∨ ∃ fault, decode cursor = .error (.cursor fault) :=
  ⟨fun _ _ => exists_read_eq_ok_iff, fun _ _ => eq_of_bytes_prefix, fun _ _ => decode_eq_ok_iff,
    fun _ => decode_encode_padding, decode_eq_ok_or_error⟩

/-- The position of a book in an ordering by year. -/
def lastBook : CursorPayload :=
  .keyset [⟨"year", .integer 1999, .desc⟩, ⟨"id", .text "b-7", .asc⟩]

/-- The position of the book is read from its text with padding, and its bytes do not begin
with those of a token. -/
theorem decoded_iff_encoded_lastBook :
    lastBook.fits ∧ (continuation "b-7").fits ∧
      ¬(continuation "b-7").bytes <+: lastBook.bytes ∧
      decode (lastBook.encode ++ padding 2) = .ok lastBook := by
  have hbook : lastBook.fits := by
    simp only [lastBook, fits, CursorField.fits, Wire.valueFits, Wire.fits, List.forall_mem_cons,
      List.not_mem_nil, false_implies, implies_true, and_true]
    decide
  have htoken : (continuation "b-7").fits := by
    rw [fits, Wire.fits]
    decide
  obtain ⟨-, hprefix, -, hpadded, -⟩ := decoded_iff_encoded
  refine ⟨hbook, htoken, fun h => ?_, hpadded lastBook hbook 2⟩
  cases hprefix (continuation "b-7") lastBook htoken hbook h

end CursorPayload

end RoleQuery
