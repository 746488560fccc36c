import RoleQuery.Bytes.Base64
import RoleQuery.Proofs.Bytes.Utf8

/-!
# Bytes survive base64

The symbols of bytes are read back as the bytes, and no other text is. The argument goes
through the numbers below 64 that the symbols stand for: writing a byte splits it among them,
and reading joins them again.
-/
namespace RoleQuery.Base64

open Utf8 (ofNat_eq)

/-- The numbers of the symbols of bytes. -/
def sextets : List UInt8 → List Nat
  | [] => []
  | [a] => [a.toNat / 4, a.toNat % 4 * 16]
  | [a, b] => [a.toNat / 4, a.toNat % 4 * 16 + b.toNat / 16, b.toNat % 16 * 4]
  | a :: b :: c :: rest =>
    a.toNat / 4 :: (a.toNat % 4 * 16 + b.toNat / 16) :: (b.toNat % 16 * 4 + c.toNat / 64) ::
      c.toNat % 64 :: sextets rest

theorem symbols_eq (bytes : List UInt8) : symbols bytes = (sextets bytes).map symbol := by
  induction bytes using symbols.induct with
  | case1 => rfl
  | case2 a => rfl
  | case3 a b => rfl
  | case4 a b c rest ih => simp only [symbols, sextets, List.map_cons, ih]

theorem lt_of_mem_sextets (bytes : List UInt8) : ∀ n ∈ sextets bytes, n < 64 := by
  induction bytes using symbols.induct with
  | case1 => simp [sextets]
  | case2 a =>
    have ha := a.toNat_lt
    simp only [sextets, List.mem_cons, List.not_mem_nil, or_false]
    omega
  | case3 a b =>
    have ha := a.toNat_lt
    have hb := b.toNat_lt
    simp only [sextets, List.mem_cons, List.not_mem_nil, or_false]
    omega
  | case4 a b c rest ih =>
    have ha := a.toNat_lt
    have hb := b.toNat_lt
    have hc := c.toNat_lt
    simp only [sextets, List.mem_cons]
    rintro n (h | h | h | h | h)
    · omega
    · omega
    · omega
    · omega
    · exact ih n h

/-- No number of symbols is one more than a multiple of four. -/
theorem length_sextets (bytes : List UInt8) : (sextets bytes).length % 4 ≠ 1 := by
  induction bytes using symbols.induct with
  | case1 => simp [sextets]
  | case2 a => simp [sextets]
  | case3 a b => simp [sextets]
  | case4 a b c rest ih =>
    simp only [sextets, List.length_cons]
    omega

/-- Joining the numbers of the symbols gives the bytes back, with no bit left over. -/
theorem join_sextets (bytes : List UInt8) : join (sextets bytes) = (bytes, 0) := by
  induction bytes using symbols.induct with
  | case1 => rfl
  | case2 a =>
    have ha := a.toNat_lt
    rw [sextets, join, ofNat_eq (b := a) (by omega)]
    congr 1
    omega
  | case3 a b =>
    have ha := a.toNat_lt
    have hb := b.toNat_lt
    rw [sextets, join, ofNat_eq (b := a) (by omega), ofNat_eq (b := b) (by omega)]
    congr 1
    omega
  | case4 a b c rest ih =>
    have ha := a.toNat_lt
    have hb := b.toNat_lt
    have hc := c.toNat_lt
    rw [sextets, join, ih, ofNat_eq (b := a) (by omega), ofNat_eq (b := b) (by omega),
      ofNat_eq (b := c) (by omega)]

/-- A symbol is one byte, no padding, and stands for its number. -/
theorem symbol_spec : ∀ n < 64, (symbol n).toNat < 0x80 ∧ symbol n ≠ '=' ∧
    value? (UInt8.ofNat (symbol n).toNat) = some n := by
  decide

theorem encode_symbols {ns : List Nat} (h : ∀ n ∈ ns, n < 64) :
    Utf8.encode (String.ofList (ns.map symbol)) =
      ns.map fun n => UInt8.ofNat (symbol n).toNat := by
  rw [Utf8.encode, String.toList_ofList]
  induction ns with
  | nil => rfl
  | cons n rest ih =>
    have hn : Utf8.encodeChar (symbol n) = [UInt8.ofNat (symbol n).toNat] :=
      if_pos (symbol_spec n (h n List.mem_cons_self)).1
    rw [List.map_cons, List.flatMap_cons, ih fun m hm => h m (List.mem_cons_of_mem n hm), hn]
    rfl

theorem firstInvalid?_symbols {ns : List Nat} (h : ∀ n ∈ ns, n < 64) (offset : Nat) :
    firstInvalid? offset (ns.map fun n => UInt8.ofNat (symbol n).toNat) = none := by
  induction ns generalizing offset with
  | nil => rfl
  | cons n rest ih =>
    rw [List.map_cons, firstInvalid?, (symbol_spec n (h n List.mem_cons_self)).2.2]
    exact ih (fun m hm => h m (List.mem_cons_of_mem n hm)) (offset + 1)

theorem filterMap_value?_symbols {ns : List Nat} (h : ∀ n ∈ ns, n < 64) :
    (ns.map fun n => UInt8.ofNat (symbol n).toNat).filterMap value? = ns := by
  induction ns with
  | nil => rfl
  | cons n rest ih =>
    rw [List.map_cons, List.filterMap_cons, (symbol_spec n (h n List.mem_cons_self)).2.2]
    simp only
    rw [ih fun m hm => h m (List.mem_cons_of_mem n hm)]

/-- The text of bytes is read as the bytes. -/
theorem decode_encode (bytes : List UInt8) : decode (Utf8.encode (encode bytes)) = .ok bytes := by
  have hlt := lt_of_mem_sextets bytes
  have hlen := length_sextets bytes
  rw [encode, symbols_eq, encode_symbols hlt, decode]
  simp only [List.length_map, hlen, false_and, if_false, firstInvalid?_symbols hlt,
    filterMap_value?_symbols hlt, join_sextets, if_true]

/-- Nothing at the end of the text is padding. -/
theorem dropWhile_padding (bytes : List UInt8) :
    ((encode bytes).toList.reverse.dropWhile (· = '=')).reverse = (encode bytes).toList := by
  have h : ∀ c ∈ (encode bytes).toList.reverse, ¬(decide (c = '=') = true) := by
    intro c hc
    rw [encode, String.toList_ofList, List.mem_reverse, symbols_eq] at hc
    obtain ⟨n, hn, rfl⟩ := List.mem_map.1 hc
    rw [decide_eq_true_eq]
    exact (symbol_spec n (lt_of_mem_sextets bytes n hn)).2.1
  have hdrop : (encode bytes).toList.reverse.dropWhile (· = '=') =
      (encode bytes).toList.reverse := by
    cases hs : (encode bytes).toList.reverse with
    | nil => rfl
    | cons c rest =>
      rw [hs] at h
      exact List.dropWhile_cons_of_neg (h c List.mem_cons_self)
  rw [hdrop, List.reverse_reverse]

/-! ## No other text is read -/

/-- Numbers below 64 that leave no bit over are those of the symbols of
the bytes they join to. -/
theorem sextets_of_join {ns : List Nat} (hlt : ∀ n ∈ ns, n < 64) (hlength : ns.length % 4 ≠ 1)
    {bytes : List UInt8} (h : join ns = (bytes, 0)) : sextets bytes = ns := by
  induction ns using join.induct generalizing bytes with
  | case1 a b c d rest joined left hjoined ih =>
    simp only [List.forall_mem_cons] at hlt
    obtain ⟨ha, hb, hc, hd, hrest⟩ := hlt
    rw [join, hjoined] at h
    obtain ⟨rfl, rfl⟩ := Prod.mk.inj h
    simp only [List.length_cons, Nat.add_assoc] at hlength
    rw [sextets, ih hrest (by omega) hjoined]
    simp only [UInt8.toNat_ofNat', List.cons.injEq, and_true]
    omega
  | case2 a b c =>
    simp only [List.forall_mem_cons] at hlt
    rw [join] at h
    obtain ⟨rfl, hleft⟩ := Prod.mk.inj h
    simp only [sextets, UInt8.toNat_ofNat', List.cons.injEq, and_true]
    omega
  | case3 a b =>
    simp only [List.forall_mem_cons] at hlt
    rw [join] at h
    obtain ⟨rfl, hleft⟩ := Prod.mk.inj h
    simp only [sextets, UInt8.toNat_ofNat', List.cons.injEq, and_true]
    omega
  | case4 ns hfour hthree htwo =>
    match ns with
    | [] => cases h; rfl
    | [_] => exact absurd rfl hlength
    | [a, b] => exact absurd rfl (htwo a b)
    | [a, b, c] => exact absurd rfl (hthree a b c)
    | a :: b :: c :: d :: rest => exact absurd rfl (hfour a b c d rest)

/-- A byte that stands for a number is the symbol of that number. -/
theorem value?_spec : ∀ m < 256, ∀ n ∈ value? (UInt8.ofNat m),
    n < 64 ∧ UInt8.ofNat (symbol n).toNat = UInt8.ofNat m := by
  decide +kernel

theorem isSome_value?_of_firstInvalid? {text : List UInt8} {offset : Nat}
    (h : firstInvalid? offset text = none) : ∀ b ∈ text, (value? b).isSome := by
  induction text generalizing offset with
  | nil => simp
  | cons b rest ih =>
    rw [firstInvalid?] at h
    split at h
    · next hb =>
      rw [List.forall_mem_cons]
      exact ⟨hb, ih h⟩
    · cases h

/-- Bytes that all are symbols are the symbols of the numbers that they stand for. -/
theorem map_symbol_filterMap_value? {text : List UInt8} (h : ∀ b ∈ text, (value? b).isSome) :
    (∀ n ∈ text.filterMap value?, n < 64) ∧
      ((text.filterMap value?).map fun n => UInt8.ofNat (symbol n).toNat) = text := by
  induction text with
  | nil => simp
  | cons b rest ih =>
    rw [List.forall_mem_cons] at h
    obtain ⟨hb, hrest⟩ := h
    obtain ⟨n, hn⟩ := Option.isSome_iff_exists.1 hb
    obtain ⟨hlt, hmap⟩ := ih hrest
    have hspec := value?_spec b.toNat b.toNat_lt n (by rw [UInt8.ofNat_toNat]; exact hn)
    rw [UInt8.ofNat_toNat] at hspec
    rw [List.filterMap_cons, hn]
    simp only [List.forall_mem_cons, List.map_cons, hmap, hspec]
    exact ⟨⟨trivial, hlt⟩, trivial⟩

/-- A text that is read as bytes is theirs. -/
theorem encode_of_decode {text bytes : List UInt8} (h : decode text = .ok bytes) :
    Utf8.encode (encode bytes) = text := by
  have hvalid : firstInvalid? 0 text = none := by
    rw [decode] at h
    cases hinvalid : firstInvalid? 0 text with
    | none => rfl
    | some first => simp only [hinvalid] at h; split_ifs at h
  simp only [decode, hvalid] at h
  split_ifs at h with hlast hlength hleft
  cases h
  obtain ⟨hlt, hmap⟩ := map_symbol_filterMap_value? (isSome_value?_of_firstInvalid? hvalid)
  have hcount : (text.filterMap value?).length = text.length := by
    rw [← List.length_map, hmap]
  have hsextets := sextets_of_join hlt (by rw [hcount]; exact hlength) (Prod.ext rfl hleft)
  rw [encode, symbols_eq, hsextets, encode_symbols hlt, hmap]

end RoleQuery.Base64
