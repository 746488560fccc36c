import RoleQuery.Binary64.Basic
import Mathlib.Algebra.Group.Nat.Defs
import Mathlib.Order.MinMax
import Mathlib.Tactic.SplitIfs

/-!
# Rounding keeps the order of integers

A larger integer never rounds to a smaller number. Within one exponent the rounded significand
grows with the integer; a larger exponent has a larger pattern, as a significand that is
rounded lies between `2 ^ 52` and `2 ^ 53`; and a larger pattern without sign has the larger
magnitude. Integers up to `2 ^ 53` are not rounded at all.
-/
namespace RoleQuery.Binary64

/-! ## Significands -/

section Significand

variable {a b den : Nat}

theorem div_le_roundHalfEven (a den : Nat) : a / den ≤ roundHalfEven a den := by
  unfold roundHalfEven
  simp only
  split
  · exact Nat.le_refl _
  · split
    · exact Nat.le_succ _
    · split
      · exact Nat.le_refl _
      · exact Nat.le_succ _

theorem roundHalfEven_le (a den : Nat) : roundHalfEven a den ≤ a / den + 1 := by
  unfold roundHalfEven
  simp only
  split
  · exact Nat.le_succ _
  · split
    · exact Nat.le_refl _
    · split
      · exact Nat.le_succ _
      · exact Nat.le_refl _

/-- What is a multiple is not rounded. -/
theorem roundHalfEven_mul (q : Nat) (h : 0 < den) : roundHalfEven (q * den) den = q := by
  unfold roundHalfEven
  simp only [Nat.mul_mod_left, Nat.mul_zero, h, if_true]
  exact Nat.mul_div_cancel q h

theorem roundHalfEven_mono (h : a ≤ b) : roundHalfEven a den ≤ roundHalfEven b den := by
  rcases Nat.lt_or_eq_of_le (Nat.div_le_div_right (c := den) h) with hlt | heq
  · calc roundHalfEven a den ≤ a / den + 1 := roundHalfEven_le a den
      _ ≤ b / den := hlt
      _ ≤ roundHalfEven b den := div_le_roundHalfEven b den
  · -- With one quotient the remainders are in the order of the numbers.
    have hmod : a % den ≤ b % den := by
      have ha := Nat.div_add_mod a den
      have hb := Nat.div_add_mod b den
      rw [heq] at ha
      omega
    unfold roundHalfEven
    simp only [heq]
    split_ifs <;> omega

end Significand

/-! ## Patterns -/

/-- The exponent, in units, that a magnitude is rounded at. -/
def exponentOf (whole : Nat) : Nat := Nat.log2 whole - 52

/-- The pattern that a magnitude is rounded to, before it is cut off at infinity. -/
def patternOf (whole : Nat) : Nat :=
  2 ^ 52 * exponentOf whole + roundHalfEven whole (2 ^ exponentOf whole)

theorem exponentOf_mono {a b : Nat} (h : a ≤ b) : exponentOf a ≤ exponentOf b := by
  have hlog : a.log2 ≤ b.log2 := by
    rcases Nat.eq_zero_or_pos a with rfl | ha
    · exact Nat.zero_le _
    · exact (Nat.le_log2 (by omega)).2 ((Nat.log2_self_le (by omega)).trans h)
  exact Nat.sub_le_sub_right hlog 52

/-- A rounded significand has fifty-three bits, or is the next power of two. -/
theorem roundHalfEven_exponentOf_le (whole : Nat) :
    roundHalfEven whole (2 ^ exponentOf whole) ≤ 2 ^ 53 := by
  have hlt : whole < 2 ^ 53 * 2 ^ exponentOf whole := by
    rw [← Nat.pow_add]
    refine Nat.lt_of_lt_of_le Nat.lt_log2_self (Nat.pow_le_pow_right (by decide) ?_)
    unfold exponentOf
    omega
  exact (roundHalfEven_le _ _).trans (Nat.div_lt_of_lt_mul (by rwa [Nat.mul_comm]))

/-- A rounded significand has fifty-three bits unless the exponent is the smallest. -/
theorem le_roundHalfEven_exponentOf {whole : Nat} (h : 0 < exponentOf whole) :
    2 ^ 52 ≤ roundHalfEven whole (2 ^ exponentOf whole) := by
  have hlog : whole.log2 = 52 + exponentOf whole := by
    unfold exponentOf at h ⊢
    omega
  have hwhole : whole ≠ 0 := by
    rintro rfl
    cases h
  have hle : 2 ^ 52 * 2 ^ exponentOf whole ≤ whole := by
    rw [← Nat.pow_add, ← hlog]
    exact Nat.log2_self_le hwhole
  exact ((Nat.le_div_iff_mul_le (Nat.two_pow_pos _)).2 hle).trans (div_le_roundHalfEven _ _)

/-- A larger magnitude has no smaller pattern: with one exponent by its significand, and with
a larger one because a significand carries into the exponent at most once. -/
theorem patternOf_mono {a b : Nat} (h : a ≤ b) : patternOf a ≤ patternOf b := by
  rcases Nat.lt_or_eq_of_le (exponentOf_mono h) with hlt | heq
  · have ha := roundHalfEven_exponentOf_le a
    have hb := le_roundHalfEven_exponentOf (Nat.lt_of_le_of_lt (Nat.zero_le _) hlt)
    unfold patternOf
    omega
  · unfold patternOf
    rw [heq]
    exact Nat.add_le_add_left (roundHalfEven_mono h) _

theorem ratioBits_one (n : Nat) :
    ratioBits n 1 = min (patternOf (n <<< 1074)) (2 ^ 52 * 2047) := by
  have hexponent : (if n <<< 1074 = 0 then 0 else Nat.log2 (n <<< 1074) - 52) =
      exponentOf (n <<< 1074) := by
    split
    · next hzero => rw [hzero]; rfl
    · rfl
  unfold ratioBits patternOf
  simp only [Nat.div_one]
  rw [hexponent, Nat.shiftLeft_eq (exponentOf _), Nat.shiftLeft_eq 2047,
    Nat.shiftLeft_eq 1, Nat.one_mul, Nat.mul_comm _ (2 ^ 52), Nat.mul_comm 2047]

/-- **The pattern of a rounded integer grows with the integer.** -/
theorem ratioBits_one_mono {a b : Nat} (h : a ≤ b) : ratioBits a 1 ≤ ratioBits b 1 := by
  have hshift : ∀ k, a <<< k ≤ b <<< k := by
    intro k
    rw [Nat.shiftLeft_eq, Nat.shiftLeft_eq]
    exact Nat.mul_le_mul_right _ h
  rw [ratioBits_one, ratioBits_one]
  exact min_le_min_right _ (patternOf_mono (hshift 1074))

theorem ratioBits_le (num : Nat) : ratioBits num 1 ≤ 2 ^ 52 * 2047 := by
  rw [ratioBits_one]
  exact Nat.min_le_right _ _

/-! ## Magnitudes -/

/-- The magnitude of the pattern with a given exponent and fraction. -/
def magnitudeOf (pattern : Nat) : Nat :=
  (if pattern / 2 ^ 52 = 0 then pattern % 2 ^ 52 else 2 ^ 52 + pattern % 2 ^ 52) *
    2 ^ (pattern / 2 ^ 52 - 1)

theorem magnitudeOf_mono {p q : Nat} (h : p ≤ q) : magnitudeOf p ≤ magnitudeOf q := by
  have hp : p % 2 ^ 52 < 2 ^ 52 := Nat.mod_lt _ (by decide)
  have hdiv : p / 2 ^ 52 ≤ q / 2 ^ 52 := Nat.div_le_div_right h
  unfold magnitudeOf
  rcases Nat.lt_or_eq_of_le hdiv with hlt | heq
  · -- The significand of the smaller exponent is below the hidden bit of the next.
    rw [if_neg (by omega : q / 2 ^ 52 ≠ 0)]
    refine Nat.le_trans ?_ (Nat.mul_le_mul_right _ (Nat.le_add_right (2 ^ 52) (q % 2 ^ 52)))
    split
    · next hzero =>
      rw [hzero, Nat.zero_sub, Nat.pow_zero, Nat.mul_one]
      exact (Nat.le_of_lt hp).trans (Nat.le_mul_of_pos_right _ (Nat.two_pow_pos _))
    · next hzero =>
      have hstep : 2 ^ (p / 2 ^ 52 - 1) * 2 ≤ 2 ^ (q / 2 ^ 52 - 1) := by
        rw [← Nat.pow_succ]
        exact Nat.pow_le_pow_right (by decide) (by omega)
      calc (2 ^ 52 + p % 2 ^ 52) * 2 ^ (p / 2 ^ 52 - 1)
          ≤ (2 ^ 52 * 2) * 2 ^ (p / 2 ^ 52 - 1) := Nat.mul_le_mul_right _ (by omega)
        _ = 2 ^ 52 * (2 ^ (p / 2 ^ 52 - 1) * 2) := by rw [Nat.mul_assoc, Nat.mul_comm 2]
        _ ≤ 2 ^ 52 * 2 ^ (q / 2 ^ 52 - 1) := Nat.mul_le_mul_left _ hstep
  · have hmod : p % 2 ^ 52 ≤ q % 2 ^ 52 := by omega
    rw [heq]
    refine Nat.mul_le_mul_right _ ?_
    split
    · exact hmod
    · exact Nat.add_le_add_left hmod _

section Sign

variable {pattern : Nat} (h : pattern ≤ 2 ^ 52 * 2047)
include h

theorem bits_withSign (negative : Bool) :
    (withSign negative pattern).bits.toNat = (if negative then 2 ^ 63 + pattern else pattern) := by
  unfold withSign
  rw [UInt64.toNat_ofNat', Nat.shiftLeft_eq, Nat.one_mul]
  refine Nat.mod_eq_of_lt ?_
  split <;> omega

theorem isNegative_withSign (negative : Bool) :
    (withSign negative pattern).isNegative = negative := by
  unfold isNegative
  rw [bits_withSign h, Nat.shiftLeft_eq, Nat.one_mul]
  cases negative with
  | false => rw [if_neg Bool.false_ne_true]; exact decide_eq_false (by omega)
  | true => rw [if_pos rfl]; exact decide_eq_true (Nat.le_add_right _ _)

theorem exponentField_withSign (negative : Bool) :
    (withSign negative pattern).exponentField = pattern / 2 ^ 52 := by
  unfold exponentField
  rw [bits_withSign h, Nat.shiftRight_eq_div_pow, Nat.shiftLeft_eq]
  split <;> omega

theorem fractionField_withSign (negative : Bool) :
    (withSign negative pattern).fractionField = pattern % 2 ^ 52 := by
  unfold fractionField
  rw [bits_withSign h, Nat.shiftLeft_eq]
  split <;> omega

theorem isNaN_withSign (negative : Bool) : (withSign negative pattern).isNaN = false := by
  unfold isNaN
  rw [exponentField_withSign h, fractionField_withSign h]
  by_cases hexponent : pattern / 2 ^ 52 = 2047
  · simp only [(by omega : pattern % 2 ^ 52 = 0), bne_self_eq_false, Bool.and_false]
  · simp only [beq_eq_false_iff_ne.2 hexponent, Bool.false_and]

theorem magnitude_withSign (negative : Bool) :
    (withSign negative pattern).magnitude = magnitudeOf pattern := by
  unfold magnitude significand scale magnitudeOf
  rw [exponentField_withSign h, fractionField_withSign h, Nat.shiftLeft_eq, Nat.shiftLeft_eq,
    Nat.one_mul]

theorem units_withSign (negative : Bool) :
    (withSign negative pattern).units =
      if negative then -(magnitudeOf pattern : Int) else magnitudeOf pattern := by
  unfold units
  rw [isNegative_withSign h, magnitude_withSign h]

end Sign

/-! ## Integers -/

theorem isNaN_ofInt (n : Int) : (ofInt n).isNaN = false :=
  isNaN_withSign (ratioBits_le _) _

theorem units_ofInt (n : Int) :
    (ofInt n).units =
      if n < 0 then -(magnitudeOf (ratioBits n.natAbs 1) : Int)
      else magnitudeOf (ratioBits n.natAbs 1) := by
  unfold ofInt ofRatio
  rw [units_withSign (ratioBits_le _)]
  simp only [decide_eq_true_eq]

/-- **Rounding keeps the order of integers**, though it may make two of them level. -/
theorem units_ofInt_mono {a b : Int} (h : a ≤ b) : (ofInt a).units ≤ (ofInt b).units := by
  have hmono : ∀ {m n : Nat}, m ≤ n → magnitudeOf (ratioBits m 1) ≤ magnitudeOf (ratioBits n 1) :=
    fun hmn => magnitudeOf_mono (ratioBits_one_mono hmn)
  rw [units_ofInt, units_ofInt]
  split
  · next ha =>
    split
    · next hb =>
      have hle := hmono (by omega : b.natAbs ≤ a.natAbs)
      omega
    · omega
  · next ha =>
    rw [if_neg (by omega)]
    have hle := hmono (by omega : a.natAbs ≤ b.natAbs)
    omega

/-- A magnitude that needs no rounding is that of its pattern. -/
theorem magnitudeOf_patternOf {whole q : Nat} (hq : whole = q * 2 ^ exponentOf whole) :
    magnitudeOf (patternOf whole) = whole := by
  have hround : roundHalfEven whole (2 ^ exponentOf whole) = q :=
    (congrArg (roundHalfEven · _) hq).trans (roundHalfEven_mul q (Nat.two_pow_pos _))
  have hle : q ≤ 2 ^ 53 := hround ▸ roundHalfEven_exponentOf_le whole
  have hge : 0 < exponentOf whole → 2 ^ 52 ≤ q := hround ▸ le_roundHalfEven_exponentOf
  unfold magnitudeOf patternOf
  rw [hround]
  generalize exponentOf whole = e at hq hge
  subst hq
  rcases Nat.lt_or_ge q (2 ^ 52) with hlt | hge
  · -- No hidden bit: the exponent is the smallest.
    obtain rfl : e = 0 := by omega
    simp only [Nat.mul_zero, Nat.zero_add, Nat.div_eq_of_lt hlt, if_true, Nat.mod_eq_of_lt hlt]
  · rcases Nat.lt_or_eq_of_le hle with hlt | rfl
    · have hdiv : (2 ^ 52 * e + q) / 2 ^ 52 = e + 1 := by omega
      have hmod : 2 ^ 52 + (2 ^ 52 * e + q) % 2 ^ 52 = q := by omega
      rw [hdiv, if_neg (Nat.succ_ne_zero e), hmod, Nat.add_sub_cancel]
    · -- The significand carried: half of it stands at the next exponent.
      have hdiv : (2 ^ 52 * e + 2 ^ 53) / 2 ^ 52 = e + 2 := by omega
      have hmod : (2 ^ 52 * e + 2 ^ 53) % 2 ^ 52 = 0 := by omega
      have hcarry : 2 ^ (e + 2 - 1) = 2 * 2 ^ e := by
        rw [Nat.add_sub_assoc (by decide), Nat.pow_succ, Nat.mul_comm]
      rw [hdiv, if_neg (Nat.succ_ne_zero _), hmod, Nat.add_zero, hcarry, ← Nat.mul_assoc,
        show 2 ^ 52 * 2 = 2 ^ 53 from rfl]

/-- A shifted number of at most fifty-three bits, or the next power of
two, needs no rounding. -/
theorem exists_significand {n : Nat} (h : n ≤ 2 ^ 53) (shift : Nat) :
    exponentOf (n <<< shift) ≤ shift + 1 ∧
      ∃ q, n <<< shift = q * 2 ^ exponentOf (n <<< shift) := by
  rw [Nat.shiftLeft_eq]
  rcases Nat.eq_zero_or_pos n with rfl | hpos
  · rw [Nat.zero_mul]
    exact ⟨Nat.zero_le _, 0, rfl⟩
  · have hlog : (n * 2 ^ shift).log2 = n.log2 + shift := by
      refine (Nat.log2_eq_iff (Nat.ne_of_gt (Nat.mul_pos hpos (Nat.two_pow_pos _)))).2 ⟨?_, ?_⟩
      · rw [Nat.pow_add]
        exact Nat.mul_le_mul_right _ (Nat.log2_self_le (Nat.ne_of_gt hpos))
      · rw [Nat.add_right_comm, Nat.pow_add]
        exact Nat.mul_lt_mul_of_pos_right Nat.lt_log2_self (Nat.two_pow_pos _)
    unfold exponentOf
    rw [hlog]
    rcases Nat.lt_or_eq_of_le h with hlt | rfl
    · have hbits : n.log2 ≤ 52 := Nat.le_of_lt_succ ((Nat.log2_lt (Nat.ne_of_gt hpos)).2 hlt)
      refine ⟨by omega, n * 2 ^ (shift - (n.log2 + shift - 52)), ?_⟩
      rw [Nat.mul_assoc, ← Nat.pow_add]
      congr 2
      omega
    · have hbits : (2 ^ 53).log2 = 53 := Nat.log2_two_pow
      rw [hbits]
      refine ⟨by omega, 2 ^ 52, ?_⟩
      rw [← Nat.pow_add, ← Nat.pow_add]
      congr 1
      omega

/-- **Integers up to `2 ^ 53` are not rounded.** -/
theorem units_ofInt_of_le {n : Int} (h : n.natAbs ≤ 2 ^ 53) :
    (ofInt n).units = n <<< (1074 : Nat) := by
  obtain ⟨hexponent, q, hq⟩ := exists_significand h 1074
  have hpattern : patternOf (n.natAbs <<< 1074) ≤ 2 ^ 52 * 2047 := by
    have hround := roundHalfEven_exponentOf_le (n.natAbs <<< 1074)
    unfold patternOf
    omega
  rw [units_ofInt, ratioBits_one, Nat.min_eq_left hpattern, magnitudeOf_patternOf hq]
  generalize 1074 = k
  rw [Nat.shiftLeft_eq, Int.shiftLeft_eq, Int.natCast_mul, Int.natCast_pow, Int.cast_ofNat_Int]
  split
  · next hneg => rw [Int.ofNat_natAbs_of_nonpos (by omega), Int.neg_mul, Int.neg_neg]
  · next hneg => rw [Int.natAbs_of_nonneg (by omega)]

/-- Integers up to `2 ^ 53` stay apart. -/
theorem units_ofInt_lt {a b : Int} (ha : a.natAbs ≤ 2 ^ 53) (hb : b.natAbs ≤ 2 ^ 53) (h : a < b) :
    (ofInt a).units < (ofInt b).units := by
  have hshift : ∀ k : Nat, a <<< k < b <<< k := by
    intro k
    rw [Int.shiftLeft_eq, Int.shiftLeft_eq]
    exact Int.mul_lt_mul_of_pos_right h (Int.pow_pos (by decide))
  rw [units_ofInt_of_le ha, units_ofInt_of_le hb]
  exact hshift 1074

end RoleQuery.Binary64
