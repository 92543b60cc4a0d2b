import Chiptune.Proofs.Dyadic
import Mathlib.Algebra.Order.Field.Basic
import Mathlib.Algebra.Order.Field.Power
import Mathlib.Tactic.FieldSimp
import Mathlib.Tactic.Linarith
import Mathlib.Tactic.Ring

/-!
# `Chiptune.Proofs.Rounding`: how far rounding goes in single precision

An operation finds the leading bits of its exact result, and of what it cuts off it remembers two
bits: the first, and whether there is anything behind it. `Single.Locates` says what the two bits
tell about the exact result. They tell it through every shift (`Locates.shiftRight`), and they are
enough to round to the nearest mantissa (`Locates.near`).

`Single.Nearest` is what comes of it: a full mantissa on the scale of its last place, off by half a
place at most.

* `toFloat32_near`, `dyadic_add_near`, `dyadic_div_near`: whole numbers, sums and quotients that
  need not come out even. Only positive numbers are looked at, and none so small or so large that
  the range of the exponent matters.
* `Nearest.le_whole`, `Nearest.whole_le`: rounding does not go past a whole number, since whole
  numbers of up to 24 bits are numbers themselves.
* `Nearest.exponent_lt`, `Nearest.lt_exponent`: the size of a number gives the scale of its last
  place.
* `value?_dyadic`, `dyadic_le_iff_value`: which number is stood for, and that numbers compare as
  what they stand for, also on different scales.
-/

set_option autoImplicit false

namespace Chiptune.Single

open Float.Model Float.Model.UnpackedFloat

/-! ### Cutting off and rounding -/

/-- Where a number is that a mantissa was cut off from: behind the mantissa come the round bit and
less than the place of the round bit, which the sticky bit tells from nothing. -/
def Locates (em : ExtendedMantissa) (x : ℚ) : Prop :=
  ∃ below : ℚ, 2 * x = 2 * em.mantissa + em.roundBit.toNat + below ∧ 0 ≤ below ∧ below < 1 ∧
    (em.stickyBit = true ↔ 0 < below)

section
variable {m n r k : Nat} {e g t : Int} {accuracy : Accuracy} {em : ExtendedMantissa} {v x : ℚ}

theorem mantissa_ofMantissaAndAccuracy (m : Nat) (accuracy : Accuracy) :
    (ExtendedMantissa.ofMantissaAndAccuracy m accuracy).mantissa = m := by
  cases accuracy with
  | exact => rfl
  | inexact order =>
    cases order
    all_goals rfl

theorem locates_exact (m : Nat) : Locates (.ofMantissaAndAccuracy m .exact) m :=
  ⟨0, by simp [ExtendedMantissa.ofMantissaAndAccuracy], by simp, by simp,
    by simp [ExtendedMantissa.ofMantissaAndAccuracy]⟩

/-- The remainder of a division says where the quotient is. -/
theorem locates_accuracyOfFraction (m : Nat) {rest den : Nat} (h : rest < den) :
    Locates (.ofMantissaAndAccuracy m (accuracyOfFraction rest den)) (m + rest / den) := by
  have hden : (0 : ℚ) < den := by exact_mod_cast Nat.zero_lt_of_lt h
  have hrest : (rest : ℚ) < den := by exact_mod_cast h
  by_cases hzero : rest = 0
  · subst hzero
    simpa [accuracyOfFraction] using locates_exact m
  have hpos : (0 : ℚ) < rest := by exact_mod_cast Nat.pos_of_ne_zero hzero
  have hpart : (0 : ℚ) < rest / den := div_pos hpos hden
  have hless : (rest : ℚ) / den < 1 := (div_lt_one hden).mpr hrest
  rw [accuracyOfFraction, if_neg hzero]
  -- Twice the remainder against the divisor tells the round bit, and whether anything is behind it.
  obtain hlow | hhalf | hhigh := Nat.lt_trichotomy (2 * rest) den
  · rw [Nat.compare_eq_lt.mpr hlow]
    have hbelow : 2 * ((rest : ℚ) / den) < 1 := by
      rw [← mul_div_assoc, div_lt_one hden]
      exact_mod_cast hlow
    refine ⟨2 * (rest / den), ?_, by linarith, hbelow, ?_⟩
    · simp [ExtendedMantissa.ofMantissaAndAccuracy]
      ring
    · simpa [ExtendedMantissa.ofMantissaAndAccuracy] using hpart
  · rw [Nat.compare_eq_eq.mpr hhalf]
    have heven : 2 * ((rest : ℚ) / den) = 1 := by
      rw [← mul_div_assoc, div_eq_one_iff_eq hden.ne']
      exact_mod_cast hhalf
    refine ⟨0, ?_, by simp, by simp, by simp [ExtendedMantissa.ofMantissaAndAccuracy]⟩
    simp only [ExtendedMantissa.ofMantissaAndAccuracy, Bool.toNat_true]
    push_cast
    linarith
  · rw [Nat.compare_eq_gt.mpr hhigh]
    have habove : 1 < 2 * ((rest : ℚ) / den) := by
      rw [← mul_div_assoc, one_lt_div hden]
      exact_mod_cast hhigh
    refine ⟨2 * (rest / den) - 1, ?_, by linarith, by linarith, ?_⟩
    · simp only [ExtendedMantissa.ofMantissaAndAccuracy, Bool.toNat_true]
      push_cast
      ring
    · simpa [ExtendedMantissa.ofMantissaAndAccuracy] using habove

/-- A shift by one bit halves the number, and it is still known where it is. -/
theorem Locates.shiftRightOne (h : Locates em x) : Locates em.shiftRightOne (x / 2) := by
  obtain ⟨below, hx, hnonneg, hless, hsticky⟩ := h
  have hsplit : (em.mantissa : ℚ) = 2 * (em.mantissa / 2 : Nat) + (em.mantissa % 2 : Nat) := by
    exact_mod_cast (Nat.div_add_mod em.mantissa 2).symm
  have hbit : ((em.mantissa % 2 != 0).toNat : ℚ) = (em.mantissa % 2 : Nat) := by
    obtain hzero | hone := Nat.mod_two_eq_zero_or_one em.mantissa
    · rw [hzero]
      rfl
    · rw [hone]
      rfl
  -- What comes behind the new round bit is the old round bit and what came behind it.
  refine ⟨(em.roundBit.toNat + below) / 2, ?_, by positivity, ?_, ?_⟩
  · show 2 * (x / 2) = 2 * ((em.mantissa / 2 : Nat) : ℚ) + ((em.mantissa % 2 != 0).toNat : ℚ) + _
    rw [hbit]
    linarith
  · cases em.roundBit
    all_goals
      simp
      linarith
  · show (em.roundBit || em.stickyBit) = true ↔ _
    cases em.roundBit
    · simpa using hsticky
    · simp
      linarith

theorem Locates.shiftRight (h : Locates em x) (n : Nat) :
    Locates (em >>> n) (x / 2 ^ n) ∧ (em >>> n).mantissa = em.mantissa / 2 ^ n := by
  induction n with
  | zero =>
    rw [pow_zero, div_one]
    exact ⟨h, (Nat.div_one em.mantissa).symm⟩
  | succ n ih =>
    obtain ⟨hlocates, hmantissa⟩ := ih
    have hshift : em >>> (n + 1) = (em >>> n).shiftRightOne := rfl
    rw [hshift, pow_succ, ← div_div]
    refine ⟨hlocates.shiftRightOne, ?_⟩
    show (em >>> n).mantissa / 2 = _
    rw [hmantissa, Nat.div_div_eq_div_mul, Nat.pow_succ]

/-- Rounding goes up or down, by no more than a half. -/
theorem Locates.near (h : Locates em x) :
    |(em.roundedMantissa : ℚ) - x| ≤ 1 / 2 ∧
      (em.roundedMantissa = em.mantissa ∨ em.roundedMantissa = em.mantissa + 1) := by
  obtain ⟨m, roundBit, stickyBit⟩ := em
  obtain ⟨below, hx, hnonneg, hless, hsticky⟩ := h
  have hbelow : stickyBit = false → below = 0 := by
    rintro rfl
    exact le_antisymm (by simpa using hsticky) hnonneg
  cases roundBit with
  | false =>
    have hrounded : ExtendedMantissa.roundedMantissa ⟨m, false, stickyBit⟩ = m := by
      cases stickyBit
      all_goals rfl
    rw [hrounded, abs_le]
    simp only [Bool.toNat_false] at hx
    push_cast at hx
    exact ⟨⟨by linarith, by linarith⟩, .inl rfl⟩
  | true =>
    simp only [Bool.toNat_true] at hx
    push_cast at hx
    cases stickyBit with
    | true =>
      have hrounded : ExtendedMantissa.roundedMantissa ⟨m, true, true⟩ = m + 1 := rfl
      rw [hrounded, abs_le]
      push_cast
      exact ⟨⟨by linarith, by linarith⟩, .inr rfl⟩
    | false =>
      -- A half goes to the even neighbour.
      have hrounded : ExtendedMantissa.roundedMantissa ⟨m, true, false⟩ = m + m % 2 := rfl
      rw [hbelow rfl] at hx
      rw [hrounded, abs_le]
      obtain hzero | hone := Nat.mod_two_eq_zero_or_one m
      · rw [hzero]
        push_cast
        exact ⟨⟨by linarith, by linarith⟩, .inl rfl⟩
      · rw [hone]
        push_cast
        exact ⟨⟨by linarith, by linarith⟩, .inr rfl⟩

/-! ### The nearest number -/

/-- The number `r * 2 ^ g` has a full mantissa, and is off from `v` by half of its last place at
most. -/
structure Nearest (v : ℚ) (g : Int) (r : Nat) : Prop where
  full : 2 ^ 23 ≤ r
  bits : r < 2 ^ 24
  near : |r * 2 ^ g - v| ≤ 2 ^ g / 2

theorem log2_of_full (hfull : 2 ^ 23 ≤ r) (hbits : r < 2 ^ 24) : r.log2 = 23 :=
  (Nat.log2_eq_iff (by omega)).mpr ⟨hfull, hbits⟩

theorem unpacked_of_full (hfull : 2 ^ 23 ≤ r) (hbits : r < 2 ^ 24) (hg : -126 ≤ g) :
    unpacked g r = .finite .positive r g (by omega) := by
  have hslack : slack r = 0 := by
    rw [slack, log2_of_full hfull hbits]
  rw [unpacked_of_pos (by omega) hbits hg, UnpackedFloat.finite.injEq]
  exact ⟨rfl, by rw [hslack, Nat.shiftLeft_zero], by rw [hslack]; simp⟩

/-- What is cut off and rounded is a full mantissa, or one past the last of them. -/
theorem roundWithAccuracy_of_shift (hshift : shiftToTargetExponent .binary32 m e accuracy = (em, t))
    (hrounded : em.roundedMantissa = r <<< n) (hfull : 2 ^ 23 ≤ r) (hbits : r < 2 ^ 24)
    (ht : -126 ≤ t) :
    roundWithAccuracy .binary32 .positive m e accuracy = unpacked (t + n) r := by
  have hagain := shiftToTargetExponent_eq (log2_of_full hfull hbits) (t := t + n) (by omega) n
  rw [Int.add_sub_cancel] at hagain
  unfold roundWithAccuracy
  rw [hshift]
  dsimp only
  rw [hrounded, hagain, unpacked_of_full hfull hbits (by omega)]
  exact dif_neg (Nat.ne_of_gt (by omega : 0 < r))

/-- A whole number that is off by a half at most, on a scale. -/
theorem near_scale (h : |(r : ℚ) - v / 2 ^ t| ≤ 1 / 2) : |r * 2 ^ t - v| ≤ 2 ^ t / 2 := by
  have hscale : (0 : ℚ) < 2 ^ t := by positivity
  have hdiff : r * 2 ^ t - v = (r - v / 2 ^ t) * 2 ^ t := by
    rw [sub_mul, div_mul_cancel₀ v hscale.ne']
  rw [hdiff, abs_mul, abs_of_pos hscale]
  linarith [mul_le_mul_of_nonneg_right h hscale.le]

theorem div_two_pow_full (hm : 23 ≤ m.log2) :
    2 ^ 23 ≤ m / 2 ^ (m.log2 - 23) ∧ m / 2 ^ (m.log2 - 23) < 2 ^ 24 := by
  have hne : m ≠ 0 := by
    rintro rfl
    contradiction
  have hpos : 0 < 2 ^ (m.log2 - 23) := Nat.two_pow_pos _
  rw [Nat.le_div_iff_mul_le hpos, Nat.div_lt_iff_lt_mul hpos, ← Nat.pow_add, ← Nat.pow_add]
  have hlow : 23 + (m.log2 - 23) = m.log2 := by omega
  have hhigh : 24 + (m.log2 - 23) = m.log2 + 1 := by omega
  rw [hlow, hhigh]
  exact ⟨Nat.log2_self_le hne, Nat.lt_log2_self⟩

theorem shiftToTargetExponent_of_long (accuracy : Accuracy) (hm : 23 ≤ m.log2) (he : -126 ≤ e) :
    shiftToTargetExponent .binary32 m e accuracy
      = (ExtendedMantissa.ofMantissaAndAccuracy m accuracy >>> (m.log2 - 23),
          e + (m.log2 - 23 : Nat)) := by
  have htarget : Format.binary32.targetExponent (totalExponent m e) = e + (m.log2 - 23 : Nat) := by
    have hbits : Format.binary32.mantissaBits = 24 := rfl
    have hmin : Format.binary32.minExponent = -149 := rfl
    unfold Format.targetExponent totalExponent
    omega
  have hshift : (e + (m.log2 - 23 : Nat) - e).toNat = m.log2 - 23 := by omega
  unfold shiftToTargetExponent shiftToExponent
  dsimp only
  rw [htarget, hshift]

/-- If there are enough bits, what is rounded is the nearest number to the exact one. -/
theorem roundWithAccuracy_near (hm : 23 ≤ m.log2) (he : -126 ≤ e)
    (hv : Locates (.ofMantissaAndAccuracy m accuracy) (v / 2 ^ e)) :
    ∃ g r, roundWithAccuracy .binary32 .positive m e accuracy = unpacked g r ∧
      Nearest v g r ∧ e ≤ g := by
  obtain ⟨hfull, hbits⟩ := div_two_pow_full hm
  have hshift := shiftToTargetExponent_of_long accuracy hm he
  obtain ⟨hlocates, hmantissa⟩ := hv.shiftRight (m.log2 - 23)
  have hscale : v / 2 ^ e / 2 ^ (m.log2 - 23) = v / 2 ^ (e + (m.log2 - 23 : Nat)) := by
    rw [div_div, zpow_add₀ two_ne_zero, zpow_natCast]
  rw [hscale] at hlocates
  rw [mantissa_ofMantissaAndAccuracy] at hmantissa
  obtain ⟨hnear, hrounded⟩ := hlocates.near
  rw [hmantissa] at hrounded
  generalize ExtendedMantissa.ofMantissaAndAccuracy m accuracy >>> (m.log2 - 23) = em at *
  have hnear := near_scale hnear
  obtain hwidth | hwidth : em.roundedMantissa < 2 ^ 24 ∨ em.roundedMantissa = 2 ^ 24 := by omega
  · have hround := roundWithAccuracy_of_shift (n := 0) hshift Nat.shiftLeft_zero.symm (by omega)
      hwidth (by omega)
    exact ⟨_, _, hround, ⟨by omega, hwidth, by simpa using hnear⟩, by omega⟩
  · -- The mantissa has become too long by a bit, and that is a zero.
    have hround := roundWithAccuracy_of_shift (n := 1) (r := 2 ^ 23) hshift hwidth (by decide)
      (by decide) (by omega)
    refine ⟨_, _, hround, ⟨by decide, by decide, ?_⟩, by omega⟩
    have hscale : (0 : ℚ) < 2 ^ (e + (m.log2 - 23 : Nat)) := by positivity
    have hsame : ((2 ^ 23 : Nat) : ℚ) * (2 ^ (e + (m.log2 - 23 : Nat)) * 2)
        = (em.roundedMantissa : ℚ) * 2 ^ (e + (m.log2 - 23 : Nat)) := by
      rw [hwidth]
      push_cast
      ring
    rw [Nat.cast_one, zpow_add_one₀ two_ne_zero, hsame]
    linarith

/-- A shorter mantissa is filled up with zeros. -/
theorem unpacked_full (hk : k < 2 ^ 24) (he : -126 ≤ e) :
    unpacked (e - slack k) (k <<< slack k) = unpacked e k := normalize_eq hk he (slack k)

/-- Bits that are put behind a mantissa are taken off the exponent. -/
theorem shiftLeft_scaled (m n : Nat) (e : Int) :
    ((m <<< n : Nat) : ℚ) * 2 ^ (e - n) = m * 2 ^ e := by
  rw [Nat.shiftLeft_eq, zpow_sub₀ two_ne_zero, zpow_natCast]
  push_cast
  field_simp

theorem full_of_slack (hpos : 0 < k) (hk : k < 2 ^ 24) :
    2 ^ 23 ≤ k <<< slack k ∧ k <<< slack k < 2 ^ 24 :=
  (Nat.log2_eq_iff (Nat.ne_of_gt (Nat.shiftLeft_pos_iff.mpr hpos))).mp
    (log2_shiftLeft_slack hpos hk)

theorem nearest_full (hpos : 0 < k) (hk : k < 2 ^ 24) :
    Nearest (k * 2 ^ e) (e - slack k) (k <<< slack k) := by
  obtain ⟨hfull, hbits⟩ := full_of_slack hpos hk
  refine ⟨hfull, hbits, ?_⟩
  rw [shiftLeft_scaled, sub_self, abs_zero]
  positivity

theorem round_near (hpos : 0 < m) (he : -103 ≤ e) :
    ∃ g r, round .binary32 .positive m e = unpacked g r ∧ Nearest (m * 2 ^ e) g r ∧
      e - 23 ≤ g := by
  by_cases hshort : m < 2 ^ 24
  · -- All bits are kept.
    have hround := normalize_of_pos hpos e
    have hslack : slack m = 23 - m.log2 := rfl
    refine ⟨_, _, ?_, nearest_full hpos hshort, by omega⟩
    rw [unpacked_full hshort (by omega), ← hround]
    rfl
  · have hlog : 24 ≤ m.log2 := (Nat.le_log2 (by omega)).mpr (by omega)
    have htarget : e ≤ Format.binary32.targetExponent (totalExponent m e) := by
      have hbits : Format.binary32.mantissaBits = 24 := rfl
      have hmin : Format.binary32.minExponent = -149 := rfl
      unfold Format.targetExponent totalExponent
      omega
    have hshift : (e - Format.binary32.targetExponent (totalExponent m e)).toNat = 0 := by omega
    have hlocates : Locates (.ofMantissaAndAccuracy m .exact) (m * 2 ^ e / 2 ^ e) := by
      rw [mul_div_cancel_right₀ _ (by positivity)]
      exact locates_exact m
    obtain ⟨g, r, hround, hnear, hg⟩ := roundWithAccuracy_near (by omega) (by omega) hlocates
    refine ⟨g, r, ?_, hnear, by omega⟩
    rw [← hround, UnpackedFloat.round, decreaseExponent]
    dsimp only
    rw [hshift, Nat.shiftLeft_zero, Int.natCast_zero, Int.sub_zero]

/-! ### Bounds that rounding keeps -/

/-- The last place of the nearest number is small if the number is. -/
theorem Nearest.exponent_lt (h : Nearest v g r) {bound : Int} (hv : v < 2 ^ bound) :
    g + 22 < bound := by
  have hfull : (2 ^ 23 : ℚ) ≤ r := by exact_mod_cast h.full
  have hscale : (0 : ℚ) < 2 ^ g := by positivity
  have hpow : (2 : ℚ) ^ (g + 22) < 2 ^ bound :=
    calc (2 : ℚ) ^ (g + 22) = 2 ^ 22 * 2 ^ g := by
          rw [zpow_add₀ two_ne_zero, mul_comm]
          rfl
      _ ≤ r * 2 ^ g - 2 ^ g / 2 := by nlinarith
      _ ≤ v := by linarith [(abs_le.mp h.near).2]
      _ < 2 ^ bound := hv
  exact (zpow_lt_zpow_iff_right₀ one_lt_two).mp hpow

/-- Nor is it too small. -/
theorem Nearest.lt_exponent (h : Nearest v g r) {bound : Int} (hv : 2 ^ bound ≤ v) :
    bound < g + 24 := by
  have hbits : (r : ℚ) + 1 ≤ 2 ^ 24 := by exact_mod_cast h.bits
  have hscale : (0 : ℚ) < 2 ^ g := by positivity
  have hpow : (2 : ℚ) ^ bound < 2 ^ (g + 24) :=
    calc (2 : ℚ) ^ bound ≤ v := hv
      _ ≤ r * 2 ^ g + 2 ^ g / 2 := by linarith [(abs_le.mp h.near).1]
      _ < 2 ^ 24 * 2 ^ g := by nlinarith
      _ = 2 ^ (g + 24) := by
          rw [zpow_add₀ two_ne_zero, mul_comm]
          rfl
  exact (zpow_lt_zpow_iff_right₀ one_lt_two).mp hpow

/-- A whole number on a finer scale. -/
theorem whole_scaled (bound n : Nat) : (bound : ℚ) = (bound * 2 ^ n : Nat) * 2 ^ (-(n : Int)) := by
  rw [zpow_neg, zpow_natCast]
  push_cast
  field_simp

/-- Whole numbers on a scale that are less than a place apart. -/
theorem scaled_le_of_lt {scale : ℚ} (hscale : 0 < scale) (h : m * scale < n * scale + scale) :
    m * scale ≤ n * scale := by
  have hless : (m : ℚ) < n + 1 := by
    rw [← add_one_mul] at h
    exact lt_of_mul_lt_mul_right h hscale.le
  have hwhole : m ≤ n := Nat.lt_succ_iff.mp (by exact_mod_cast hless)
  exact mul_le_mul_of_nonneg_right (by exact_mod_cast hwhole) hscale.le

/-- What is at most a whole number is not rounded beyond it. -/
theorem Nearest.le_whole (h : Nearest v g r) {bound : Nat} (hbound : bound ≤ 2 ^ 23)
    (hv : v ≤ bound) : (r : ℚ) * 2 ^ g ≤ bound := by
  have hcast : (bound : ℚ) ≤ 2 ^ 23 := by exact_mod_cast hbound
  have hnear := (abs_le.mp h.near).2
  have hlow : g < 2 := by
    have hsmall : v < 2 ^ (24 : Int) := lt_of_le_of_lt (hv.trans hcast) (by norm_num)
    have := h.exponent_lt hsmall
    omega
  obtain hfine | rfl : g ≤ 0 ∨ g = 1 := by omega
  · -- Both are whole on the scale of the last place, so half a place makes no difference.
    obtain ⟨n, rfl⟩ : ∃ n : Nat, g = -n := ⟨g.natAbs, by omega⟩
    have hscale : (0 : ℚ) < 2 ^ (-(n : Int)) := by positivity
    rw [whole_scaled bound n] at hv ⊢
    exact scaled_le_of_lt hscale (by linarith)
  · have hfull : (2 ^ 23 : ℚ) ≤ r := by exact_mod_cast h.full
    rw [zpow_one] at hnear ⊢
    linarith

/-- What is at least a whole number is not rounded below it. -/
theorem Nearest.whole_le (h : Nearest v g r) {bound : Nat} (hbound : bound ≤ 2 ^ 23)
    (hv : bound ≤ v) : (bound : ℚ) ≤ r * 2 ^ g := by
  have hnear := (abs_le.mp h.near).1
  obtain hfine | hcoarse := Int.le_total g 0
  · obtain ⟨n, rfl⟩ : ∃ n : Nat, g = -n := ⟨g.natAbs, by omega⟩
    have hscale : (0 : ℚ) < 2 ^ (-(n : Int)) := by positivity
    rw [whole_scaled bound n] at hv ⊢
    exact scaled_le_of_lt hscale (by linarith)
  · have hcast : (bound : ℚ) ≤ 2 ^ 23 := by exact_mod_cast hbound
    have hfull : (2 ^ 23 : ℚ) ≤ r := by exact_mod_cast h.full
    have hscale : (1 : ℚ) ≤ 2 ^ g := one_le_zpow₀ one_le_two hcoarse
    nlinarith

end

/-! ### Numbers and what they stand for -/

/-- The number that is stood for; none for what is infinite or not a number. -/
def value? (x : Float32) : Option ℚ :=
  match x.toModel.unpack with
  | .finite sign mantissa exponent _ => some (sign.apply mantissa * 2 ^ exponent)
  | .zero _ => some 0
  | .infinity _ | .notANumber => none

section
variable {a b k m n r : Nat} {e f g : Int} {v : ℚ}

theorem value?_dyadic (h : Fits e k) : value? (dyadic e k) = some ((k : ℚ) * 2 ^ e) := by
  rw [value?, h.unpack]
  rcases Nat.eq_zero_or_pos k with rfl | hpos
  · rw [unpacked_zero]
    simp
  · rw [unpacked_of_pos hpos h.bits h.low, ← shiftLeft_scaled k (slack k) e]
    rfl

/-- Full mantissas compare by their exponents first. -/
theorem scaled_lt_of_lt {t u : Int} (hm : m < 2 ^ 24) (hn : 2 ^ 23 ≤ n) (h : t < u) :
    (m : ℚ) * 2 ^ t < n * 2 ^ u := by
  have hscale : (0 : ℚ) < 2 ^ t := by positivity
  have hbits : (m : ℚ) < 2 ^ 24 := by exact_mod_cast hm
  have hfull : (2 ^ 23 : ℚ) ≤ n := by exact_mod_cast hn
  have hstep : (2 : ℚ) ^ t * 2 ≤ 2 ^ u := by
    rw [← zpow_add_one₀ two_ne_zero]
    exact zpow_le_zpow_right₀ one_le_two h
  calc (m : ℚ) * 2 ^ t < 2 ^ 24 * 2 ^ t := mul_lt_mul_of_pos_right hbits hscale
    _ = 2 ^ 23 * (2 ^ t * 2) := by ring
    _ ≤ n * 2 ^ u := mul_le_mul hfull hstep (by positivity) (by positivity)

theorem compare_full {t u : Int} (hm : 2 ^ 23 ≤ m ∧ m < 2 ^ 24) (hn : 2 ^ 23 ≤ n ∧ n < 2 ^ 24) :
    (compare t u).then (compare m n) = compare ((m : ℚ) * 2 ^ t) (n * 2 ^ u) := by
  -- A full mantissa on a finer scale is less than the least one on a coarser scale.
  obtain hless | rfl | hmore := lt_trichotomy t u
  · rw [Int.compare_eq_lt.mpr hless, compare_lt_iff_lt.mpr (scaled_lt_of_lt hm.2 hn.1 hless)]
    rfl
  · have hscale : (0 : ℚ) < 2 ^ t := by positivity
    rw [Int.compare_eq_eq.mpr rfl]
    show compare m n = _
    obtain hless | rfl | hmore := lt_trichotomy m n
    · rw [compare_lt_iff_lt.mpr hless, compare_lt_iff_lt.mpr]
      exact mul_lt_mul_of_pos_right (by exact_mod_cast hless) hscale
    · rw [compare_eq_iff_eq.mpr rfl, compare_eq_iff_eq.mpr rfl]
    · rw [compare_gt_iff_gt.mpr hmore, compare_gt_iff_gt.mpr]
      exact mul_lt_mul_of_pos_right (by exact_mod_cast hmore) hscale
  · rw [Int.compare_eq_gt.mpr hmore, compare_gt_iff_gt.mpr (scaled_lt_of_lt hn.2 hm.1 hmore)]
    rfl

theorem compare_dyadic (ha : Fits e a) (hb : Fits f b) :
    (dyadic e a).toModel.unpack.compare (dyadic f b).toModel.unpack
      = some (compare ((a : ℚ) * 2 ^ e) (b * 2 ^ f)) := by
  rw [ha.unpack, hb.unpack]
  rcases Nat.eq_zero_or_pos a with rfl | hapos
  · rcases Nat.eq_zero_or_pos b with rfl | hbpos
    · rw [unpacked_zero, unpacked_zero, Nat.cast_zero, zero_mul, zero_mul,
        compare_eq_iff_eq.mpr rfl]
      rfl
    · have hvalue : (0 : ℚ) < b * 2 ^ f := by positivity
      rw [unpacked_zero, unpacked_of_pos hbpos hb.bits hb.low, Nat.cast_zero, zero_mul,
        compare_lt_iff_lt.mpr hvalue]
      rfl
  · rcases Nat.eq_zero_or_pos b with rfl | hbpos
    · have hvalue : (0 : ℚ) < a * 2 ^ e := by positivity
      rw [unpacked_zero, unpacked_of_pos hapos ha.bits ha.low, Nat.cast_zero, zero_mul,
        compare_gt_iff_gt.mpr hvalue]
      rfl
    · rw [unpacked_of_pos hapos ha.bits ha.low, unpacked_of_pos hbpos hb.bits hb.low,
        ← shiftLeft_scaled a (slack a) e, ← shiftLeft_scaled b (slack b) f,
        ← compare_full (full_of_slack hapos ha.bits) (full_of_slack hbpos hb.bits)]
      rfl

/-- Numbers compare as what they stand for. -/
theorem dyadic_le_iff_value (ha : Fits e a) (hb : Fits f b) :
    dyadic e a ≤ dyadic f b ↔ (a : ℚ) * 2 ^ e ≤ b * 2 ^ f := by
  show decide ((dyadic e a).toModel ≤ (dyadic f b).toModel) = true ↔ _
  rw [decide_eq_true_iff]
  show UnpackedFloat.le (dyadic e a).toModel.unpack (dyadic f b).toModel.unpack = true ↔ _
  rw [UnpackedFloat.le, compare_dyadic ha hb]
  show (compare ((a : ℚ) * 2 ^ e) (b * 2 ^ f)).isLE = true ↔ _
  rw [← Ordering.ne_gt_iff_isLE]
  exact compare_le_iff_le

/-- A whole number is converted to the nearest number. -/
theorem toFloat32_near {n : UInt32} (hpos : 0 < n.toNat) :
    ∃ g r, n.toFloat32 = dyadic g r ∧ Nearest n.toNat g r ∧ -23 ≤ g := by
  obtain ⟨g, r, hround, hnear, hg⟩ := round_near (e := 0) hpos (by decide)
  rw [zpow_zero, mul_one] at hnear
  refine ⟨g, r, ?_, hnear, by omega⟩
  rw [toFloat32_eq, dyadic, unpacked, normalize_of_pos hpos, hround]
  rfl

theorem decreaseExponent_of_le {t : Int} (h : t ≤ e) (m : Nat) :
    ∃ k, decreaseExponent m e t = (k, t) ∧ (k : ℚ) * 2 ^ t = m * 2 ^ e ∧ m ≤ k := by
  have hexponent : e - ((e - t).toNat : Nat) = t := by omega
  have hscaled := shiftLeft_scaled m (e - t).toNat e
  rw [hexponent] at hscaled
  refine ⟨m <<< (e - t).toNat, ?_, hscaled, ?_⟩
  · rw [decreaseExponent, hexponent]
  · rw [Nat.shiftLeft_eq]
    exact Nat.le_mul_of_pos_right m (Nat.two_pow_pos _)

/-- A sum is rounded to the nearest number. -/
theorem dyadic_add_near (ha : Fits e a) (hb : Fits f b) (hapos : 0 < a) (hbpos : 0 < b)
    (he : -80 ≤ e) (hf : -80 ≤ f) :
    ∃ g r, dyadic e a + dyadic f b = dyadic g r ∧ Nearest ((a : ℚ) * 2 ^ e + b * 2 ^ f) g r := by
  have hslacka : slack a = 23 - a.log2 := rfl
  have hslackb : slack b = 23 - b.log2 := rfl
  let low := min (e - slack a) (f - slack b)
  obtain ⟨m, hm, hmvalue, hmle⟩ :=
    decreaseExponent_of_le (Int.min_le_left .. : low ≤ e - slack a) (a <<< slack a)
  obtain ⟨n, hn, hnvalue, -⟩ :=
    decreaseExponent_of_le (Int.min_le_right .. : low ≤ f - slack b) (b <<< slack b)
  -- The sum on the finer of the two scales is exact, and it is rounded once.
  have hpos : 0 < m + n :=
    Nat.add_pos_left (Nat.lt_of_lt_of_le (Nat.shiftLeft_pos_iff.mpr hapos) hmle) n
  obtain ⟨g, r, hround, hnear, -⟩ := round_near hpos (by omega : -103 ≤ low)
  refine ⟨g, r, ?_, ?_⟩
  · show Float32.ofModel (.pack (UnpackedFloat.add .binary32 (dyadic e a).toModel.unpack
      (dyadic f b).toModel.unpack)) = .ofModel (.pack (unpacked g r))
    rw [ha.unpack, hb.unpack]
    congr 2
    rw [← hround, ← normalize_of_pos hpos, unpacked_of_pos hapos ha.bits ha.low,
      unpacked_of_pos hbpos hb.bits hb.low]
    unfold UnpackedFloat.add
    dsimp only
    rw [hm, hn]
    dsimp only [Sign.apply]
    rw [← Int.natCast_add]
  · rw [← shiftLeft_scaled a (slack a) e, ← shiftLeft_scaled b (slack b) f, ← hmvalue, ← hnvalue,
      ← add_mul]
    exact_mod_cast hnear

theorem div_eq_add_rest (m : Nat) {n : Nat} (h : 0 < n) :
    (m : ℚ) / n = (m / n : Nat) + (m % n : Nat) / n := by
  have hn : (n : ℚ) ≠ 0 := by exact_mod_cast Nat.ne_of_gt h
  have hsplit : (m : ℚ) = n * (m / n : Nat) + (m % n : Nat) := by
    exact_mod_cast (Nat.div_add_mod m n).symm
  rw [div_eq_iff hn, add_mul, div_mul_cancel₀ _ hn]
  linarith

/-- The quotient of full mantissas has enough bits to be rounded. -/
theorem divCore_near {t u : Int} (hm : 2 ^ 23 ≤ m ∧ m < 2 ^ 24) (hn : 2 ^ 23 ≤ n ∧ n < 2 ^ 24)
    (hlow : -102 ≤ t - u) :
    ∃ g r, roundWithAccuracy .binary32 .positive (divCore .binary32 m t n u).1
        (divCore .binary32 m t n u).2.1 (divCore .binary32 m t n u).2.2 = unpacked g r ∧
      Nearest (m * (2 : ℚ) ^ t / (n * (2 : ℚ) ^ u)) g r := by
  have hnpos : 0 < n := by omega
  have hquotient : 2 ^ 23 ≤ m <<< 24 / n := by
    rw [Nat.le_div_iff_mul_le hnpos, Nat.shiftLeft_eq]
    omega
  have hlong : 23 ≤ (m <<< 24 / n).log2 := (Nat.le_log2 (by omega)).mpr hquotient
  have hvalue : m * (2 : ℚ) ^ t / (n * (2 : ℚ) ^ u) / (2 : ℚ) ^ (t - u - 24)
      = (m <<< 24 / n : Nat) + (m <<< 24 % n : Nat) / n := by
    have hn : (n : ℚ) ≠ 0 := by exact_mod_cast Nat.ne_of_gt hnpos
    rw [← div_eq_add_rest _ hnpos, Nat.shiftLeft_eq, zpow_sub₀ two_ne_zero, zpow_sub₀ two_ne_zero]
    push_cast
    field_simp
  have hlocates := locates_accuracyOfFraction (m <<< 24 / n) (Nat.mod_lt (m <<< 24) hnpos)
  rw [← hvalue] at hlocates
  obtain ⟨g, r, hround, hnear, -⟩ := roundWithAccuracy_near hlong (by omega) hlocates
  refine ⟨g, r, ?_, hnear⟩
  rw [divCore_eq (log2_of_full hm.1 hm.2) (log2_of_full hn.1 hn.2) (by omega)]
  dsimp only
  exact hround

/-- A quotient is rounded to the nearest number. -/
theorem dyadic_div_near (ha : Fits e a) (hb : Fits f b) (hapos : 0 < a) (hbpos : 0 < b)
    (hlow : -79 ≤ e - f) :
    ∃ g r, dyadic e a / dyadic f b = dyadic g r ∧
      Nearest (a * (2 : ℚ) ^ e / (b * (2 : ℚ) ^ f)) g r := by
  have hslacka : slack a = 23 - a.log2 := rfl
  have hslackb : slack b = 23 - b.log2 := rfl
  obtain ⟨g, r, hround, hnear⟩ :=
    divCore_near (t := e - slack a) (u := f - slack b) (full_of_slack hapos ha.bits)
      (full_of_slack hbpos hb.bits) (by omega)
  rw [shiftLeft_scaled, shiftLeft_scaled] at hnear
  refine ⟨g, r, ?_, hnear⟩
  show Float32.ofModel (.pack (UnpackedFloat.div .binary32 (dyadic e a).toModel.unpack
    (dyadic f b).toModel.unpack)) = .ofModel (.pack (unpacked g r))
  rw [ha.unpack, hb.unpack, ← hround, unpacked_of_pos hapos ha.bits ha.low,
    unpacked_of_pos hbpos hb.bits hb.low]
  rfl

end

end Chiptune.Single
