import Mathlib.Algebra.Group.Nat.Defs

/-!
# `Chiptune.Proofs.Dyadic`: single precision without rounding

`Single.dyadic e k` is the number `k * 2 ^ e` in single precision. If `k` has at most 24 bits and
`e` is in range (`Single.Fits`), all bits of `k` are kept, and what is computed with such numbers is
computed with their numerators:

* `dyadic_add`, `dyadic_sub`, `dyadic_lt_iff`: on one scale `e`, sums, differences and the order.
  No number here is negative, so a difference is one of a smaller number from a larger.
* `dyadic_mul`, `dyadic_div`: products and quotients that come out even, whose scale is the sum or
  the difference of the scales.
* `dyadic_double`: a number on the next finer scale.

The reason is one normal form. A number of up to 24 bits can be split into a mantissa and an
exponent in many ways. `round_eq` brings each of them to the one in which the mantissa is full,
since only zeros are shifted out (`shiftRight_shiftLeft`), and what has a full mantissa is packed
without loss (`unpack_pack`). So each operation is carried out on normal forms, its exact result is
split in some way, and `round_eq` says what becomes of it.
-/

set_option autoImplicit false

namespace Chiptune.Single

open Float.Model Float.Model.UnpackedFloat

section
variable {k m n : Nat} {e t : Int}

theorem log2_shiftLeft (h : 0 < k) (n : Nat) : (k <<< n).log2 = k.log2 + n := by
  induction n with
  | zero => rfl
  | succ n ih =>
    rw [Nat.shiftLeft_succ, Nat.log2_two_mul (Nat.ne_of_gt (Nat.shiftLeft_pos_iff.mpr h)), ih]
    rfl

/-- Zeros that are shifted out leave no trace. -/
theorem shiftRight_shiftLeft (m n : Nat) :
    ((⟨m <<< n, false, false⟩ : ExtendedMantissa) >>> n) = ⟨m, false, false⟩ := by
  have hpartly : ∀ d, n.repeat ExtendedMantissa.shiftRightOne ⟨m <<< (d + n), false, false⟩
      = ⟨m <<< d, false, false⟩ := by
    induction n with
    | zero => intro d; rfl
    | succ n ih =>
      intro d
      rw [Nat.repeat, ← Nat.add_assoc, Nat.add_right_comm, ih (d + 1), Nat.shiftLeft_succ]
      simp [ExtendedMantissa.shiftRightOne]
  have hall := hpartly 0
  rw [Nat.zero_add] at hall
  exact hall

/-- The exponent at which a number of `k.log2 + 1` bits fills the mantissa. -/
theorem targetExponent_eq (hk : k.log2 ≤ 23) (he : -126 ≤ e + k.log2) :
    Format.binary32.targetExponent (totalExponent k e) = e - (23 - k.log2 : Nat) := by
  have hbits : Format.binary32.mantissaBits = 24 := rfl
  have hmin : Format.binary32.minExponent = -149 := rfl
  unfold Format.targetExponent totalExponent
  omega

theorem shiftToTargetExponent_eq (hm : m.log2 = 23) (ht : -149 ≤ t) (n : Nat) :
    shiftToTargetExponent .binary32 (m <<< n) (t - n) .exact = (⟨m, false, false⟩, t) := by
  have hpos : 0 < m := by
    refine Nat.pos_of_ne_zero ?_
    rintro rfl
    contradiction
  have htarget : Format.binary32.targetExponent (totalExponent (m <<< n) (t - n)) = t := by
    have hbits : Format.binary32.mantissaBits = 24 := rfl
    have hmin : Format.binary32.minExponent = -149 := rfl
    unfold Format.targetExponent totalExponent
    rw [log2_shiftLeft hpos]
    omega
  have hshift : (t - (t - n)).toNat = n := by omega
  have hback : t - (n : Int) + n = t := by omega
  unfold shiftToTargetExponent shiftToExponent
  dsimp only
  rw [htarget, hshift, hback]
  exact congrArg (·, t) (shiftRight_shiftLeft m n)

/-- A mantissa of full width is taken as it is, and the zeros behind it are dropped. -/
theorem roundWithAccuracy_eq (s : Sign) (hm : m.log2 = 23) (ht : -149 ≤ t) (n : Nat)
    (hpos : 0 < m) :
    roundWithAccuracy .binary32 s (m <<< n) (t - n) .exact = .finite s m t hpos := by
  have hagain := shiftToTargetExponent_eq hm ht 0
  rw [Nat.shiftLeft_zero, Int.natCast_zero, Int.sub_zero] at hagain
  unfold roundWithAccuracy
  rw [shiftToTargetExponent_eq hm ht n]
  dsimp only
  rw [show ExtendedMantissa.roundedMantissa ⟨m, false, false⟩ = m from rfl, hagain]
  exact dif_neg (Nat.ne_of_gt hpos)

/-- Bits by which a number has to be shifted to fill the mantissa. -/
def slack (k : Nat) : Nat := 23 - k.log2

theorem log2_shiftLeft_slack (hpos : 0 < k) (hk : k < 2 ^ 24) : (k <<< slack k).log2 = 23 := by
  have hlog : k.log2 < 24 := (Nat.log2_lt (Nat.ne_of_gt hpos)).mpr hk
  rw [log2_shiftLeft hpos, slack]
  omega

/-- However a number of 24 bits is split into a mantissa and an exponent, rounding brings it into
the one form in which the mantissa is full. -/
theorem round_eq (s : Sign) (hpos : 0 < k) (hk : k < 2 ^ 24) (he : -126 ≤ e) (n : Nat) :
    round .binary32 s (k <<< n) (e - n)
      = .finite s (k <<< slack k) (e - slack k) (Nat.shiftLeft_pos_iff.mpr hpos) := by
  have hlog : k.log2 < 24 := (Nat.log2_lt (Nat.ne_of_gt hpos)).mpr hk
  have htotal : totalExponent (k <<< n) (e - n) = totalExponent k e := by
    unfold totalExponent
    rw [log2_shiftLeft hpos]
    omega
  have htarget : Format.binary32.targetExponent (totalExponent (k <<< n) (e - n))
      = e - slack k := by
    rw [htotal]
    exact targetExponent_eq (by omega) (by omega)
  have hslack : slack k = 23 - k.log2 := rfl
  have hshift : (e - n - (e - slack k)).toNat = slack k - n := by omega
  -- What the shift makes too long, rounding takes off again.
  have hmantissa : k <<< n <<< (slack k - n) = k <<< slack k <<< (n + (slack k - n) - slack k) := by
    rw [← Nat.shiftLeft_add, ← Nat.shiftLeft_add]
    congr 1
    omega
  have hexponent : e - n - (slack k - n : Nat)
      = e - slack k - (n + (slack k - n) - slack k : Nat) := by omega
  unfold UnpackedFloat.round decreaseExponent
  dsimp only
  rw [htarget, hshift, hmantissa, hexponent]
  exact roundWithAccuracy_eq s (log2_shiftLeft_slack hpos hk) (by omega) _ _

/-- The number `k * 2 ^ e` before it is packed. -/
def unpacked (e : Int) (k : Nat) : UnpackedFloat := normalize .binary32 k e .positive

theorem unpacked_zero (e : Int) : unpacked e 0 = .zero .positive := rfl

theorem normalize_of_pos (hpos : 0 < k) (e : Int) :
    normalize .binary32 (k : Int) e .positive = round .binary32 .positive k e := by
  unfold UnpackedFloat.normalize
  rw [Int.compare_eq_gt.mpr (by omega), Int.toNat_natCast]

theorem unpacked_of_pos (hpos : 0 < k) (hk : k < 2 ^ 24) (he : -126 ≤ e) :
    unpacked e k
      = .finite .positive (k <<< slack k) (e - slack k) (Nat.shiftLeft_pos_iff.mpr hpos) := by
  have hround := round_eq .positive hpos hk he 0
  rw [Nat.shiftLeft_zero, Int.natCast_zero, Int.sub_zero] at hround
  rw [unpacked, normalize_of_pos hpos, hround]

theorem normalize_eq (hk : k < 2 ^ 24) (he : -126 ≤ e) (n : Nat) :
    normalize .binary32 ((k <<< n : Nat) : Int) (e - n) .positive = unpacked e k := by
  rcases Nat.eq_zero_or_pos k with rfl | hpos
  · rw [Nat.zero_shiftLeft]
    rfl
  · rw [normalize_of_pos (Nat.shiftLeft_pos_iff.mpr hpos), round_eq .positive hpos hk he n,
      unpacked_of_pos hpos hk he]

/-! ### Packing -/

/-- A full mantissa gets its leading bit back. -/
theorem implicit_append (hm : m.log2 = 23) : (1#1 ++ BitVec.ofNat 23 m).toNat = m := by
  have hne : m ≠ 0 := by
    rintro rfl
    contradiction
  obtain ⟨hlow, hhigh⟩ := (Nat.log2_eq_iff hne).mp hm
  rw [BitVec.toNat_append, ← Nat.shiftLeft_add_eq_or_of_lt (BitVec.isLt _), BitVec.toNat_ofNat,
    Nat.shiftLeft_eq]
  show 1 * 2 ^ 23 + m % 2 ^ 23 = m
  omega

/-- The sign stands in front of all that is packed. -/
theorem sign_packComponents (s : Sign) (exponent : BitVec 8) (mantissa : BitVec 23) :
    unpackSign (packComponents .binary32 s exponent mantissa) = s.toBitVec := by
  -- The law for every format comes with the whole library only.
  show (s.toBitVec ++ exponent ++ mantissa).extractLsb' 31 1 = s.toBitVec
  rw [BitVec.extractLsb'_append_eq_of_le (by decide),
    BitVec.extractLsb'_append_eq_of_le (by decide)]
  exact BitVec.extractLsb'_eq_self

/-- A number with a full mantissa and an exponent in range is packed without loss. -/
theorem unpack_pack_finite (hm : m.log2 = 23) (hlow : -149 ≤ t) (hhigh : t ≤ 104) (hpos : 0 < m) :
    unpack .binary32 (pack .binary32 (.finite .positive m t hpos))
      = .finite .positive m t hpos := by
  have hbias : t + (Format.binary32.exponentBias : Nat) + (23 : Nat) = t + 150 := by
    rw [show Format.binary32.exponentBias = 127 from rfl]
    omega
  have hpack : pack .binary32 (.finite .positive m t hpos)
      = packComponents .binary32 .positive (BitVec.ofNat 8 (t + 150).toNat)
          (BitVec.ofNat 23 m) := by
    unfold UnpackedFloat.pack
    dsimp only
    rw [hbias, if_neg (by omega), if_pos (by rw [hm]; rfl)]
  have hbiased : (BitVec.ofNat 8 (t + 150).toNat).toNat = (t + 150).toNat := by
    rw [BitVec.toNat_ofNat]
    omega
  have hnormal : BitVec.ofNat 8 (t + 150).toNat ≠ 0#8 := by
    intro hzero
    rw [hzero] at hbiased
    change 0 = _ at hbiased
    omega
  have hfinite : BitVec.ofNat 8 (t + 150).toNat ≠ -1#8 := by
    intro hones
    rw [hones] at hbiased
    change 255 = _ at hbiased
    omega
  rw [hpack]
  unfold UnpackedFloat.unpack
  dsimp only
  rw [unpackExponent_packComponents, if_neg hfinite, if_neg hnormal, UnpackedFloat.finite.injEq,
    sign_packComponents, unpackMantissa_packComponents]
  refine ⟨rfl, implicit_append hm, ?_⟩
  rw [hbiased]
  show ((t + 150).toNat : Int) - (127 + 23) = t
  omega

/-- What is computed with `k * 2 ^ e` is computed with what was packed. -/
theorem unpack_pack (hk : k < 2 ^ 24) (hlow : -126 ≤ e) (hhigh : e ≤ 104) :
    (Float32.Model.pack (unpacked e k)).unpack = unpacked e k := by
  show UnpackedFloat.unpack .binary32 (UnpackedFloat.pack .binary32 (unpacked e k)) = _
  rcases Nat.eq_zero_or_pos k with rfl | hpos
  · rw [unpacked_zero]
    rfl
  · have hslack : slack k = 23 - k.log2 := rfl
    rw [unpacked_of_pos hpos hk hlow]
    exact unpack_pack_finite (log2_shiftLeft_slack hpos hk) (by omega) (by omega) _

end

/-! ### Numbers -/

/-- The number `k * 2 ^ e`. -/
def dyadic (e : Int) (k : Nat) : Float32 := .ofModel (.pack (unpacked e k))

/-- The range in which `k * 2 ^ e` is a number of single precision with all bits of `k`. -/
structure Fits (e : Int) (k : Nat) : Prop where
  bits : k < 2 ^ 24
  low : -126 ≤ e
  high : e ≤ 104

section
variable {e f : Int} {a b k : Nat}

theorem Fits.unpack (h : Fits e k) : (dyadic e k).toModel.unpack = unpacked e k :=
  unpack_pack h.bits h.low h.high

theorem Fits.of_le (h : Fits e b) (hab : a ≤ b) : Fits e a :=
  ⟨Nat.lt_of_le_of_lt hab h.bits, h.low, h.high⟩

/-- A whole number is its own mantissa. -/
theorem toFloat32_eq (n : UInt32) : n.toFloat32 = dyadic 0 n.toNat := rfl

/-- The same number on a finer scale. -/
theorem dyadic_double (h : Fits e k) (hfiner : f = e - 1) : dyadic f (2 * k) = dyadic e k := by
  have hfine : unpacked (e - 1) (k <<< 1) = unpacked e k := normalize_eq h.bits h.low 1
  rw [Nat.shiftLeft_eq, Nat.mul_comm, ← hfiner] at hfine
  exact congrArg (fun u => Float32.ofModel (.pack u)) hfine

/-- Two numbers are brought to the scale of the finer one. -/
theorem decreaseExponent_eq (k : Nat) (e : Int) {m n : Nat} (h : m ≤ n) :
    decreaseExponent (k <<< m) (e - m) (e - n) = (k <<< n, e - n) := by
  have hshift : (e - m - (e - n)).toNat = n - m := by omega
  have hexponent : e - m - (n - m : Nat) = e - n := by omega
  unfold decreaseExponent
  dsimp only
  rw [hshift, hexponent, ← Nat.shiftLeft_add, Nat.add_sub_cancel' h]

theorem min_exponent (e : Int) (m n : Nat) : min (e - m) (e - n) = e - (max m n : Nat) := by
  omega

theorem dyadic_add (h : Fits e (a + b)) : dyadic e a + dyadic e b = dyadic e (a + b) := by
  have ha : Fits e a := h.of_le (Nat.le_add_right a b)
  have hb : Fits e b := h.of_le (Nat.le_add_left b a)
  show Float32.ofModel (.pack (UnpackedFloat.add .binary32 (dyadic e a).toModel.unpack
    (dyadic e b).toModel.unpack)) = .ofModel (.pack (unpacked e (a + b)))
  rw [ha.unpack, hb.unpack]
  congr 2
  rcases Nat.eq_zero_or_pos a with rfl | hapos
  · rcases Nat.eq_zero_or_pos b with rfl | hbpos
    · rfl
    · rw [unpacked_zero, Nat.zero_add, unpacked_of_pos hbpos hb.bits hb.low]
      rfl
  · rcases Nat.eq_zero_or_pos b with rfl | hbpos
    · rw [unpacked_zero, Nat.add_zero, unpacked_of_pos hapos ha.bits ha.low]
      rfl
    · rw [← normalize_eq h.bits h.low (max (slack a) (slack b)),
        unpacked_of_pos hapos ha.bits ha.low, unpacked_of_pos hbpos hb.bits hb.low]
      unfold UnpackedFloat.add
      dsimp only
      rw [min_exponent, decreaseExponent_eq a e (Nat.le_max_left ..),
        decreaseExponent_eq b e (Nat.le_max_right ..)]
      dsimp only [Sign.apply]
      rw [← Int.natCast_add, Nat.shiftLeft_eq, Nat.shiftLeft_eq, Nat.shiftLeft_eq, ← Nat.add_mul]

theorem dyadic_sub (h : Fits e a) (hba : b ≤ a) : dyadic e a - dyadic e b = dyadic e (a - b) := by
  have hb : Fits e b := h.of_le hba
  have hdiff : Fits e (a - b) := h.of_le (Nat.sub_le a b)
  show Float32.ofModel (.pack (UnpackedFloat.sub .binary32 (dyadic e a).toModel.unpack
    (dyadic e b).toModel.unpack)) = .ofModel (.pack (unpacked e (a - b)))
  rw [h.unpack, hb.unpack]
  congr 2
  rcases Nat.eq_zero_or_pos b with rfl | hbpos
  · rcases Nat.eq_zero_or_pos a with rfl | hapos
    · rfl
    · rw [unpacked_zero, Nat.sub_zero, unpacked_of_pos hapos h.bits h.low]
      rfl
  · have hapos : 0 < a := Nat.lt_of_lt_of_le hbpos hba
    rw [← normalize_eq hdiff.bits h.low (max (slack a) (slack b)),
      unpacked_of_pos hapos h.bits h.low, unpacked_of_pos hbpos hb.bits hb.low]
    unfold UnpackedFloat.sub
    dsimp only
    rw [min_exponent, decreaseExponent_eq a e (Nat.le_max_left ..),
      decreaseExponent_eq b e (Nat.le_max_right ..)]
    dsimp only [Sign.apply]
    rw [Nat.shiftLeft_eq, Nat.shiftLeft_eq, Nat.shiftLeft_eq, Nat.sub_mul,
      Int.natCast_sub (Nat.mul_le_mul_right _ hba)]

theorem log2_mul_le (ha : 0 < a) (hb : 0 < b) :
    a.log2 + b.log2 ≤ (a * b).log2 ∧ (a * b).log2 ≤ a.log2 + b.log2 + 1 := by
  have halow := Nat.log2_self_le (Nat.ne_of_gt ha)
  have hblow := Nat.log2_self_le (Nat.ne_of_gt hb)
  have hahigh := @Nat.lt_log2_self a
  have hbhigh := @Nat.lt_log2_self b
  have hne : a * b ≠ 0 := Nat.ne_of_gt (Nat.mul_pos ha hb)
  refine ⟨?_, ?_⟩
  · rw [Nat.le_log2 hne, Nat.pow_add]
    exact Nat.mul_le_mul halow hblow
  · refine Nat.le_of_lt_succ ((Nat.log2_lt hne).mpr ?_)
    rw [show (a.log2 + b.log2 + 1).succ = a.log2 + 1 + (b.log2 + 1) by omega, Nat.pow_add]
    exact Nat.mul_lt_mul'' hahigh hbhigh

theorem roundWithAccuracy_of_pos (hk : 0 < k) (hfits : Fits e k) {n : Nat} (hn : slack k ≤ n) :
    roundWithAccuracy .binary32 .positive (k <<< n) (e - n) .exact = unpacked e k := by
  have hslack : slack k = 23 - k.log2 := rfl
  have hlow := hfits.low
  have hmantissa : k <<< n = k <<< slack k <<< (n - slack k) := by
    rw [← Nat.shiftLeft_add, Nat.add_sub_cancel' hn]
  have hexponent : e - n = e - slack k - (n - slack k : Nat) := by omega
  rw [unpacked_of_pos hk hfits.bits hfits.low, hmantissa, hexponent]
  exact roundWithAccuracy_eq .positive (log2_shiftLeft_slack hk hfits.bits) (by omega) _ _

theorem dyadic_mul (ha : Fits e a) (hb : Fits f b) (h : Fits (e + f) (a * b)) :
    dyadic e a * dyadic f b = dyadic (e + f) (a * b) := by
  show Float32.ofModel (.pack (UnpackedFloat.mul .binary32 (dyadic e a).toModel.unpack
    (dyadic f b).toModel.unpack)) = .ofModel (.pack (unpacked (e + f) (a * b)))
  rw [ha.unpack, hb.unpack]
  congr 2
  rcases Nat.eq_zero_or_pos a with rfl | hapos
  · rw [Nat.zero_mul]
    rcases Nat.eq_zero_or_pos b with rfl | hbpos
    · rfl
    · rw [unpacked_of_pos hbpos hb.bits hb.low]
      rfl
  · rcases Nat.eq_zero_or_pos b with rfl | hbpos
    · rw [unpacked_of_pos hapos ha.bits ha.low]
      rfl
    · have hlog := (log2_mul_le hapos hbpos).1
      have hslack : slack (a * b) ≤ slack a + slack b := by
        unfold slack
        omega
      have hmantissa : a <<< slack a * b <<< slack b = (a * b) <<< (slack a + slack b) := by
        simp only [Nat.shiftLeft_eq, Nat.pow_add, Nat.mul_mul_mul_comm]
      have hexponent : e - slack a + (f - slack b) = e + f - (slack a + slack b : Nat) := by omega
      rw [← roundWithAccuracy_of_pos (Nat.mul_pos hapos hbpos) h hslack,
        unpacked_of_pos hapos ha.bits ha.low, unpacked_of_pos hbpos hb.bits hb.low]
      unfold UnpackedFloat.mul
      dsimp only
      rw [hmantissa, hexponent]
      rfl

/-- The quotient of two numbers with full mantissas is computed to 24 bits behind the difference of
their exponents. -/
theorem divCore_eq {m n : Nat} {t u : Int} (hm : m.log2 = 23) (hn : n.log2 = 23)
    (hlow : -125 ≤ t - u) :
    divCore .binary32 m t n u
      = (m <<< 24 / n, t - u - 24, accuracyOfFraction (m <<< 24 % n) n) := by
  have htarget : Format.binary32.targetExponent (totalExponent m t - totalExponent n u)
      = t - u - 24 := by
    have hbits : Format.binary32.mantissaBits = 24 := rfl
    have hmin : Format.binary32.minExponent = -149 := rfl
    unfold Format.targetExponent totalExponent
    omega
  have hleast : min (t - u) (t - u - 24) = t - u - 24 := by omega
  have hshift : (t - u - (t - u - 24)).toNat = 24 := by omega
  unfold divCore
  dsimp only
  rw [htarget, hleast, hshift]

/-- A quotient that comes out even. -/
theorem dyadic_div (hb : Fits f b) (hbpos : 0 < b) (hab : Fits e (a * b)) (h : Fits (e - f) a)
    (hlow : -102 ≤ e - f) : dyadic e (a * b) / dyadic f b = dyadic (e - f) a := by
  show Float32.ofModel (.pack (UnpackedFloat.div .binary32 (dyadic e (a * b)).toModel.unpack
    (dyadic f b).toModel.unpack)) = .ofModel (.pack (unpacked (e - f) a))
  rw [hab.unpack, hb.unpack]
  congr 2
  rcases Nat.eq_zero_or_pos a with rfl | hapos
  · rw [Nat.zero_mul, unpacked_of_pos hbpos hb.bits hb.low]
    rfl
  · have hlog := (log2_mul_le hapos hbpos).2
    have habpos : 0 < a * b := Nat.mul_pos hapos hbpos
    have hlogab : (a * b).log2 < 24 := (Nat.log2_lt (Nat.ne_of_gt habpos)).mpr hab.bits
    have hlogb : b.log2 < 24 := (Nat.log2_lt (Nat.ne_of_gt hbpos)).mpr hb.bits
    have hslacka : slack a = 23 - a.log2 := rfl
    have hslackb : slack b = 23 - b.log2 := rfl
    have hslackab : slack (a * b) = 23 - (a * b).log2 := rfl
    -- The divisor is taken out of the dividend whole, and nothing is left.
    have hproduct : (a * b) <<< slack (a * b) <<< 24
        = a <<< (slack (a * b) + 24 - slack b) * b <<< slack b := by
      have hsum : slack (a * b) + 24 = slack (a * b) + 24 - slack b + slack b := by omega
      rw [← Nat.shiftLeft_add, hsum]
      simp only [Nat.shiftLeft_eq, Nat.pow_add, Nat.mul_mul_mul_comm, Nat.add_sub_cancel]
    have hbfull : 0 < b <<< slack b := Nat.shiftLeft_pos_iff.mpr hbpos
    have hexponent : e - slack (a * b) - (f - slack b) - 24
        = e - f - (slack (a * b) + 24 - slack b : Nat) := by omega
    rw [← roundWithAccuracy_of_pos hapos h (n := slack (a * b) + 24 - slack b) (by omega),
      unpacked_of_pos habpos hab.bits hab.low, unpacked_of_pos hbpos hb.bits hb.low]
    unfold UnpackedFloat.div
    dsimp only
    rw [divCore_eq (log2_shiftLeft_slack habpos hab.bits) (log2_shiftLeft_slack hbpos hb.bits)
      (by omega), hproduct, hexponent, Nat.mul_div_cancel _ hbfull, Nat.mul_mod_left]
    rfl

theorem lt_of_log2_lt (hb : 0 < b) (h : a.log2 < b.log2) : a < b :=
  calc a < 2 ^ (a.log2 + 1) := Nat.lt_log2_self
    _ ≤ 2 ^ b.log2 := Nat.pow_le_pow_right (by omega) h
    _ ≤ b := Nat.log2_self_le (Nat.ne_of_gt hb)

/-- Numbers on one scale compare as their numerators. -/
theorem dyadic_lt_iff (ha : Fits e a) (hb : Fits e b) : dyadic e a < dyadic e b ↔ a < b := by
  show decide ((dyadic e a).toModel < (dyadic e b).toModel) = true ↔ _
  rw [decide_eq_true_iff]
  show UnpackedFloat.lt (dyadic e a).toModel.unpack (dyadic e b).toModel.unpack = true ↔ _
  rw [ha.unpack, hb.unpack]
  rcases Nat.eq_zero_or_pos a with rfl | hapos
  · rcases Nat.eq_zero_or_pos b with rfl | hbpos
    · rw [unpacked_zero]
      decide
    · rw [unpacked_zero, unpacked_of_pos hbpos hb.bits hb.low]
      exact iff_of_true rfl hbpos
  · rcases Nat.eq_zero_or_pos b with rfl | hbpos
    · rw [unpacked_zero, unpacked_of_pos hapos ha.bits ha.low]
      exact iff_of_false Bool.false_ne_true (by omega)
    · have hloga : a.log2 < 24 := (Nat.log2_lt (Nat.ne_of_gt hapos)).mpr ha.bits
      have hlogb : b.log2 < 24 := (Nat.log2_lt (Nat.ne_of_gt hbpos)).mpr hb.bits
      rw [unpacked_of_pos hapos ha.bits ha.low, unpacked_of_pos hbpos hb.bits hb.low]
      show (some ((compare (e - (slack a : Int)) (e - (slack b : Int))).then
        (compare (a <<< slack a) (b <<< slack b))) == some Ordering.lt) = true ↔ a < b
      rw [beq_iff_eq, Option.some_inj, Ordering.then_eq_lt, Int.compare_eq_lt, Int.compare_eq_eq,
        Nat.compare_eq_lt]
      have hslacka : slack a = 23 - a.log2 := rfl
      have hslackb : slack b = 23 - b.log2 := rfl
      obtain hshorter | hsame | hlonger := Nat.lt_trichotomy a.log2 b.log2
      · exact iff_of_true (Or.inl (by omega)) (lt_of_log2_lt hbpos hshorter)
      · have hslack : slack a = slack b := by omega
        rw [hslack, Nat.shiftLeft_eq, Nat.shiftLeft_eq,
          Nat.mul_lt_mul_right (Nat.two_pow_pos (slack b))]
        simp
      · have hlt := lt_of_log2_lt hapos hlonger
        refine iff_of_false ?_ (Nat.lt_asymm hlt)
        omega

end

end Chiptune.Single
