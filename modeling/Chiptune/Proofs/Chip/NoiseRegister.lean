import Chiptune.Proofs.Chip.Bounds
import Mathlib.Algebra.Ring.Periodic
import Mathlib.Data.Nat.Bitwise
import Mathlib.Data.Set.Finite.Basic
import Mathlib.Dynamics.PeriodicPts.Lemmas
import Mathlib.Order.Interval.Finset.Nat
import Mathlib.Tactic.NormNum.Prime

/-!
# `Chiptune.Proofs.Chip.NoiseRegister`: the feedback register never locks up

At zero the register would stay at zero. It never gets there: a shift keeps the values from one to
`0x7FFF`, in either mode, and nothing but a shift changes the register (`Noise.sounding_after`). On
these values a shift is injective, since the bits that it keeps and the one that enters give back
the bit that it drops (`Noise.shiftWith_injOn`). So it is a bijection, and every value comes back.

How soon is settled for the normal mode by linearity. A shift of an exclusive or is the exclusive or
of the shifts (`Noise.shiftWith_xor`), so any number of shifts is known from what it makes of the
fifteen single bits, and twice as many from that (`Noise.iterate_two_pow`).

* `Noise.isPeriodicPt_full`: `2 ^ 15` shifts come to one shift, so `2 ^ 15 - 1` come to none.
* `Noise.minimalPeriod_one`: from the value one, none of the parts of that number that leave out one
  of its primes 7, 31 and 151 comes to none.
* `Noise.minimalPeriod_eq`: the course from one then takes in as many values as there are, so every
  value is on it.
* `Noise.register_never_locks`: the main statement.
-/

set_option autoImplicit false

namespace Chiptune

/-- Something that happens to a noise voice. -/
inductive NoiseOp where
  | writeControl (value : UInt8)
  | writePeriod (value : UInt8)
  | writeLength (value : UInt8)
  | setEnabled (enabled : Bool)
  | clockTimer
  | shift
  | clockEnvelope
  | clockLength
  | reset
deriving DecidableEq

/-- Carries out an operation. -/
def NoiseOp.run (op : NoiseOp) (n : Noise) : Noise :=
  match op with
  | writeControl value => n.writeControl value
  | writePeriod value => n.writePeriod value
  | writeLength value => n.writeLength value
  | setEnabled enabled => n.setEnabled enabled
  | clockTimer => n.clockTimer
  | shift => n.shift
  | clockEnvelope => n.clockEnvelope
  | clockLength => n.clockLength
  | reset => {}

namespace Noise

open Function Set

/-- The voice after a list of operations, the oldest first. -/
def after (n : Noise) (ops : List NoiseOp) : Noise := ops.foldl (fun n op => op.run n) n

/-- The values from which the register moves on: fifteen bits, not all of them zero. -/
def sounding : Set Nat := Icc 1 0x7FFF

theorem one_mem_sounding : 1 ∈ sounding := mem_Icc.mpr ⟨Nat.le_refl 1, by decide⟩

/-! ### A shift of a sounding register -/

section
variable {tap r s : Nat}

/-- The feedback depends on two bits, of which the shift drops one. -/
theorem shiftWith_eq (tap r : Nat) :
    shiftWith tap r = r / 2 + (r + r / 2 ^ tap) % 2 * 0x4000 := by
  rw [shiftWith, Nat.xor_mod_two_eq, Nat.shiftRight_eq_div_pow]

theorem tap_pos (n : Noise) : 0 < n.tap := by
  unfold tap
  split
  · omega
  · omega

theorem shiftWith_mapsTo (htap : 0 < tap) : MapsTo (shiftWith tap) sounding sounding := by
  intro r hr
  obtain ⟨hpos, hle⟩ := mem_Icc.mp hr
  refine mem_Icc.mpr ⟨?_, shiftWith_le tap r hle⟩
  rw [shiftWith_eq]
  by_cases hone : r = 1
  · -- The last bit is dropped, and enters again at the top.
    have htapped : 1 / 2 ^ tap = 0 := Nat.div_eq_of_lt (Nat.one_lt_two_pow (Nat.ne_of_gt htap))
    rw [hone, htapped]
    decide
  · omega

/-- The bits that are kept determine the tapped bit, and with the one that enters the dropped bit.
-/
theorem shiftWith_injOn (htap : 0 < tap) : InjOn (shiftWith tap) sounding := by
  intro r hr s hs heq
  obtain ⟨-, hr⟩ := mem_Icc.mp hr
  obtain ⟨-, hs⟩ := mem_Icc.mp hs
  rw [shiftWith_eq, shiftWith_eq] at heq
  have hkept : r / 2 = s / 2 := by
    have hentersr := Nat.mod_two_eq_zero_or_one (r + r / 2 ^ tap)
    have henterss := Nat.mod_two_eq_zero_or_one (s + s / 2 ^ tap)
    generalize (r + r / 2 ^ tap) % 2 = entersr at heq hentersr
    generalize (s + s / 2 ^ tap) % 2 = enterss at heq henterss
    omega
  have htapped : r / 2 ^ tap = s / 2 ^ tap := by
    obtain ⟨t, rfl⟩ : ∃ t, tap = t + 1 := ⟨tap - 1, by omega⟩
    rw [Nat.pow_succ', ← Nat.div_div_eq_div_mul, ← Nat.div_div_eq_div_mul, hkept]
  omega

theorem shiftWith_bijOn (htap : 0 < tap) : BijOn (shiftWith tap) sounding sounding :=
  ((finite_Icc 1 0x7FFF).injOn_iff_bijOn_of_mapsTo (shiftWith_mapsTo htap)).mp
    (shiftWith_injOn htap)

/-- A bijection of finitely many values brings each of them back. -/
theorem shiftWith_mem_periodicPts (htap : 0 < tap) (hr : r ∈ sounding) :
    r ∈ periodicPts (shiftWith tap) := by
  have hmaps := shiftWith_mapsTo htap
  have : Finite sounding := finite_Icc 1 0x7FFF
  have hinjective : Injective (hmaps.restrict _ _ _) :=
    hmaps.restrict_inj.mpr (shiftWith_injOn htap)
  have hsemiconj : Semiconj Subtype.val (hmaps.restrict _ _ _) (shiftWith tap) := fun _ => rfl
  exact hsemiconj.mapsTo_periodicPts (hinjective.mem_periodicPts ⟨r, hr⟩)

end

/-! ### Linearity -/

section
variable {images : List Nat} {f : Nat → Nat} {r : Nat}

/-- Bits that are added above a number take places that its own bits leave free. -/
theorem two_pow_mul_add_eq_xor {width low : Nat} (high : Nat) (h : low < 2 ^ width) :
    2 ^ width * high + low = low ^^^ high <<< width := by
  apply Nat.eq_of_testBit_eq
  intro j
  rw [Nat.testBit_two_pow_mul_add high h, Nat.testBit_xor, Nat.testBit_shiftLeft]
  by_cases hj : j < width
  · simp [hj, Nat.not_le_of_lt hj]
  · have hwidth : width ≤ j := Nat.le_of_not_lt hj
    have hnone : low.testBit j = false :=
      Nat.testBit_lt_two_pow (Nat.lt_of_lt_of_le h (Nat.pow_le_pow_right (by omega) hwidth))
    simp [hj, hwidth, hnone]

theorem shiftWith_eq_xor (tap : Nat) (h : r < 2 ^ 15) :
    shiftWith tap r = r / 2 ^^^ ((r ^^^ r >>> tap) % 2) <<< 14 := by
  have hkept : r / 2 < 2 ^ 14 := by omega
  rw [← two_pow_mul_add_eq_xor _ hkept, shiftWith, Nat.add_comm, Nat.mul_comm]
  rfl

theorem shiftWith_xor (tap : Nat) {a b : Nat} (ha : a < 2 ^ 15) (hb : b < 2 ^ 15) :
    shiftWith tap (a ^^^ b) = shiftWith tap a ^^^ shiftWith tap b := by
  have hfeedback : (a ^^^ b ^^^ (a ^^^ b) >>> tap) % 2
      = (a ^^^ a >>> tap) % 2 ^^^ (b ^^^ b >>> tap) % 2 := by
    rw [← Nat.pow_one 2, ← Nat.xor_mod_two_pow, Nat.shiftRight_xor_distrib]
    congr 1
    ac_rfl
  rw [shiftWith_eq_xor tap (Nat.xor_lt_two_pow ha hb), shiftWith_eq_xor tap ha,
    shiftWith_eq_xor tap hb, hfeedback, Nat.xor_div_two, Nat.shiftLeft_xor_distrib]
  ac_rfl

/-- What a linear map makes of a register, from what it makes of the single bits, the lowest
first. -/
def combine : List Nat → Nat → Nat
  | [], _ => 0
  | image :: images, r => (if r % 2 = 1 then image else 0) ^^^ combine images (r / 2)

theorem combine_zero (images : List Nat) : combine images 0 = 0 := by
  induction images with
  | nil => rfl
  | cons image images ih => simp [combine, ih]

theorem combine_xor (images : List Nat) (a b : Nat) :
    combine images (a ^^^ b) = combine images a ^^^ combine images b := by
  induction images generalizing a b with
  | nil => exact (Nat.xor_self 0).symm
  | cons image images ih =>
    have hlow : (if (a ^^^ b) % 2 = 1 then image else 0)
        = (if a % 2 = 1 then image else 0) ^^^ if b % 2 = 1 then image else 0 := by
      rw [Nat.xor_mod_two_eq]
      by_cases ha : a % 2 = 1
      · by_cases hb : b % 2 = 1
        · rw [if_neg (by omega), if_pos ha, if_pos hb, Nat.xor_self]
        · rw [if_pos (by omega), if_pos ha, if_neg hb, Nat.xor_zero]
      · by_cases hb : b % 2 = 1
        · rw [if_pos (by omega), if_neg ha, if_pos hb, Nat.zero_xor]
        · rw [if_neg (by omega), if_neg ha, if_neg hb, Nat.xor_zero]
    rw [combine, combine, combine, hlow, Nat.xor_div_two, ih]
    ac_rfl

/-- One linear map after another is the map whose images are the images of the first, mapped. -/
theorem combine_map (outer images : List Nat) (r : Nat) :
    combine (images.map (combine outer)) r = combine outer (combine images r) := by
  induction images generalizing r with
  | nil => exact (combine_zero outer).symm
  | cons image images ih =>
    rw [List.map_cons, combine, combine, combine_xor, ih]
    congr 1
    split
    · rfl
    · exact (combine_zero outer).symm

/-- What is linear on registers of fifteen bits is combined from its images of the bits. The bits
from `i` on, of which there are `width`, make up the register. -/
theorem combine_images (hzero : f 0 = 0)
    (hxor : ∀ a < 2 ^ 15, ∀ b < 2 ^ 15, f (a ^^^ b) = f a ^^^ f b) {width i : Nat}
    (hwidth : i + width = 15) (hr : r < 2 ^ width) :
    combine ((List.range' i width).map fun j => f (2 ^ j)) r = f (r <<< i) := by
  induction width generalizing i r with
  | zero =>
    obtain rfl : r = 0 := by omega
    rw [Nat.zero_shiftLeft, hzero]
    rfl
  | succ width ih =>
    have hhalf : r / 2 < 2 ^ width := by omega
    have hbound : ∀ x < 2 ^ (width + 1), x <<< i < 2 ^ 15 := by
      intro x hx
      rw [Nat.shiftLeft_eq, show 15 = width + 1 + i by omega, Nat.pow_add]
      exact Nat.mul_lt_mul_of_pos_right hx (Nat.two_pow_pos i)
    -- The lowest bit and the others, each in its place.
    have hsplit : 2 ^ 1 * (r / 2) + r % 2 = r % 2 ^^^ (r / 2) <<< 1 :=
      two_pow_mul_add_eq_xor (r / 2) (Nat.mod_lt r (by omega))
    have hbits : r % 2 ^^^ (r / 2) <<< 1 = r := hsplit.symm.trans (Nat.div_add_mod r 2)
    have hlow : f ((r % 2) <<< i) = if r % 2 = 1 then f (2 ^ i) else 0 := by
      obtain hbit | hbit := Nat.mod_two_eq_zero_or_one r
      · simp [hbit, hzero]
      · simp [hbit, Nat.shiftLeft_eq]
    have hhigh := ih (i := i + 1) (by omega) hhalf
    rw [Nat.add_comm i 1, Nat.shiftLeft_add] at hhigh
    have hsum : f (r <<< i) = f ((r % 2) <<< i) ^^^ f ((r / 2) <<< 1 <<< i) := by
      rw [← hxor _ (hbound _ (by omega)) _ (hbound _ (by rw [Nat.shiftLeft_eq]; omega)),
        ← Nat.shiftLeft_xor_distrib, hbits]
    rw [List.range'_succ, List.map_cons, combine, Nat.add_comm i 1, hhigh, hsum, hlow]

/-- What a shift in the normal mode makes of the single bits. -/
def shiftImages : List Nat := (List.range' 0 15).map fun j => shiftWith 1 (2 ^ j)

theorem combine_shiftImages (h : r < 2 ^ 15) : combine shiftImages r = shiftWith 1 r := by
  have hlinear : combine shiftImages r = shiftWith 1 (r <<< 0) :=
    combine_images rfl (fun a ha b hb => shiftWith_xor 1 ha hb) rfl h
  rwa [Nat.shiftLeft_zero] at hlinear

/-- The images under a linear map that is applied twice. -/
def twice (images : List Nat) : List Nat := images.map (combine images)

theorem iterate_lt (n : Nat) (h : r < 2 ^ 15) : (shiftWith 1)^[n] r < 2 ^ 15 := by
  induction n with
  | zero => exact h
  | succ n ih =>
    rw [iterate_succ_apply']
    exact Nat.lt_succ_of_le (shiftWith_le 1 _ (Nat.le_of_lt_succ ih))

/-- The images under `2 ^ k` shifts are found by doubling `k` times. -/
theorem iterate_two_pow (k : Nat) (h : r < 2 ^ 15) :
    (shiftWith 1)^[2 ^ k] r = combine (twice^[k] shiftImages) r := by
  induction k generalizing r with
  | zero => exact (combine_shiftImages h).symm
  | succ k ih =>
    rw [Nat.pow_succ, Nat.mul_two, iterate_add_apply, ih (iterate_lt _ h), ih h,
      iterate_succ_apply', twice, combine_map]

/-- Any number of shifts, by the powers of two that it is made of. -/
theorem iterate_sum_two_pow (powers : List Nat) (h : r < 2 ^ 15) :
    (shiftWith 1)^[(powers.map (2 ^ ·)).sum] r
      = powers.foldr (fun k s => combine (twice^[k] shiftImages) s) r := by
  induction powers with
  | nil => rfl
  | cons k powers ih =>
    rw [List.map_cons, List.sum_cons, iterate_add_apply, iterate_two_pow k (iterate_lt _ h), ih]
    rfl

end

/-! ### The full period -/

section
variable {r : Nat}

/-- Doubled fifteen times, a shift is itself again. -/
theorem isPeriodicPt_full (hr : r ∈ sounding) : IsPeriodicPt (shiftWith 1) 32767 r := by
  have hmaps : MapsTo (shiftWith 1)^[32767] sounding sounding :=
    (shiftWith_mapsTo Nat.one_pos).iterate 32767
  have hlt : r < 2 ^ 15 := Nat.lt_succ_of_le (mem_Icc.mp hr).2
  have hagain : twice^[15] shiftImages = shiftImages := by decide +kernel
  have hshift : (shiftWith 1)^[2 ^ 15] r = shiftWith 1 r := by
    rw [iterate_two_pow 15 hlt, hagain, combine_shiftImages hlt]
  refine shiftWith_injOn Nat.one_pos (hmaps hr) hr ?_
  rw [← iterate_succ_apply' (shiftWith 1) 32767 r]
  exact hshift

/-- A period that no prime can be taken out of is the least. -/
theorem minimalPeriod_eq_of_prime {f : Nat → Nat} {n : Nat} (hperiod : IsPeriodicPt f n r)
    (hprime : ∀ p, p.Prime → p ∣ n → ¬IsPeriodicPt f (n / p) r) : minimalPeriod f r = n := by
  obtain ⟨a, ha⟩ := hperiod.minimalPeriod_dvd
  by_cases hone : a = 1
  · rw [ha, hone, Nat.mul_one]
  · exfalso
    obtain ⟨p, hp, b, rfl⟩ := Nat.exists_prime_and_dvd hone
    have hfactor : n = p * (minimalPeriod f r * b) := by
      rw [ha]
      ac_rfl
    refine hprime p hp ⟨_, hfactor⟩ ?_
    rw [isPeriodicPt_iff_minimalPeriod_dvd, hfactor, Nat.mul_div_cancel_left _ hp.pos]
    exact ⟨b, rfl⟩

theorem minimalPeriod_one : minimalPeriod (shiftWith 1) 1 = 32767 := by
  have hone : (1 : Nat) < 2 ^ 15 := by decide
  refine minimalPeriod_eq_of_prime (isPeriodicPt_full one_mem_sounding) ?_
  intro p hp hdvd hperiod
  -- The powers of two that make up the numbers are read off in binary.
  have hnot : ∀ powers : List Nat,
      powers.foldr (fun k s => combine (twice^[k] shiftImages) s) 1 ≠ 1 →
      ¬IsPeriodicPt (shiftWith 1) (powers.map (2 ^ ·)).sum 1 := by
    intro powers hne hperiod
    exact hne ((iterate_sum_two_pow powers hone).symm.trans hperiod)
  have hprimes : p = 7 ∨ p = 31 ∨ p = 151 := by
    have hfactors : p ∣ 7 * (31 * 151) := hdvd
    rw [hp.dvd_mul, hp.dvd_mul, Nat.prime_dvd_prime_iff_eq hp (by norm_num),
      Nat.prime_dvd_prime_iff_eq hp (by norm_num),
      Nat.prime_dvd_prime_iff_eq hp (by norm_num)] at hfactors
    exact hfactors
  rcases hprimes with rfl | rfl | rfl
  · exact hnot [12, 9, 6, 3, 0] (by decide +kernel) hperiod
  · exact hnot [10, 5, 0] (by decide +kernel) hperiod
  · exact hnot [7, 6, 4, 3, 0] (by decide +kernel) hperiod

/-- The course from one goes through every sounding value, and a course has one length. -/
theorem minimalPeriod_eq (hr : r ∈ sounding) : minimalPeriod (shiftWith 1) r = 32767 := by
  have hone := one_mem_sounding
  have hmaps : MapsTo (fun k => (shiftWith 1)^[k] 1) (Finset.range 32767)
      (Finset.Icc 1 0x7FFF) := by
    intro k _
    rw [Finset.coe_Icc]
    exact (shiftWith_mapsTo Nat.one_pos).iterate k hone
  have hinj : InjOn (fun k => (shiftWith 1)^[k] 1) (Finset.range 32767) := by
    rw [Finset.coe_range, ← minimalPeriod_one]
    exact iterate_injOn_Iio_minimalPeriod
  have hcard : (Finset.Icc 1 0x7FFF).card ≤ (Finset.range 32767).card := by
    rw [Nat.card_Icc, Finset.card_range]
  have hmem : r ∈ (Finset.Icc 1 0x7FFF : Set Nat) := by rwa [Finset.coe_Icc]
  obtain ⟨k, -, rfl⟩ := Finset.surjOn_of_injOn_of_card_le _ hmaps hinj hcard hmem
  rw [minimalPeriod_apply_iterate (shiftWith_mem_periodicPts Nat.one_pos hone), minimalPeriod_one]

end

/-! ### The voice -/

/-- Only a shift changes the register, and a reset, which leaves the value one in it. -/
theorem sounding_run (op : NoiseOp) {n : Noise} (h : n.shiftRegister ∈ sounding) :
    (op.run n).shiftRegister ∈ sounding := by
  cases op with
  | shift => exact shiftWith_mapsTo n.tap_pos h
  | clockTimer =>
    show n.clockTimer.shiftRegister ∈ sounding
    unfold clockTimer
    split
    · exact shiftWith_mapsTo n.tap_pos h
    · exact h
  | reset => exact one_mem_sounding
  | _ => exact h

theorem sounding_after (ops : List NoiseOp) :
    (({} : Noise).after ops).shiftRegister ∈ sounding := by
  have hrun : ∀ n : Noise, n.shiftRegister ∈ sounding →
      (n.after ops).shiftRegister ∈ sounding := by
    induction ops with
    | nil =>
      intro n h
      exact h
    | cons op ops ih =>
      intro n h
      exact ih (op.run n) (sounding_run op h)
  exact hrun {} one_mem_sounding

/-- The values of the register at one shift after another, in one mode. -/
def course (n : Noise) (shortMode : Bool) (k : Nat) : Nat :=
  (shift^[k] { n with shortMode := shortMode }).shiftRegister

theorem course_eq (n : Noise) (shortMode : Bool) (k : Nat) :
    n.course shortMode k
      = (shiftWith { n with shortMode := shortMode }.tap)^[k] n.shiftRegister := by
  -- Shifting the voice is shifting its register, since its mode stays.
  have hshift : Semiconj (fun r => { n with shortMode := shortMode, shiftRegister := r })
      (shiftWith { n with shortMode := shortMode }.tap) shift := fun _ => rfl
  exact congrArg shiftRegister ((hshift.iterate_right k).eq n.shiftRegister).symm

theorem periodic_course_iff (n : Noise) (shortMode : Bool) (p : Nat) :
    Periodic (n.course shortMode) p
      ↔ IsPeriodicPt (shiftWith { n with shortMode := shortMode }.tap) p n.shiftRegister := by
  constructor
  · intro h
    have hstart := h 0
    rwa [course_eq, course_eq, Nat.zero_add] at hstart
  · intro h k
    rw [course_eq, course_eq, iterate_add_apply, h.eq]

/-- The register never locks up. Take any run of register writes, timer clocks and shifts from
power-up, in which the mode may change at any moment.

* The register holds fifteen bits that are not all zero.
* Whatever the mode, a shift is a bijection of these values.
* Shifts in one mode bring the value back that the run has left, and so all that come after it: the
  course is periodic from its start.
* In the normal mode the least period is 32767, whatever the value: the periods are its multiples.
-/
theorem register_never_locks (ops : List NoiseOp) :
    let n := ({} : Noise).after ops
    (1 ≤ n.shiftRegister ∧ n.shiftRegister ≤ 0x7FFF) ∧
    (∀ m : Noise, BijOn (fun r => { m with shiftRegister := r }.shift.shiftRegister)
      (Icc 1 0x7FFF) (Icc 1 0x7FFF)) ∧
    (∀ shortMode, ∃ p, 0 < p ∧ Periodic (n.course shortMode) p) ∧
    ∀ p, Periodic (n.course false) p ↔ 32767 ∣ p := by
  intro n
  have hn : n.shiftRegister ∈ sounding := sounding_after ops
  refine ⟨mem_Icc.mp hn, ?_, ?_, ?_⟩
  · intro m
    have hshift : (fun r => { m with shiftRegister := r }.shift.shiftRegister) = shiftWith m.tap :=
      rfl
    rw [hshift]
    exact shiftWith_bijOn m.tap_pos
  · intro shortMode
    have hback := shiftWith_mem_periodicPts { n with shortMode := shortMode }.tap_pos hn
    obtain ⟨p, hp, hperiod⟩ := mem_periodicPts.mp hback
    exact ⟨p, hp, (n.periodic_course_iff shortMode p).mpr hperiod⟩
  · intro p
    have htap : { n with shortMode := false }.tap = 1 := rfl
    rw [periodic_course_iff, isPeriodicPt_iff_minimalPeriod_dvd, htap, minimalPeriod_eq hn]

end Noise

end Chiptune
