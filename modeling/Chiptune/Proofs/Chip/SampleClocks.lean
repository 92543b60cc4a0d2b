import Chiptune.Proofs.Chip.PowerUp
import Chiptune.Proofs.Rounding
import Mathlib.Algebra.Order.Floor.Semifield
import Mathlib.Data.Rat.Floor

/-!
# `Chiptune.Proofs.Chip.SampleClocks`: the clocks that fall into a sample

A sample takes the clocks per sample up into the accumulator and then runs a clock for every one
that is in it. `Chip.Drains` is that loop without a limit on its rounds. Its shape does not make it
end: beyond `2 ^ 24` a number less one is rounded back to itself. That it ends hangs on a bound of
the accumulator, and the bound on how the quotient and the sum before the loop are rounded.

* `Chip.clocksAt_near`: at any rate, the clocks per sample are at most the clock rate, and not too
  small. The rate is rounded first, if it is no number of single precision (`Chip.rate_near`).
* `Chip.sum_near`: with a carried part they are at most one more, after rounding too.
* `Chip.drains_dyadic`: one is a number on the scale of the sum, unless the sum is less than one. So
  it is taken off without rounding, and the loop divides with a remainder.
* `Chip.Carries.run`: every operation leaves a part of a clock in the accumulator.

`Chip.sample_clocks_exact` is the main statement.
-/

set_option autoImplicit false

namespace Chiptune

open Single (dyadic Fits Nearest value?)

/-! ### Numbers on a scale on which one is a number -/

namespace Single

variable {k n : Nat}

/-- The number `k / 2 ^ n`, on a scale that is fine enough for all that the loop meets and not so
fine that a number is lost. -/
structure OnGrid (n k : Nat) : Prop where
  scale : n ≤ 40
  bits : k < 2 ^ 24

theorem OnGrid.fits (h : OnGrid n k) : Fits (-n) k := by
  have hscale := h.scale
  exact ⟨h.bits, by omega, by omega⟩

theorem OnGrid.of_le (h : OnGrid n k) {less : Nat} (hless : less ≤ k) : OnGrid n less :=
  ⟨h.scale, Nat.lt_of_le_of_lt hless h.bits⟩

theorem two_zpow_neg (n : Nat) (x : ℚ) : x * 2 ^ (-(n : Int)) = x / 2 ^ n := by
  rw [zpow_neg, zpow_natCast, div_eq_mul_inv]

theorem OnGrid.value (h : OnGrid n k) : value? (dyadic (-n) k) = some ((k : ℚ) / 2 ^ n) := by
  rw [value?_dyadic h.fits, two_zpow_neg]

/-- The least of the numbers with a full mantissa. -/
theorem OnGrid.le_value (h : OnGrid n k) (hfull : 2 ^ 23 ≤ k) :
    (2 : ℚ) ^ (-17 : Int) ≤ k / 2 ^ n := by
  have hk : (2 ^ 23 : ℚ) ≤ k := by exact_mod_cast hfull
  have hscale : (2 : ℚ) ^ n ≤ 2 ^ 40 := pow_le_pow_right₀ one_le_two h.scale
  rw [le_div_iff₀ (by positivity)]
  calc (2 : ℚ) ^ (-17 : Int) * 2 ^ n ≤ 2 ^ (-17 : Int) * 2 ^ 40 :=
        mul_le_mul_of_nonneg_left hscale (by positivity)
    _ = 2 ^ 23 := by norm_num
    _ ≤ k := hk

theorem one_eq_dyadic : (1.0 : Float32) = dyadic 0 1 := by decide

theorem one_eq_dyadic_scaled (hn : n ≤ 23) : (1.0 : Float32) = dyadic (-n) (2 ^ n) := by
  induction n with
  | zero => exact one_eq_dyadic
  | succ n ih =>
    -- On the next finer scale the numerator doubles, as long as a mantissa can hold it.
    have hbits : 2 ^ n < 2 ^ 24 := Nat.pow_lt_pow_right (by omega) (by omega)
    rw [ih (by omega), Nat.pow_succ, Nat.mul_comm]
    exact (dyadic_double ⟨hbits, by omega, by omega⟩ (by omega)).symm

theorem one_le_iff (h : OnGrid n k) : 1.0 ≤ dyadic (-n) k ↔ 2 ^ n ≤ k := by
  have hone : Fits 0 1 := ⟨by decide, by decide, by decide⟩
  have hscale : (0 : ℚ) < 2 ^ n := by positivity
  rw [one_eq_dyadic, dyadic_le_iff_value hone h.fits, two_zpow_neg, Nat.cast_one, zpow_zero,
    one_mul, le_div_iff₀ hscale, one_mul]
  exact_mod_cast Iff.rfl

/-- One can be taken off without rounding: it is a number on the same scale. -/
theorem dyadic_sub_one (h : OnGrid n k) (hk : 2 ^ n ≤ k) :
    dyadic (-n) k - 1.0 = dyadic (-n) (k - 2 ^ n) := by
  -- A mantissa whose number is not less than one has 23 bits at most behind the point.
  have hn : n ≤ 23 := by
    have hpow : 2 ^ n < 2 ^ 24 := Nat.lt_of_le_of_lt hk h.bits
    have := (Nat.pow_lt_pow_iff_right (by omega)).mp hpow
    omega
  rw [one_eq_dyadic_scaled hn]
  exact dyadic_sub h.fits hk

/-- A number that was rounded, on the scale of its last place. -/
theorem Nearest.onGrid {v : ℚ} {g : Int} (h : Nearest v g k) (hlow : 2 ^ (-17 : Int) ≤ v)
    (hhigh : v < 2 ^ (21 : Int)) : ∃ n : Nat, g = -n ∧ OnGrid n k := by
  have hup := h.exponent_lt hhigh
  have hdown := h.lt_exponent hlow
  exact ⟨g.natAbs, by omega, by omega, h.bits⟩

end Single

namespace Chip

open Single

/-! ### The loop -/

/-- The loop over the clocks of a sample, with the number of its rounds and the chip at its end. -/
inductive Drains : Chip → Float32 → Nat → Chip → Prop where
  | stop {c : Chip} {accumulator : Float32} (h : ¬1.0 ≤ accumulator) :
    Drains c accumulator 0 { c with accumulator := accumulator }
  | round {c d : Chip} {accumulator : Float32} {n : Nat} (h : 1.0 ≤ accumulator)
    (rest : Drains c.clock (accumulator - 1.0) n d) : Drains c accumulator (n + 1) d

section
variable {c d : Chip} {accumulator : Float32} {k m n : Nat}

/-- The loop has one end at most. -/
theorem Drains.unique (h : c.Drains accumulator n d) {e : Chip} (he : c.Drains accumulator m e) :
    m = n ∧ e = d := by
  induction h generalizing m e with
  | stop hstop =>
    cases he with
    | stop => exact ⟨rfl, rfl⟩
    | round hgoes => exact absurd hgoes hstop
  | round hgoes _ ih =>
    cases he with
    | stop hstop => exact absurd hgoes hstop
    | round _ rest =>
      obtain ⟨rfl, rfl⟩ := ih rest
      exact ⟨rfl, rfl⟩

/-- A limit that is not below the number of rounds makes no difference. -/
theorem Drains.drain_eq (h : c.Drains accumulator n d) {fuel : Nat} (hfuel : n ≤ fuel) :
    drain fuel c accumulator = d := by
  induction h generalizing fuel with
  | stop hstop =>
    cases fuel with
    | zero => rfl
    | succ fuel => rw [drain, if_neg hstop]
  | round hgoes _ ih =>
    obtain ⟨fuel, rfl⟩ : ∃ left, fuel = left + 1 := ⟨fuel - 1, by omega⟩
    rw [drain, if_pos hgoes]
    exact ih (by omega)

/-- The loop divides with a remainder. -/
theorem drains_dyadic (h : OnGrid n k) (c : Chip) :
    c.Drains (dyadic (-n) k) (k / 2 ^ n)
      { clock^[k / 2 ^ n] c with accumulator := dyadic (-n) (k % 2 ^ n) } := by
  -- The quotient counts the rounds; each takes the divisor off the numerator.
  induction hrounds : k / 2 ^ n generalizing c k with
  | zero =>
    have hless : k < 2 ^ n := (Nat.div_eq_zero_iff_lt (Nat.two_pow_pos n)).mp hrounds
    rw [Nat.mod_eq_of_lt hless]
    exact .stop (by rw [one_le_iff h]; omega)
  | succ rounds ih =>
    have hk : 2 ^ n ≤ k := (Nat.div_pos_iff.mp (by omega)).2
    have hless : OnGrid n (k - 2 ^ n) := h.of_le (Nat.sub_le _ _)
    rw [Nat.div_eq_sub_div (Nat.two_pow_pos n) hk] at hrounds
    have hnext := ih hless c.clock (by omega)
    refine .round ((one_le_iff h).mpr hk) ?_
    rw [dyadic_sub_one h hk, Nat.mod_eq_sub_mod hk]
    exact hnext

/-- What is left of a number after some rounds. -/
theorem iterate_sub_one (h : OnGrid n k) {rounds : Nat} (hrounds : rounds * 2 ^ n ≤ k) :
    (· - 1.0)^[rounds] (dyadic (-n) k) = dyadic (-n) (k - rounds * 2 ^ n) := by
  induction rounds with
  | zero => simp
  | succ rounds ih =>
    rw [Nat.succ_mul] at hrounds
    have hleft : OnGrid n (k - rounds * 2 ^ n) := h.of_le (Nat.sub_le _ _)
    have hmore : 2 ^ n ≤ k - rounds * 2 ^ n := Nat.le_sub_of_add_le' hrounds
    rw [Function.iterate_succ_apply', ih (Nat.le_of_add_right_le hrounds),
      dyadic_sub_one hleft hmore, Nat.sub_sub, Nat.succ_mul]

theorem value?_sub_rounds (h : OnGrid n k) {rounds : Nat} (hrounds : rounds * 2 ^ n ≤ k) :
    value? (dyadic (-n) (k - rounds * 2 ^ n)) = some ((k : ℚ) / 2 ^ n - rounds) := by
  rw [(h.of_le (Nat.sub_le _ _)).value, Nat.cast_sub hrounds]
  push_cast
  congr 1
  field_simp

/-- A round takes off one, and nothing else. -/
theorem round_exact (h : OnGrid n k) {rounds : Nat} (hnext : (rounds + 1) * 2 ^ n ≤ k) :
    let left := (· - 1.0)^[rounds] (dyadic (-n) k)
    value? left = some ((k : ℚ) / 2 ^ n - rounds) ∧ 1.0 ≤ left ∧
      value? (left - 1.0) = some ((k : ℚ) / 2 ^ n - rounds - 1) ∧ left - 1.0 < left := by
  intro left
  have hafter := value?_sub_rounds h hnext
  rw [Nat.succ_mul] at hnext
  have hrounds : rounds * 2 ^ n ≤ k := Nat.le_of_add_right_le hnext
  have hmore : 2 ^ n ≤ k - rounds * 2 ^ n := Nat.le_sub_of_add_le' hnext
  have hgrid : OnGrid n (k - rounds * 2 ^ n) := h.of_le (Nat.sub_le _ _)
  have hless : k - rounds * 2 ^ n - 2 ^ n < k - rounds * 2 ^ n :=
    Nat.sub_lt (Nat.lt_of_lt_of_le (Nat.two_pow_pos n) hmore) (Nat.two_pow_pos n)
  have hleft : left = dyadic (-n) (k - rounds * 2 ^ n) := iterate_sub_one h hrounds
  rw [hleft, dyadic_sub_one hgrid hmore]
  refine ⟨value?_sub_rounds h hrounds, (one_le_iff hgrid).mpr hmore, ?_, ?_⟩
  · rw [Nat.sub_sub, ← Nat.succ_mul, hafter, Nat.cast_succ, sub_sub]
  · exact (dyadic_lt_iff (hgrid.fits.of_le hless.le) hgrid.fits).mpr hless

/-! ### Clocks per sample -/

/-- What a rate is rounded to is at least one, and not much more than the rate can be. -/
theorem rate_near {rate : UInt32} (hrate : 0 < rate.toNat) :
    ∃ e k, rate.toFloat32 = dyadic e k ∧ Fits e k ∧ 0 < k ∧ e ≤ 9 ∧
      (1 : ℚ) ≤ k * 2 ^ e ∧ (k : ℚ) * 2 ^ e ≤ 2 ^ (33 : Int) := by
  obtain ⟨e, k, hconverted, hnear, hlow⟩ := toFloat32_near hrate
  have hleast : ((1 : Nat) : ℚ) ≤ rate.toNat := by exact_mod_cast hrate
  have hmost : (rate.toNat : ℚ) < 2 ^ (32 : Int) := by exact_mod_cast rate.toNat_lt
  have hhigh := hnear.exponent_lt hmost
  have hone := hnear.whole_le (by decide) hleast
  rw [Nat.cast_one] at hone
  have hbits : (k : ℚ) ≤ 2 ^ (24 : Int) := by exact_mod_cast hnear.bits.le
  have hscale : (2 : ℚ) ^ e ≤ 2 ^ (9 : Int) := zpow_le_zpow_right₀ one_le_two (by omega)
  refine ⟨e, k, hconverted, ⟨hnear.bits, by omega, by omega⟩,
    Nat.lt_of_lt_of_le (by decide) hnear.full, by omega, hone, ?_⟩
  calc (k : ℚ) * 2 ^ e ≤ 2 ^ (24 : Int) * 2 ^ (9 : Int) :=
        mul_le_mul hbits hscale (by positivity) (by positivity)
    _ = 2 ^ (33 : Int) := by norm_num

/-- The clocks per sample are at most the clock rate, and not too small. -/
theorem clocksAt_near {rate : UInt32} (hrate : 0 < rate.toNat) :
    ∃ n k : Nat, clocksAt rate = dyadic (-n) k ∧ OnGrid n k ∧ 2 ^ 23 ≤ k ∧
      (k : ℚ) / 2 ^ n ≤ 1789773 := by
  have hclock : cpuClockHz = dyadic 0 1789773 := by decide
  have hclockFits : Fits 0 1789773 := ⟨by decide, by decide, by decide⟩
  obtain ⟨f, b, hconverted, hfits, hpos, hscale, hone, hmost⟩ := rate_near hrate
  obtain ⟨g, k, hquotient, hnear⟩ :=
    dyadic_div_near hclockFits hfits (by decide) hpos (by omega)
  rw [zpow_zero, mul_one] at hnear
  -- The two bounds of the rate give those of the quotient, the other way round.
  have hlow : (2 : ℚ) ^ (-17 : Int) ≤ (1789773 : Nat) / (b * 2 ^ f) := by
    rw [le_div_iff₀ (lt_of_lt_of_le one_pos hone)]
    calc (2 : ℚ) ^ (-17 : Int) * (b * 2 ^ f) ≤ 2 ^ (-17 : Int) * 2 ^ (33 : Int) :=
          mul_le_mul_of_nonneg_left hmost (by positivity)
      _ ≤ (1789773 : Nat) := by norm_num
  have hhigh : ((1789773 : Nat) : ℚ) / (b * 2 ^ f) ≤ (1789773 : Nat) :=
    div_le_self (by positivity) hone
  obtain ⟨n, rfl, hgrid⟩ := hnear.onGrid hlow (hhigh.trans_lt (by norm_num))
  have hle := hnear.le_whole (by decide) hhigh
  rw [two_zpow_neg] at hle
  refine ⟨n, k, ?_, hgrid, hnear.full, by exact_mod_cast hle⟩
  rw [clocksAt, hclock, hconverted, hquotient]

/-- The sum of a carried part and the clocks per sample is rounded, but not beyond the bound that it
has without rounding. -/
theorem sum_near {a p : Nat} (ha : OnGrid n a) (hless : a < 2 ^ n) (hp : OnGrid m p)
    (hfull : 2 ^ 23 ≤ p) (hmost : (p : ℚ) / 2 ^ m ≤ 1789773) :
    ∃ l k : Nat, dyadic (-n) a + dyadic (-m) p = dyadic (-l) k ∧ OnGrid l k ∧
      (k : ℚ) / 2 ^ l ≤ 1789774 ∧
      |(k : ℚ) / 2 ^ l - (a / 2 ^ n + p / 2 ^ m)| ≤ (k : ℚ) / 2 ^ l / 2 ^ 24 := by
  rcases Nat.eq_zero_or_pos a with rfl | hapos
  · -- Nothing is carried, so nothing is rounded.
    have hsum : dyadic (-n) 0 + dyadic (-m) p = dyadic (-m) p := by
      have hzero : dyadic (-n) 0 = dyadic (-m) 0 := rfl
      have hexact := dyadic_add (e := -m) (a := 0) (b := p) (by rw [Nat.zero_add]; exact hp.fits)
      rw [hzero, hexact, Nat.zero_add]
    refine ⟨m, p, hsum, hp, by linarith, ?_⟩
    rw [Nat.cast_zero, zero_div, zero_add, sub_self, abs_zero]
    positivity
  · have hna := ha.scale
    have hmp := hp.scale
    obtain ⟨g, k, hsum, hnear⟩ :=
      dyadic_add_near ha.fits hp.fits hapos (by omega) (by omega) (by omega)
    rw [two_zpow_neg, two_zpow_neg] at hnear
    have hpart : (a : ℚ) / 2 ^ n < 1 := by
      rw [div_lt_one (by positivity)]
      exact_mod_cast hless
    have hnonneg : (0 : ℚ) ≤ a / 2 ^ n := by positivity
    have hlow : (2 : ℚ) ^ (-17 : Int) ≤ a / 2 ^ n + p / 2 ^ m := by
      have hvalue := hp.le_value hfull
      linarith
    have hhigh : (a : ℚ) / 2 ^ n + p / 2 ^ m ≤ (1789774 : Nat) := by
      push_cast
      linarith
    obtain ⟨l, rfl, hgrid⟩ := hnear.onGrid hlow (hhigh.trans_lt (by norm_num))
    have hle := hnear.le_whole (by decide) hhigh
    have herror := hnear.near
    rw [two_zpow_neg] at hle herror
    refine ⟨l, k, hsum, hgrid, by exact_mod_cast hle, herror.trans ?_⟩
    -- The mantissa is full, so half a place is a small part of the number.
    have hk : (2 ^ 23 : ℚ) ≤ k := by exact_mod_cast hnear.full
    rw [zpow_neg, zpow_natCast, ← one_div, div_div, div_div, div_le_div_iff₀ (by positivity)
      (by positivity)]
    have hscale : (0 : ℚ) ≤ 2 ^ l * 2 := by positivity
    linarith [mul_le_mul_of_nonneg_right hk hscale]

end

/-! ### Between samples -/

/-- The accumulator holds a part of a clock. -/
def Carries (c : Chip) : Prop :=
  ∃ n k : Nat, c.accumulator = dyadic (-n) k ∧ OnGrid n k ∧ k < 2 ^ n

theorem accumulator_dispatch (c : Chip) (register : Register) (value : UInt8) :
    (c.dispatch register value).accumulator = c.accumulator := by
  cases register with
  | pulseControl id | pulseSweep id | pulseTimerLow id | pulseTimerHigh id =>
    cases id
    · rfl
    · rfl
  | frameCounter =>
    obtain ⟨_, _, _, _, hmode⟩ := c.writeFrameCounter_eq value
    show (c.writeFrameCounter value).accumulator = c.accumulator
    rw [hmode]
  | _ => rfl

theorem accumulator_write (c : Chip) (register : Register) (value : UInt8) :
    (c.write register value).accumulator = c.accumulator := by
  rw [write, accumulator_dispatch]
  unfold remember
  split
  · rfl
  · rfl

theorem accumulator_frameTick (c : Chip) : c.frameTick.accumulator = c.accumulator := by
  obtain ⟨_, _, _, _, htick⟩ := c.frameTick_eq
  rw [htick]

theorem accumulator_clock (c : Chip) : c.clock.accumulator = c.accumulator := by
  unfold clock
  split
  · rfl
  · rfl

theorem accumulator_nextSample (c : Chip) (options : RenderOptions) :
    (c.nextSample options).2.accumulator = c.runSampleClocks.accumulator := by
  obtain ⟨_, _, _, _, hemit⟩ := c.runSampleClocks.emit_eq options
  show (c.runSampleClocks.emit options).2.accumulator = _
  rw [hemit]

section
variable {c : Chip}

/-- The numbers of a sample: the part of a clock carried over from the last, the clocks per sample,
and the sum of the two as it is rounded. -/
structure Takes (c : Chip) (carried perSample total : ℚ) : Prop where
  accumulator : value? c.accumulator = some carried
  carried_nonneg : 0 ≤ carried
  carried_lt_one : carried < 1
  clocksPerSample : value? c.clocksPerSample = some perSample
  perSample_pos : 0 < perSample
  perSample_le : perSample ≤ 1789773
  sum : value? (c.accumulator + c.clocksPerSample) = some total
  total_nonneg : 0 ≤ total
  total_le : total ≤ 1789774
  rounded : |total - (carried + perSample)| ≤ total / 2 ^ 24

theorem Tuned.rate_pos (h : c.Tuned) : 0 < c.sampleRate.toNat := by
  refine Nat.pos_of_ne_zero ?_
  intro hzero
  have hrate : c.sampleRate = 0 := UInt32.toNat_inj.mp hzero
  have hmax := h.sampleRate
  rw [hrate] at hmax
  exact absurd hmax (by decide)

/-- What is in the accumulator stays within its bounds, and the sum is a number on a scale. -/
theorem Carries.takes (h : c.Carries) (htuned : c.Tuned) :
    ∃ (carried perSample : ℚ) (n k : Nat), c.Takes carried perSample ((k : ℚ) / 2 ^ n) ∧
      c.accumulator + c.clocksPerSample = dyadic (-n) k ∧ OnGrid n k := by
  obtain ⟨l, a, haccumulator, hgrid, hless⟩ := h
  obtain ⟨m, p, hclocks, hclocksGrid, hfull, hmost⟩ := clocksAt_near htuned.rate_pos
  rw [← htuned.clocksPerSample] at hclocks
  obtain ⟨n, k, hsum, hsumGrid, hle, hrounded⟩ := sum_near hgrid hless hclocksGrid hfull hmost
  have hp : 0 < p := by omega
  rw [← haccumulator, ← hclocks] at hsum
  refine ⟨a / 2 ^ l, p / 2 ^ m, n, k, ?_, hsum, hsumGrid⟩
  constructor
  case accumulator => rw [haccumulator, hgrid.value]
  case carried_nonneg => positivity
  case carried_lt_one =>
    rw [div_lt_one (by positivity)]
    exact_mod_cast hless
  case clocksPerSample => rw [hclocks, hclocksGrid.value]
  case perSample_pos => positivity
  case perSample_le => exact hmost
  case sum => rw [hsum, hsumGrid.value]
  case total_nonneg => positivity
  case total_le => exact hle
  case rounded => exact hrounded

theorem runSampleClocks_of_sum {n k : Nat} (h : OnGrid n k)
    (hsum : c.accumulator + c.clocksPerSample = dyadic (-n) k)
    (hle : (k : ℚ) / 2 ^ n ≤ 1789774) :
    c.Drains (dyadic (-n) k) (k / 2 ^ n) c.runSampleClocks ∧
      c.runSampleClocks
        = { clock^[k / 2 ^ n] c with accumulator := dyadic (-n) (k % 2 ^ n) } := by
  have hdrains := drains_dyadic h c
  have hrounds : k / 2 ^ n ≤ maxClocksPerSample := by
    refine Nat.div_le_of_le_mul ?_
    rw [div_le_iff₀ (by positivity), mul_comm] at hle
    exact_mod_cast hle
  have hrun : c.runSampleClocks
      = { clock^[k / 2 ^ n] c with accumulator := dyadic (-n) (k % 2 ^ n) } := by
    rw [Chip.runSampleClocks, hsum]
    exact hdrains.drain_eq hrounds
  rw [hrun]
  exact ⟨hdrains, rfl⟩

/-- The clocks of a sample leave a part of a clock. -/
theorem Carries.runSampleClocks (h : c.Carries) (htuned : c.Tuned) :
    c.runSampleClocks.Carries := by
  obtain ⟨carried, perSample, n, k, htakes, hsum, hgrid⟩ := h.takes htuned
  obtain ⟨-, hrun⟩ := runSampleClocks_of_sum hgrid hsum htakes.total_le
  have hless : k % 2 ^ n < 2 ^ n := Nat.mod_lt _ (Nat.two_pow_pos n)
  rw [hrun]
  exact ⟨n, k % 2 ^ n, rfl, hgrid.of_le (Nat.mod_le _ _), hless⟩

/-- Only samples and resets change the accumulator. -/
theorem Carries.run (h : c.Carries) (htuned : c.Tuned) (op : ChipOp) : (op.run c).Carries := by
  have keep : ∀ {d : Chip}, d.accumulator = c.accumulator → d.Carries := by
    rintro d hd
    rw [Carries, hd]
    exact h
  cases op with
  | write register value => exact keep (c.accumulator_write register value)
  | load data offset => exact keep rfl
  | frameTick => exact keep c.accumulator_frameTick
  | clock => exact keep c.accumulator_clock
  | sample options =>
    have hclocks := h.runSampleClocks htuned
    rw [Carries, ← c.accumulator_nextSample options] at hclocks
    exact hclocks
  | reset => exact ⟨0, 0, rfl, ⟨by decide, by decide⟩, by decide⟩
  | setRate sampleRate => exact keep rfl

theorem carries_after (sampleRate : UInt32) (past : List ChipOp) :
    ((powerUp sampleRate).after past).Carries := by
  have hstart : (powerUp sampleRate).Tuned ∧ (powerUp sampleRate).Carries :=
    ⟨tuned_powerUp sampleRate, 0, 0, rfl, ⟨by decide, by decide⟩, by decide⟩
  refine (after_induction (P := fun c => c.Tuned ∧ c.Carries) ?_ _ past hstart).2
  rintro c op ⟨htuned, hcarries⟩
  exact ⟨(htuned.run op).1, hcarries.run htuned op⟩

end

/-- Each sample runs the whole clocks that are in the accumulator and keeps the part that is left.

* Between samples the accumulator holds a part of a clock. It takes up the clocks per sample. The
  sum is off by one part in `2 ^ 24` of itself at most, and is at most the clock rate and one.
* The loop over the clocks takes off one at a time. As long as it goes on, that is exact, and less
  is left than before.
* The loop ends, and in one way only: after as many rounds as there are whole clocks in the rounded
  sum. The limit of its rounds is not what ends it.
* So a sample is what the chip gives after as many clocks, and the part that is left is what the
  clocks have not used up.

This holds after every run, of any rate and with any changes of the rate. -/
theorem sample_clocks_exact (sampleRate : UInt32) (past : List ChipOp) :
    let c := (powerUp sampleRate).after past
    let sum := c.accumulator + c.clocksPerSample
    ∃ carried perSample total : ℚ, c.Takes carried perSample total ∧
      (∀ rounds < ⌊total⌋₊,
        let left := (· - 1.0)^[rounds] sum
        value? left = some (total - rounds) ∧ 1.0 ≤ left ∧
          value? (left - 1.0) = some (total - rounds - 1) ∧ left - 1.0 < left) ∧
      (∀ rounds d, c.Drains sum rounds d ↔ rounds = ⌊total⌋₊ ∧ d = c.runSampleClocks) ∧
      ∀ options,
        let accumulator := (· - 1.0)^[⌊total⌋₊] sum
        c.nextSample options
          = ({ clock^[⌊total⌋₊] c with accumulator := accumulator }).emit options ∧
        (c.nextSample options).2.accumulator = accumulator ∧
        value? accumulator = some (total - ⌊total⌋₊) := by
  intro c sum
  have hcarries : c.Carries := carries_after sampleRate past
  obtain ⟨carried, perSample, n, k, htakes, hsum, hgrid⟩ :=
    hcarries.takes ((tuned_powerUp sampleRate).after past).1
  obtain ⟨hdrains, hrun⟩ := runSampleClocks_of_sum hgrid hsum htakes.total_le
  have hfloor : ⌊(k : ℚ) / 2 ^ n⌋₊ = k / 2 ^ n := by
    have hdiv : ⌊(k : ℚ) / (2 ^ n : Nat)⌋₊ = k / 2 ^ n := Nat.floor_div_eq_div k (2 ^ n)
    rwa [Nat.cast_pow, Nat.cast_two] at hdiv
  refine ⟨carried, perSample, _, htakes, ?_, ?_, ?_⟩
  · intro rounds hrounds left
    rw [hfloor] at hrounds
    have hexact := round_exact hgrid (Nat.mul_le_of_le_div _ _ _ hrounds)
    rw [← hsum] at hexact
    exact hexact
  · -- The loop that ends here has no other end.
    intro rounds d
    rw [← hsum, ← hfloor] at hdrains
    constructor
    · intro hother
      exact hdrains.unique hother
    · rintro ⟨rfl, rfl⟩
      exact hdrains
  · intro options accumulator
    have hall : k / 2 ^ n * 2 ^ n ≤ k := Nat.div_mul_le_self k (2 ^ n)
    have hrest : accumulator = dyadic (-n) (k - k / 2 ^ n * 2 ^ n) := by
      rw [← iterate_sub_one hgrid hall, ← hsum, ← hfloor]
    have hvalue := value?_sub_rounds hgrid hall
    rw [← hrest, ← hfloor] at hvalue
    rw [Nat.mod_eq_sub_div_mul, ← hrest, ← hfloor] at hrun
    refine ⟨?_, ?_, hvalue⟩
    · show c.runSampleClocks.emit options = _
      rw [hrun]
    · rw [accumulator_nextSample, hrun]

/-- A rate of zero counts as one. Then a sample is a second, and the loop runs the clock rate. -/
theorem slowest_sample_is_a_second :
    let c := powerUp 0
    c.Drains cpuClockHz 1789773 c.runSampleClocks ∧ 1.0 ≤ cpuClockHz ∧
      value? (cpuClockHz - 1.0) = some 1789772 := by
  intro c
  obtain ⟨carried, perSample, total, htakes, hleft, hdrains, -⟩ := sample_clocks_exact 0 []
  have hsum : c.accumulator + c.clocksPerSample = cpuClockHz := by decide
  have hclock : cpuClockHz = dyadic 0 1789773 := by decide
  have htotal : total = 1789773 := by
    have hvalue := value?_dyadic (e := 0) (k := 1789773) ⟨by decide, by decide, by decide⟩
    have hsame : value? (c.accumulator + c.clocksPerSample) = some total := htakes.sum
    rw [← hclock, ← hsum, hsame, zpow_zero, mul_one] at hvalue
    exact_mod_cast Option.some.inj hvalue
  have hfloor : ⌊total⌋₊ = 1789773 := by rw [htotal, Nat.floor_ofNat]
  rw [after_nil, hsum] at hdrains
  obtain ⟨-, hgoes, hvalue, -⟩ := hleft 0 (by rw [hfloor]; decide)
  rw [Function.iterate_zero, id, after_nil, hsum] at hgoes hvalue
  refine ⟨(hdrains _ _).mpr ⟨hfloor.symm, rfl⟩, hgoes, ?_⟩
  rw [hvalue, htotal]
  norm_num

end Chip

end Chiptune
