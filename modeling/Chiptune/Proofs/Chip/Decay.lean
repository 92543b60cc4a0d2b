import Chiptune.Chip.Envelope
import Mathlib.Logic.Function.Iterate

/-!
# `Chiptune.Proofs.Chip.Decay`: the course of an envelope

A restart loads the decay with fifteen and the divider with the period. From then on every
`period + 1` clocks take the decay one on: the divider counts down the period, and the clock that
finds it at zero loads it again. `Envelope.decayAfter` says what so many expiries make of the decay.

A number of clocks is taken apart as the unit takes it apart, into whole counts of the divider and a
rest. `Envelope.iterate_clock_rest` takes the divider down, `Envelope.iterate_clock_count` takes the
decay from one count to the next, by induction on the counts.

* `Envelope.iterate_clock`: the whole state after a restart and any number of clocks.
* `Envelope.decay_course`: the main statement.
-/

set_option autoImplicit false

namespace Chiptune.Envelope

variable {e : Envelope}

/-! ### One clock -/

/-- A due restart takes the whole clock. -/
theorem clock_of_start (h : e.start = true) :
    e.clock = { e with start := false, decay := 15, divider := e.period } := by
  simp [clock, h]

theorem clock_of_divider_pos (hstart : e.start = false) (h : 0 < e.divider) :
    e.clock = { e with divider := e.divider - 1 } := by
  simp [clock, hstart, h]

/-- An expiry takes the decay one down, and from zero back to fifteen if the envelope loops. -/
theorem clock_of_divider_zero (hstart : e.start = false) (h : e.divider = 0) :
    e.clock
      = { e with
          divider := e.period
          decay := if 0 < e.decay then e.decay - 1 else if e.loop then 15 else 0 } := by
  simp [clock, hstart, h]

/-! ### The decay -/

/-- The decay so many expiries after a restart. -/
def decayAfter (loop : Bool) (expiries : Nat) : Nat :=
  if loop then 15 - expiries % 16 else 15 - expiries

theorem decayAfter_zero (loop : Bool) : decayAfter loop 0 = 15 := by
  cases loop with
  | false => rfl
  | true => rfl

/-- The next expiry moves it as the unit does. -/
theorem decayAfter_succ (loop : Bool) (expiries : Nat) :
    decayAfter loop (expiries + 1)
      = if 0 < decayAfter loop expiries then decayAfter loop expiries - 1
        else if loop then 15 else 0 := by
  cases loop with
  | false =>
    simp only [decayAfter, Bool.false_eq_true, if_false]
    split
    · omega
    · omega
  | true =>
    -- At zero the sixteen levels have been gone through, and the count starts over.
    simp only [decayAfter, if_true]
    split
    · omega
    · omega

theorem decayAfter_le (loop : Bool) (expiries : Nat) : decayAfter loop expiries ≤ 15 := by
  unfold decayAfter
  split
  · omega
  · omega

/-! ### Any number of clocks -/

/-- Clocks before the next expiry take the divider down, and nothing else. -/
theorem iterate_clock_rest (hstart : e.start = false) {n : Nat} (h : n ≤ e.divider) :
    clock^[n] e = { e with divider := e.divider - n } := by
  induction n with
  | zero => rfl
  | succ n ih =>
    have hrest : { e with divider := e.divider - n }.clock
        = { e with divider := e.divider - n - 1 } :=
      clock_of_divider_pos hstart (Nat.sub_pos_of_lt h)
    rw [Function.iterate_succ_apply', ih (Nat.le_of_succ_le h), hrest, Nat.sub_sub]

/-- A whole count of the divider ends in one expiry. -/
theorem iterate_clock_period (hstart : e.start = false) (h : e.divider = e.period) :
    clock^[e.period + 1] e
      = { e with decay := if 0 < e.decay then e.decay - 1 else if e.loop then 15 else 0 } := by
  have hdown : clock^[e.period] e = { e with divider := 0 } := by
    rw [iterate_clock_rest hstart (Nat.le_of_eq h.symm), h, Nat.sub_self]
  rw [Function.iterate_succ_apply', hdown,
    clock_of_divider_zero (e := { e with divider := 0 }) hstart rfl, ← h]

/-- From a restart, whole counts of the divider. -/
theorem iterate_clock_count (hstart : e.start = false) (hdivider : e.divider = e.period)
    (hdecay : e.decay = 15) (expiries : Nat) :
    clock^[(e.period + 1) * expiries] e = { e with decay := decayAfter e.loop expiries } := by
  induction expiries with
  | zero =>
    rw [decayAfter_zero, ← hdecay]
    rfl
  | succ expiries ih =>
    rw [Nat.mul_succ, Nat.add_comm, Function.iterate_add_apply, ih]
    -- The state in between has the same period and a full divider.
    have hcount := iterate_clock_period
      (e := { e with decay := decayAfter e.loop expiries }) hstart hdivider
    rw [decayAfter_succ]
    exact hcount

/-- The restart and `n` clocks after it. -/
theorem iterate_clock (hstart : e.start = true) (n : Nat) :
    clock^[n + 1] e
      = { e with
          start := false
          divider := e.period - n % (e.period + 1)
          decay := decayAfter e.loop (n / (e.period + 1)) } := by
  have hrest : n % (e.period + 1) ≤ e.period := Nat.le_of_lt_succ (Nat.mod_lt n (by omega))
  have hcounts := iterate_clock_count
    (e := { e with start := false, decay := 15, divider := e.period }) rfl rfl rfl
    (n / (e.period + 1))
  calc clock^[n + 1] e
      = clock^[n % (e.period + 1) + (e.period + 1) * (n / (e.period + 1))] e.clock := by
        rw [Nat.mod_add_div, Function.iterate_succ_apply]
    _ = _ := by
        rw [Function.iterate_add_apply, clock_of_start hstart]
        dsimp only at hcounts
        rw [hcounts, iterate_clock_rest rfl hrest]

/-- The envelope in closed form. Take any state whose period `p` has four bits and in which a
restart is due, and clock it `1 + n` times. Without the loop flag the decay has gone down from
fifteen by one for each `p + 1` of the `n` clocks, and no further than to zero; with it, it goes
around from zero to fifteen. The divider is where it is in its count, and the volume is the period
if it is constant, and the decay otherwise. Nothing else has changed. -/
theorem decay_course (e : Envelope) (hperiod : e.period ≤ 15) (hstart : e.start = true) (n : Nat) :
    let p := e.period
    let d := clock^[1 + n] e
    (d.decay : Int)
        = (if e.loop then 15 - ((n / (p + 1) % 16 : Nat) : Int)
          else max 0 (15 - ((n / (p + 1) : Nat) : Int))) ∧
      d.divider = p - n % (p + 1) ∧
      d.volume = (if e.constantVolume then p else d.decay) ∧
      d = { e with start := false, divider := d.divider, decay := d.decay } := by
  intro p d
  have hcourse : d = { e with
      start := false
      divider := p - n % (p + 1)
      decay := decayAfter e.loop (n / (p + 1)) } := by
    rw [show d = clock^[1 + n] e from rfl, Nat.add_comm, iterate_clock hstart]
  have hdecay : d.decay = decayAfter e.loop (n / (p + 1)) := by rw [hcourse]
  have hdivider : d.divider = p - n % (p + 1) := by rw [hcourse]
  refine ⟨?_, hdivider, ?_, ?_⟩
  · rw [hdecay, decayAfter]
    split
    · omega
    · omega
  · have hle : d.decay ≤ 15 := by
      rw [hdecay]
      exact decayAfter_le _ _
    have hconstant : d.constantVolume = e.constantVolume := by rw [hcourse]
    have hsame : d.period = p := by rw [hcourse]
    rw [volume, hconstant, hsame, Nat.mod_eq_of_lt (show p < 16 by omega),
      Nat.mod_eq_of_lt (show d.decay < 16 by omega)]
  · rw [hdivider, hdecay]
    exact hcourse

/-- A looping envelope of period three, sixty-seven clocks after its restart: the sixteenth expiry
has taken it back to fifteen, and the divider has been counting down for three clocks again. -/
theorem looped_decay_restarts :
    let e : Envelope :=
      { constantVolume := false, loop := true, start := true, period := 3, decay := 7 }
    let d := clock^[1 + 67] e
    e.period ≤ 15 ∧ e.start = true ∧ d.decay = 15 ∧ d.divider = 0 ∧ d.volume = 15 := by
  intro e d
  obtain ⟨hdecay, hdivider, hvolume, -⟩ := decay_course e (by decide) rfl 67
  change (d.decay : Int) = 15 - ((67 / 4 % 16 : Nat) : Int) at hdecay
  change d.divider = 3 - 67 % 4 at hdivider
  have hlevel : d.decay = 15 := by omega
  exact ⟨by decide, rfl, hlevel, hdivider, hvolume.trans hlevel⟩

end Chiptune.Envelope
