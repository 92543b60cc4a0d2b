import Chiptune.Proofs.Chip.Bounds
import Chiptune.Proofs.Chip.DeltaPlayback
import Chiptune.Proofs.Chip.PulseRun
import Mathlib.Data.Nat.Count
import Mathlib.Logic.Function.Iterate

/-!
# `Chiptune.Proofs.Chip.Timers`: at which clocks the timers expire

Each voice has a timer that counts its clocks down, expires, and starts over at its reload. The
voices store that count differently. A pulse and the triangle add the period to a count of one, the
noise counts in steps of two, the delta voice stops with its sample. `VoiceTimer` is what they have
in common: the clock, whether the next clock is an expiry, and how many clocks are left up to it.

What carries the proof is one balance. After `n` clocks, those and the clocks left make up the
clocks that were left at first and one reload for each expiry so far
(`VoiceTimer.clocks_add_left`). Since no more than a reload is left behind an expiry, the balance
names the clocks that are expiries (`VoiceTimer.expiresAt_iff`).

Pulses and noise are clocked when the toggle of the chip stands at even, so how many of `n` clocks
of the chip reach them depends on where the toggle stands (`Chip.clocks_eq`).

* `Chip.timers_cycle_exact`: the main statement, over every run from power-up.
-/

set_option autoImplicit false

namespace Chiptune

/-- The timer of a voice with states in `α`. -/
structure VoiceTimer (α : Type) where
  clock : α → α
  /-- The next clock makes it expire. -/
  expires : α → Bool
  /-- Clocks up to the next expiry, that one included. -/
  left : α → Nat

namespace VoiceTimer

variable {α β : Type} (t : VoiceTimer α) {reload : Nat} {a : α} {m n : Nat}

/-- The `m`-th clock from here, counted from one, makes the timer expire. -/
def ExpiresAt (a : α) (m : Nat) : Prop := ∃ j, m = j + 1 ∧ t.expires (t.clock^[j] a) = true

/-- Expiries among the next `n` clocks. -/
def expiries (n : Nat) (a : α) : Nat := Nat.count (fun j => t.expires (t.clock^[j] a) = true) n

/-- One clock of a count that starts over at `reload`. -/
structure CountsDown (reload : Nat) (a : α) : Prop where
  expires : t.expires a = true ↔ t.left a = 1
  left : t.left (t.clock a) = if t.left a = 1 then reload else t.left a - 1

theorem expiries_succ (n : Nat) (a : α) :
    t.expiries (n + 1) a
      = t.expiries n a + if t.expires (t.clock^[n] a) = true then 1 else 0 := Nat.count_succ _ n

variable {t}

/-- The clocks done and the clocks left make up the first count and one reload for each expiry. -/
theorem clocks_add_left (hreload : 0 < reload)
    (hstep : ∀ j < n, 0 < t.left (t.clock^[j] a) → t.CountsDown reload (t.clock^[j] a))
    (hleft : 0 < t.left a) :
    n + t.left (t.clock^[n] a) = t.left a + t.expiries n a * reload ∧
      0 < t.left (t.clock^[n] a) ∧ (0 < t.expiries n a → t.left (t.clock^[n] a) ≤ reload) := by
  induction n with
  | zero => simpa [expiries] using hleft
  | succ n ih =>
    obtain ⟨hbalance, hpos, hle⟩ := ih fun j hj => hstep j (Nat.lt_succ_of_lt hj)
    have hcounts := hstep n (Nat.lt_succ_self n) hpos
    have hnext := hcounts.left
    rw [← Function.iterate_succ_apply' t.clock n a] at hnext
    rw [expiries_succ, hnext]
    by_cases hlast : t.left (t.clock^[n] a) = 1
    · -- An expiry: the balance is up by one reload on both sides.
      rw [if_pos hlast, if_pos (hcounts.expires.mpr hlast), Nat.add_one_mul]
      omega
    · have hwaits : ¬ t.expires (t.clock^[n] a) = true := fun h => hlast (hcounts.expires.mp h)
      rw [if_neg hlast, if_neg hwaits, Nat.add_zero (t.expiries n a)]
      omega

/-- A timer expires at the clock that its first count names, and from then on at every reload. -/
theorem expiresAt_iff (hreload : 0 < reload)
    (hstep : ∀ j < m, 0 < t.left (t.clock^[j] a) → t.CountsDown reload (t.clock^[j] a))
    (hleft : 0 < t.left a) :
    t.ExpiresAt a m ↔ ∃ i, m = t.left a + i * reload := by
  cases m with
  | zero =>
    constructor
    · rintro ⟨j, hj, -⟩
      omega
    · rintro ⟨i, hi⟩
      omega
  | succ n =>
  obtain ⟨hbalance, hpos, hle⟩ :=
    clocks_add_left hreload (fun j hj => hstep j (Nat.lt_succ_of_lt hj)) hleft
  have hexpires := (hstep n (Nat.lt_succ_self n) hpos).expires
  constructor
  · rintro ⟨j, hj, hnow⟩
    obtain rfl : n = j := by omega
    refine ⟨t.expiries n a, ?_⟩
    rw [← hbalance, hexpires.mp hnow]
  · rintro ⟨i, hi⟩
    refine ⟨n, rfl, hexpires.mpr ?_⟩
    -- Were more than one clock left, a whole reload would be, and then no expiry has been.
    obtain hearly | hnow | hlate := Nat.lt_trichotomy i (t.expiries n a)
    · have hmore : i * reload + reload ≤ t.expiries n a * reload := by
        rw [← Nat.succ_mul]
        exact Nat.mul_le_mul_right reload hearly
      have := hle (Nat.zero_lt_of_lt hearly)
      omega
    · rw [← hnow] at hbalance
      omega
    · have hmore : t.expiries n a * reload + reload ≤ i * reload := by
        rw [← Nat.succ_mul]
        exact Nat.mul_le_mul_right reload hlate
      omega

/-- What moves at each expiry, and at no other clock, has moved once for each of them. -/
theorem iterate_moves {f : α → β} {move : β → β}
    (hmoves : ∀ j < n, f (t.clock (t.clock^[j] a))
      = if t.expires (t.clock^[j] a) = true then move (f (t.clock^[j] a))
        else f (t.clock^[j] a)) :
    f (t.clock^[n] a) = move^[t.expiries n a] (f a) := by
  induction n with
  | zero => rfl
  | succ n ih =>
    rw [Function.iterate_succ_apply', hmoves n (Nat.lt_succ_self n), expiries_succ,
      ih fun j hj => hmoves j (Nat.lt_succ_of_lt hj)]
    split
    · rw [Function.iterate_succ_apply']
    · rfl

/-- What no clock changes, any number of them leaves. -/
theorem iterate_keeps {f : α → β} (hkeeps : ∀ b, f (t.clock b) = f b) (n : Nat) (a : α) :
    f (t.clock^[n] a) = f a := by
  induction n with
  | zero => rfl
  | succ n ih => rw [Function.iterate_succ_apply', hkeeps, ih]

end VoiceTimer

/-! ### The timers of the voices -/

namespace Pulse

/-- A count of one or below expires. -/
def timer : VoiceTimer Pulse :=
  { clock := clockTimer, expires := fun p => p.counter ≤ 1, left := counter }

variable {p : Pulse}

theorem countsDown (h : 0 < p.counter) : timer.CountsDown (p.period + 1) p := by
  refine ⟨?_, ?_⟩
  · show decide (p.counter ≤ 1) = true ↔ p.counter = 1
    rw [decide_eq_true_iff]
    omega
  · show p.clockTimer.counter = if p.counter = 1 then p.period + 1 else p.counter - 1
    unfold clockTimer
    by_cases hlast : p.counter = 1
    · rw [if_pos (Nat.le_of_eq hlast), if_pos hlast]
      show p.counter + p.period = p.period + 1
      omega
    · rw [if_neg (show ¬ p.counter ≤ 1 by omega), if_neg hlast]

theorem period_clockTimer (p : Pulse) : p.clockTimer.period = p.period := by
  unfold clockTimer
  split
  · rfl
  · rfl

/-- What an expiry does to the position in the waveform. -/
def stepBack (period position : Nat) : Nat :=
  if 0 < period then (position + 7) % 8 else position

theorem dutyPosition_clockTimer (p : Pulse) :
    p.clockTimer.dutyPosition
      = if timer.expires p = true then stepBack p.period p.dutyPosition else p.dutyPosition := by
  simp only [timer, decide_eq_true_iff, clockTimer]
  split
  · rfl
  · rfl

/-- Back by so many positions around the circle of eight. -/
theorem iterate_stepBack (period n : Nat) {position : Nat} (h : position < 8) :
    (((stepBack period)^[n] position : Nat) : Int)
      = if 0 < period then ((position : Int) - n) % 8 else position := by
  induction n with
  | zero =>
    show (position : Int) = if 0 < period then ((position : Int) - (0 : Nat)) % 8 else position
    split
    · omega
    · rfl
  | succ n ih =>
    rw [Function.iterate_succ_apply', stepBack]
    split
    · next hpos =>
      rw [if_pos hpos] at ih
      omega
    · next hzero =>
      rw [if_neg hzero] at ih
      exact ih

theorem expiresAt_iff (h : 0 < p.counter) (m : Nat) :
    timer.ExpiresAt p m ↔ ∃ i, m = p.counter + i * (p.period + 1) := by
  refine VoiceTimer.expiresAt_iff (Nat.succ_pos p.period) ?_ h
  intro j _ hpos
  rw [← timer.iterate_keeps period_clockTimer j p]
  exact countsDown hpos

theorem dutyPosition_iterate (hposition : p.dutyPosition < 8) (n : Nat) :
    ((clockTimer^[n] p).dutyPosition : Int)
      = if 0 < p.period then ((p.dutyPosition : Int) - timer.expiries n p) % 8
        else p.dutyPosition := by
  rw [← iterate_stepBack p.period (timer.expiries n p) hposition]
  refine congrArg Nat.cast (VoiceTimer.iterate_moves (t := timer) (f := dutyPosition) ?_)
  intro j _
  rw [← timer.iterate_keeps period_clockTimer j p]
  exact dutyPosition_clockTimer _

end Pulse

namespace Triangle

/-- A count of one or below expires. -/
def timer : VoiceTimer Triangle :=
  { clock := clockTimer, expires := fun t => t.counter ≤ 1, left := counter }

variable {t : Triangle}

theorem countsDown (h : 0 < t.counter) : timer.CountsDown (t.period + 1) t := by
  refine ⟨?_, ?_⟩
  · show decide (t.counter ≤ 1) = true ↔ t.counter = 1
    rw [decide_eq_true_iff]
    omega
  · show t.clockTimer.counter = if t.counter = 1 then t.period + 1 else t.counter - 1
    unfold clockTimer
    by_cases hlast : t.counter = 1
    · rw [if_pos (Nat.le_of_eq hlast), if_pos hlast]
      show t.counter + t.period = t.period + 1
      omega
    · rw [if_neg (show ¬ t.counter ≤ 1 by omega), if_neg hlast]

/-- Both counters run. -/
def stepping (t : Triangle) : Bool := t.length.running && 0 < t.linear

theorem period_clockTimer (t : Triangle) : t.clockTimer.period = t.period := by
  unfold clockTimer
  split
  · rfl
  · rfl

theorem stepping_clockTimer (t : Triangle) : t.clockTimer.stepping = t.stepping := by
  unfold clockTimer
  split
  · rfl
  · rfl

/-- What an expiry does to the step of the waveform. -/
def stepOn (stepping : Bool) (step : Nat) : Nat := if stepping then (step + 1) % 32 else step

theorem step_clockTimer (t : Triangle) :
    t.clockTimer.step = if timer.expires t = true then stepOn t.stepping t.step else t.step := by
  simp only [timer, decide_eq_true_iff, clockTimer]
  split
  · rfl
  · rfl

theorem iterate_stepOn (stepping : Bool) (n : Nat) {step : Nat} (h : step < 32) :
    (stepOn stepping)^[n] step = if stepping then (step + n) % 32 else step := by
  induction n with
  | zero =>
    show step = if stepping then (step + 0) % 32 else step
    split
    · omega
    · rfl
  | succ n ih =>
    rw [Function.iterate_succ_apply', ih, stepOn]
    split
    · omega
    · rfl

theorem expiresAt_iff (h : 0 < t.counter) (m : Nat) :
    timer.ExpiresAt t m ↔ ∃ i, m = t.counter + i * (t.period + 1) := by
  refine VoiceTimer.expiresAt_iff (Nat.succ_pos t.period) ?_ h
  intro j _ hpos
  rw [← timer.iterate_keeps period_clockTimer j t]
  exact countsDown hpos

theorem step_iterate (hstep : t.step < 32) (n : Nat) :
    (clockTimer^[n] t).step
      = if t.stepping then (t.step + timer.expiries n t) % 32 else t.step := by
  rw [← iterate_stepOn t.stepping (timer.expiries n t) hstep]
  refine VoiceTimer.iterate_moves (t := timer) (f := step) ?_
  intro j _
  rw [← timer.iterate_keeps stepping_clockTimer j t]
  exact step_clockTimer _

end Triangle

namespace Noise

/-- A count of two or below expires. The count goes down in steps of two. -/
def timer : VoiceTimer Noise :=
  { clock := clockTimer, expires := fun n => n.counter ≤ 2, left := fun n => (n.counter + 1) / 2 }

/-- Clocks from one expiry to the next. -/
def reload (n : Noise) : Nat := noisePeriodOf n.periodIndex / 2

/-- Every period of the table is a whole number of steps. -/
theorem noisePeriodOf_even (i : Nat) : noisePeriodOf i % 2 = 0 := by
  rw [noisePeriodOf, Array.getD_eq_getD_getElem?]
  cases hi : noisePeriodTable[i]? with
  | none => rfl
  | some period =>
    have hall : ∀ period ∈ noisePeriodTable, period % 2 = 0 := by decide
    exact hall period (Array.mem_of_getElem? hi)

variable {n : Noise}

theorem reload_pos (h : n.periodIndex ≤ 15) : 0 < n.reload := by
  have hall : ∀ i : Fin 16, 0 < noisePeriodOf i / 2 := by decide
  exact hall ⟨n.periodIndex, Nat.lt_succ_of_le h⟩

theorem even_clockTimer (h : n.counter % 2 = 0) : n.clockTimer.counter % 2 = 0 := by
  have hperiod := noisePeriodOf_even n.periodIndex
  unfold clockTimer
  split
  · show (n.counter + noisePeriodOf n.periodIndex - 2) % 2 = 0
    omega
  · show (n.counter - 2) % 2 = 0
    omega

theorem countsDown (hindex : n.periodIndex ≤ 15) (h : 0 < (n.counter + 1) / 2) :
    timer.CountsDown n.reload n := by
  have heven := noisePeriodOf_even n.periodIndex
  have hpos := reload_pos hindex
  have hreload : n.reload = noisePeriodOf n.periodIndex / 2 := rfl
  refine ⟨?_, ?_⟩
  · show decide (n.counter ≤ 2) = true ↔ (n.counter + 1) / 2 = 1
    rw [decide_eq_true_iff]
    omega
  · show (n.clockTimer.counter + 1) / 2
      = if (n.counter + 1) / 2 = 1 then n.reload else (n.counter + 1) / 2 - 1
    unfold clockTimer
    by_cases hlast : n.counter ≤ 2
    · rw [if_pos hlast, if_pos (by omega)]
      show (n.counter + noisePeriodOf n.periodIndex - 2 + 1) / 2 = n.reload
      omega
    · rw [if_neg hlast, if_neg (by omega)]
      show (n.counter - 2 + 1) / 2 = (n.counter + 1) / 2 - 1
      omega

theorem periodIndex_clockTimer (n : Noise) : n.clockTimer.periodIndex = n.periodIndex := by
  unfold clockTimer
  split
  · rfl
  · rfl

theorem tap_clockTimer (n : Noise) : n.clockTimer.tap = n.tap := by
  unfold clockTimer
  split
  · rfl
  · rfl

theorem shiftRegister_clockTimer (n : Noise) :
    n.clockTimer.shiftRegister
      = if timer.expires n = true then shiftWith n.tap n.shiftRegister else n.shiftRegister := by
  simp only [timer, decide_eq_true_iff, clockTimer]
  split
  · rfl
  · rfl

theorem expiresAt_iff (hindex : n.periodIndex ≤ 15) (h : 0 < (n.counter + 1) / 2) (m : Nat) :
    timer.ExpiresAt n m ↔ ∃ i, m = (n.counter + 1) / 2 + i * n.reload := by
  refine VoiceTimer.expiresAt_iff (reload_pos hindex) ?_ h
  intro j _ hpos
  have hsame : (clockTimer^[j] n).periodIndex = n.periodIndex :=
    timer.iterate_keeps periodIndex_clockTimer j n
  have hreload : (clockTimer^[j] n).reload = n.reload := by rw [reload, hsame, reload]
  rw [← hreload]
  exact countsDown (by rw [hsame]; exact hindex) hpos

/-- Each of the expiries shifts the register once. -/
theorem shiftRegister_iterate (n : Noise) (clocks : Nat) :
    (clockTimer^[clocks] n).shiftRegister
      = (shiftWith n.tap)^[timer.expiries clocks n] n.shiftRegister := by
  refine VoiceTimer.iterate_moves (t := timer) (f := shiftRegister) ?_
  intro j _
  rw [← timer.iterate_keeps tap_clockTimer j n]
  exact shiftRegister_clockTimer _

end Noise

namespace Dmc

/-- A playing voice expires at a count of one or below. -/
def timer : VoiceTimer Dmc := { clock := clockTimer, expires := expires, left := counter }

theorem deltaRateOf_pos {i : Nat} (h : i ≤ 15) : 0 < deltaRateOf i := by
  have hall : ∀ j : Fin 16, 0 < deltaRateOf j := by decide
  exact hall ⟨i, Nat.lt_succ_of_le h⟩

variable {d : Dmc}

theorem counter_startSample (d : Dmc) : d.startSample.counter = d.counter := by
  unfold startSample
  dsimp only
  split
  · rfl
  · rfl

theorem counter_fetch (d : Dmc) : d.fetch.counter = d.counter := by
  unfold fetch
  split
  · rfl
  · rfl

/-- The reader does not touch the timer. -/
theorem counter_nextBit (d : Dmc) : d.nextBit.counter = d.counter := by
  have hrefill : d.refill.counter = d.counter := by
    unfold refill
    split
    · rfl
    · split
      · exact d.counter_fetch
      · split
        · dsimp only
          split
          · exact d.counter_startSample
          · exact d.startSample.counter_fetch.trans d.counter_startSample
        · rfl
  unfold nextBit
  dsimp only
  split
  · exact hrefill
  · exact hrefill

theorem countsDown (hplays : d.silent = false) (h : 0 < d.counter) :
    timer.CountsDown (deltaRateOf d.rateIndex) d := by
  refine ⟨?_, ?_⟩
  · show d.expires = true ↔ d.counter = 1
    simp only [expires, hplays, Bool.not_false, Bool.true_and, decide_eq_true_iff]
    omega
  · show d.clockTimer.counter
      = if d.counter = 1 then deltaRateOf d.rateIndex else d.counter - 1
    unfold clockTimer
    rw [if_neg (by simp [hplays])]
    by_cases hlast : d.counter = 1
    · rw [if_pos (Nat.le_of_eq hlast), if_pos hlast, counter_nextBit]
      show d.counter + deltaRateOf d.rateIndex - 1 = deltaRateOf d.rateIndex
      omega
    · rw [if_neg (show ¬ d.counter ≤ 1 by omega), if_neg hlast]

/-- A voice that plays has played all along: clocks alone do not start it. -/
theorem silent_iterate_of_le {j n : Nat} (hjn : j ≤ n) (h : (clockTimer^[n] d).silent = false) :
    (clockTimer^[j] d).silent = false := by
  by_contra hsilent
  have hfixed : (clockTimer^[j] d).clockTimer = clockTimer^[j] d :=
    clockTimer_of_silent (Bool.eq_true_of_not_eq_false hsilent)
  have hsame : clockTimer^[n] d = clockTimer^[j] d := by
    rw [← Nat.sub_add_cancel hjn, Function.iterate_add_apply, Function.iterate_fixed hfixed]
  exact hsilent (hsame ▸ h)

theorem expiresAt_iff (hindex : d.rateIndex ≤ 15) (h : 0 < d.counter) {m : Nat}
    (hplays : (clockTimer^[m - 1] d).silent = false) :
    timer.ExpiresAt d m ↔ ∃ i, m = d.counter + i * deltaRateOf d.rateIndex := by
  refine VoiceTimer.expiresAt_iff (deltaRateOf_pos hindex) ?_ h
  intro j hj hpos
  have hsetup : (clockTimer^[j] d).setup = d.setup := timer.iterate_keeps setup_clockTimer j d
  have hrate : (clockTimer^[j] d).rateIndex = d.rateIndex := congrArg Setup.rateIndex hsetup
  rw [← hrate]
  exact countsDown (silent_iterate_of_le (Nat.le_sub_one_of_lt hj) hplays) hpos

end Dmc

/-! ### The counts of a reachable chip -/

namespace Pulse

theorem counter_clockSweep (p : Pulse) : p.clockSweep.counter = p.counter := by
  unfold clockSweep
  dsimp only
  split
  · split
    · rfl
    · rfl
  · rfl

/-- No operation leaves a count of zero behind, so that none has to put a count there. -/
theorem counter_pos_run {p : Pulse} (h : 0 < p.counter) (op : PulseOp) :
    0 < (op.run p).counter := by
  cases op with
  | clockTimer =>
    have hnext : p.clockTimer.counter = if p.counter = 1 then p.period + 1 else p.counter - 1 :=
      (countsDown h).left
    show 0 < p.clockTimer.counter
    rw [hnext]
    split
    · omega
    · omega
  | clockSweep =>
    show 0 < p.clockSweep.counter
    rw [counter_clockSweep]
    exact h
  | writeTimerHigh value =>
    show 0 < if p.counter = 0 then _ + 1 else p.counter
    split
    · omega
    · exact h
  | reset => exact Nat.one_pos
  | _ => exact h

theorem counter_pos_after (onesComplement : Bool) (ops : List PulseOp) :
    0 < ((powerUp onesComplement).after ops).counter :=
  after_induction (P := fun p => 0 < p.counter) (fun _ op h => counter_pos_run h op)
    (powerUp onesComplement) ops Nat.one_pos

end Pulse

namespace Chip

theorem pulse_counter_pos (sampleRate : UInt32) (ops : List ChipOp) (id : PulseId) :
    0 < (((powerUp sampleRate).after ops).pulse id).counter := by
  obtain ⟨pulseOps, hpulse⟩ := exists_pulse_after sampleRate ops id
  rw [hpulse]
  exact Pulse.counter_pos_after id.onesComplement pulseOps

theorem Bounded.pulse {c : Chip} (h : c.Bounded) (id : PulseId) : (c.pulse id).Bounded := by
  cases id with
  | one => exact h.pulse1
  | two => exact h.pulse2

/-- Writes do not reach the noise timer's count. -/
theorem noise_counter_dispatch (c : Chip) (register : Register) (value : UInt8) :
    (c.dispatch register value).noise.counter = c.noise.counter := by
  cases register with
  | pulseControl id | pulseSweep id | pulseTimerLow id | pulseTimerHigh id => cases id <;> rfl
  | frameCounter =>
    show (c.writeFrameCounter value).noise.counter = c.noise.counter
    unfold writeFrameCounter
    dsimp only
    split
    · rfl
    · rfl
  | _ => rfl

theorem noise_counter_frameTick (c : Chip) : c.frameTick.noise.counter = c.noise.counter := by
  show (c.clockLinear.clockEvents c.sequencer.events).noise.counter = c.noise.counter
  unfold clockEvents
  dsimp only
  split
  · split
    · rfl
    · rfl
  · split
    · rfl
    · rfl

theorem noise_even_clock {c : Chip} (h : c.noise.counter % 2 = 0) :
    c.clock.noise.counter % 2 = 0 := by
  unfold clock
  split
  · exact Noise.even_clockTimer h
  · exact h

/-- The noise counts in steps of two, down from counts that are even. -/
theorem noise_even_run {c : Chip} (h : c.noise.counter % 2 = 0) (op : ChipOp) :
    (op.run c).noise.counter % 2 = 0 := by
  cases op with
  | write register value =>
    show (c.write register value).noise.counter % 2 = 0
    have hnoted := (Voice.view_eq_iff.mp
      (Voice.view_remember (v := .noise) (c := c) register value)).1
    rw [write, noise_counter_dispatch]
    show (Voice.state .noise _).counter % 2 = 0
    rw [hnoted]
    exact h
  | frameTick =>
    show c.frameTick.noise.counter % 2 = 0
    rw [noise_counter_frameTick]
    exact h
  | clock => exact noise_even_clock h
  | sample options =>
    have hclocks : c.runSampleClocks.noise.counter % 2 = 0 :=
      drain_induction (P := fun d => d.noise.counter % 2 = 0) (fun _ => noise_even_clock)
        (fun _ _ h => h) maxClocksPerSample _ h
    obtain ⟨_, _, _, _, hemit⟩ := c.runSampleClocks.emit_eq options
    show (c.runSampleClocks.emit options).2.noise.counter % 2 = 0
    rw [hemit]
    exact hclocks
  | load data offset => exact h
  | reset => rfl
  | setRate sampleRate => exact h

theorem noise_even_after (sampleRate : UInt32) (ops : List ChipOp) :
    ((powerUp sampleRate).after ops).noise.counter % 2 = 0 :=
  after_induction (P := fun c => c.noise.counter % 2 = 0) (fun _ op h => noise_even_run h op)
    (powerUp sampleRate) ops rfl

/-! ### Clocks of the chip -/

/-- What `n` clocks of a chip have done to its timers. Each reaches the triangle and the delta
voice. Every other one reaches the pulses and the noise, beginning with the first if the toggle
stands at even. -/
structure Clocked (c : Chip) (n : Nat) (d : Chip) : Prop where
  toggle : d.evenClock = ((n + c.evenClock.toNat) % 2 == 1)
  triangle : d.triangle = Triangle.clockTimer^[n] c.triangle
  dmc : d.dmc = Dmc.clockTimer^[n] c.dmc
  pulse : ∀ id, d.pulse id = Pulse.clockTimer^[(n + c.evenClock.toNat) / 2] (c.pulse id)
  noise : d.noise = Noise.clockTimer^[(n + c.evenClock.toNat) / 2] c.noise

theorem clocked_zero (c : Chip) : Clocked c 0 c := by
  have hhalf : (0 + c.evenClock.toNat) / 2 = 0 := by
    have := c.evenClock.toNat_lt
    omega
  refine ⟨?_, rfl, rfl, ?_, ?_⟩
  · cases c.evenClock with
    | false => rfl
    | true => rfl
  · intro id
    rw [hhalf]
    rfl
  · rw [hhalf]
    rfl

theorem Clocked.clock {c d : Chip} {n : Nat} (h : Clocked c n d) : Clocked c (n + 1) d.clock := by
  have htriangle : d.triangle.clockTimer = Triangle.clockTimer^[n + 1] c.triangle := by
    rw [Function.iterate_succ_apply', h.triangle]
  have hdmc : d.dmc.clockTimer = Dmc.clockTimer^[n + 1] c.dmc := by
    rw [Function.iterate_succ_apply', h.dmc]
  have htoggle := h.toggle
  unfold Chip.clock
  split
  · next heven =>
    -- The sum is odd, so that half of it is one more than before.
    rw [heven, eq_comm, beq_iff_eq] at htoggle
    have hhalf : (n + 1 + c.evenClock.toNat) / 2 = (n + c.evenClock.toNat) / 2 + 1 := by omega
    refine ⟨?_, htriangle, hdmc, ?_, ?_⟩
    · show false = _
      rw [eq_comm, beq_eq_false_iff_ne]
      omega
    · intro id
      have hpulse := h.pulse id
      rw [hhalf, Function.iterate_succ_apply', ← hpulse]
      cases id with
      | one => rfl
      | two => rfl
    · rw [hhalf, Function.iterate_succ_apply', ← h.noise]
  · next hodd =>
    rw [Bool.eq_false_iff.mpr hodd, eq_comm, beq_eq_false_iff_ne] at htoggle
    have hhalf : (n + 1 + c.evenClock.toNat) / 2 = (n + c.evenClock.toNat) / 2 := by omega
    refine ⟨?_, htriangle, hdmc, ?_, ?_⟩
    · show true = _
      rw [eq_comm, beq_iff_eq]
      omega
    · intro id
      rw [hhalf, ← h.pulse id]
      cases id with
      | one => rfl
      | two => rfl
    · rw [hhalf]
      exact h.noise

theorem clocked (c : Chip) (n : Nat) : Clocked c n (c.after (List.replicate n .clock)) := by
  induction n with
  | zero => exact c.clocked_zero
  | succ n ih =>
    rw [List.replicate_succ', after_append]
    exact ih.clock

/-- The timers are exact to the clock. Take any chip that a run reaches from power-up.

* The counts are in range. That of a pulse is not zero, so that a write of the high timer register
  leaves it as it is.
* After `n` clocks and nothing else, the timers of the triangle and of the delta voice have been
  clocked `n` times, and those of the pulses and the noise half as often: `n` is rounded up if the
  toggle stands at even, and down otherwise. Each expiry among these clocks has taken the waveform
  of a pulse one position back, if its period is not zero, that of the triangle one step on, if both
  its counters run, and has shifted the register of the noise once.
* A timer with `count` clocks left and the reload `T` expires at its own clocks `count`,
  `count + T`, `count + 2 * T` and so on, and at no other. The count of the noise goes down in twos.
  The delta voice expires so for as long as it plays. -/
theorem timers_cycle_exact (sampleRate : UInt32) (past : List ChipOp) :
    let c := (powerUp sampleRate).after past
    ((∀ id, 1 ≤ (c.pulse id).counter ∧ (c.pulse id).counter ≤ 2048 ∧
        ∀ value, ((c.write (.pulseTimerHigh id) value).pulse id).counter = (c.pulse id).counter) ∧
      c.triangle.counter ≤ 2048 ∧ c.noise.counter % 2 = 0 ∧ c.noise.counter ≤ 4068 ∧
      c.dmc.counter ≤ 428) ∧
    (∀ n,
      let d := c.after (List.replicate n .clock)
      let half := (n + if c.evenClock then 1 else 0) / 2
      d.triangle = Triangle.clockTimer^[n] c.triangle ∧
      d.dmc = Dmc.clockTimer^[n] c.dmc ∧
      (∀ id, d.pulse id = Pulse.clockTimer^[half] (c.pulse id)) ∧
      d.noise = Noise.clockTimer^[half] c.noise ∧
      (∀ id, ((d.pulse id).dutyPosition : Int)
        = if 0 < (c.pulse id).period then
            (((c.pulse id).dutyPosition : Int) - Pulse.timer.expiries half (c.pulse id)) % 8
          else (c.pulse id).dutyPosition) ∧
      d.triangle.step
        = (if 0 < c.triangle.length.count ∧ 0 < c.triangle.linear then
            (c.triangle.step + Triangle.timer.expiries n c.triangle) % 32
          else c.triangle.step) ∧
      d.noise.shiftRegister
        = (Noise.shiftWith c.noise.tap)^[Noise.timer.expiries half c.noise]
            c.noise.shiftRegister) ∧
    (∀ id m, Pulse.timer.ExpiresAt (c.pulse id) m ↔
      ∃ i, m = (c.pulse id).counter + i * ((c.pulse id).period + 1)) ∧
    (1 ≤ c.triangle.counter → ∀ m, Triangle.timer.ExpiresAt c.triangle m ↔
      ∃ i, m = c.triangle.counter + i * (c.triangle.period + 1)) ∧
    (∀ count, 1 ≤ count → c.noise.counter = 2 * count → ∀ m,
      Noise.timer.ExpiresAt c.noise m ↔
        ∃ i, m = count + i * (noisePeriodOf c.noise.periodIndex / 2)) ∧
    (1 ≤ c.dmc.counter → ∀ m, (Dmc.clockTimer^[m - 1] c.dmc).silent = false →
      (Dmc.timer.ExpiresAt c.dmc m ↔
        ∃ i, m = c.dmc.counter + i * deltaRateOf c.dmc.rateIndex)) := by
  intro c
  have hbounded : c.Bounded := bounded_after sampleRate past
  have hpos : ∀ id, 0 < (c.pulse id).counter := pulse_counter_pos sampleRate past
  refine ⟨⟨?_, hbounded.triangle.counter, noise_even_after sampleRate past,
    hbounded.noise.counter, hbounded.dmc.counter⟩, ?_, ?_, ?_, ?_, ?_⟩
  · intro id
    refine ⟨hpos id, (hbounded.pulse id).counter, ?_⟩
    intro value
    have hcount := hpos id
    have hwrite : ((c.write (.pulseTimerHigh id) value).pulse id).counter
        = if (c.pulse id).counter = 0 then
            (c.pulse id).period % 256 + Byte.field value 0 3 * 256 + 1
          else (c.pulse id).counter := by
      cases id with
      | one => rfl
      | two => rfl
    rw [hwrite, if_neg (by omega)]
  · intro n d half
    have hclocked : Clocked c n d := c.clocked n
    have hhalf : (n + c.evenClock.toNat) / 2 = half := by
      show _ = (n + if c.evenClock then 1 else 0) / 2
      cases c.evenClock with
      | false => rfl
      | true => rfl
    have hpulse := hclocked.pulse
    have hnoise := hclocked.noise
    rw [hhalf] at hnoise
    rw [hhalf] at hpulse
    refine ⟨hclocked.triangle, hclocked.dmc, hpulse, hnoise, ?_, ?_, ?_⟩
    · intro id
      rw [hpulse id]
      exact Pulse.dutyPosition_iterate (Nat.lt_succ_of_le (hbounded.pulse id).dutyPosition) half
    · rw [hclocked.triangle,
        Triangle.step_iterate (Nat.lt_succ_of_le hbounded.triangle.step) n]
      simp only [Triangle.stepping, LengthCounter.running, Bool.and_eq_true, decide_eq_true_iff]
    · rw [hnoise]
      exact Noise.shiftRegister_iterate c.noise half
  · intro id m
    exact Pulse.expiresAt_iff (hpos id) m
  · exact Triangle.expiresAt_iff
  · intro count hcount hcounter m
    have hleft : (c.noise.counter + 1) / 2 = count := by omega
    have hexpires := Noise.expiresAt_iff hbounded.noise.periodIndex (by omega) m
    rw [hleft] at hexpires
    exact hexpires
  · intro hcount m
    exact Dmc.expiresAt_iff hbounded.dmc.rateIndex hcount

/-- Three clocks into a looping sample, with a pulse and the triangle at period two and the noise at
period sixteen, the toggle stands at even. The expiries of the next clocks are where the counts of
3, 3, 14 and 51 put them, and seventeen clocks hold three of the pulse and one of the noise. -/
theorem timers_expire_on_time :
    let c := (powerUp 44100).after
      [.load #[0xFF] 0, .write .dmcControl 0x4F, .write .dmcSampleAddress 0x00,
        .write .dmcSampleLength 0x00, .write .status 0x10, .write (.pulseTimerLow .one) 2,
        .write .triangleTimerLow 2, .write .noisePeriod 0x02, .clock, .clock, .clock]
    let d := c.after (List.replicate 17 .clock)
    Pulse.timer.ExpiresAt (c.pulse .one) 9 ∧ ¬ Pulse.timer.ExpiresAt (c.pulse .one) 8 ∧
      Triangle.timer.ExpiresAt c.triangle 6 ∧ Noise.timer.ExpiresAt c.noise 15 ∧
      Dmc.timer.ExpiresAt c.dmc 105 ∧ (d.pulse .one).dutyPosition = 4 ∧
      d.noise.shiftRegister = 0x2000 := by
  intro c d
  obtain ⟨-, hclocks, hpulse, htriangle, hnoise, hdmc⟩ := timers_cycle_exact 44100
    [.load #[0xFF] 0, .write .dmcControl 0x4F, .write .dmcSampleAddress 0x00,
      .write .dmcSampleLength 0x00, .write .status 0x10, .write (.pulseTimerLow .one) 2,
      .write .triangleTimerLow 2, .write .noisePeriod 0x02, .clock, .clock, .clock]
  obtain ⟨-, -, -, -, hduty, -, hshift⟩ := hclocks 17
  have hcount : (c.pulse .one).counter = 3 := by decide +kernel
  have hperiod : (c.pulse .one).period = 2 := by decide +kernel
  refine ⟨?_, ?_, ?_, ?_, ?_, ?_, ?_⟩
  · exact (hpulse .one 9).mpr ⟨2, by decide +kernel⟩
  · intro hexpires
    obtain ⟨i, hi⟩ := (hpulse .one 8).mp hexpires
    change 8 = (c.pulse .one).counter + i * ((c.pulse .one).period + 1) at hi
    rw [hcount, hperiod] at hi
    omega
  · exact (htriangle (by decide +kernel) 6).mpr ⟨1, by decide +kernel⟩
  · exact (hnoise 7 (by decide) (by decide +kernel) 15).mpr ⟨1, by decide +kernel⟩
  · exact (hdmc (by decide +kernel) 105 (by decide +kernel)).mpr ⟨1, by decide +kernel⟩
  · exact Int.ofNat_inj.mp ((hduty .one).trans (by decide +kernel))
  · exact hshift.trans (by decide +kernel)

end Chip

end Chiptune
