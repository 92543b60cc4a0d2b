import Chiptune.Proofs.Chip.Controls

/-!
# `Chiptune.Proofs.Chip.Ultrasonic`: when the triangle is mute

The triangle is to be mute at periods below two. Its output does not look at the period: it looks
at a flag that is settled when one of the two timer registers is written. No other operation
changes the period, so that from such a write on flag and period agree.

Power-up and reset leave a period of zero and a clear flag, which do not agree. A voice that is
switched on before its timer is written gives a level that is not zero. No length has been loaded
then, so its waveform does not move and the level is that of its first step.

* `Triangle.Settled`: what flag, period and waveform have to do with each other, depending on
  whether the timer has been written (`Past.timed`). Every operation keeps it (`Chip.Settled.run`).
* `Chip.ultrasonic_mute`: the main statement, over every run from power-up.
* `Chip.untimed_triangle_sounds`: a voice at period zero that is not mute.
-/

set_option autoImplicit false

namespace Chiptune

namespace Past

/-- Whether the triangle's timer has been written since the last reset. -/
def timed (past : List ChipOp) : Bool :=
  (written .triangleTimerLow past).isSome || (written .triangleTimerHigh past).isSome

theorem timed_of_other {op : ChipOp} (hop : op.setsRegisters = false) (past : List ChipOp) :
    timed (op :: past) = timed past := by
  unfold timed written
  rw [lastWrite_of_other _ hop, lastWrite_of_other _ hop]

end Past

namespace Triangle

/-- What the flag has to do with the period. Before the timer is written the flag is clear, and the
voice rests at period zero on its first step. -/
structure Settled (timed : Bool) (t : Triangle) : Prop where
  flag : t.periodTooLow = (timed && t.period < 2)
  rest : timed = false → t.period = 0 ∧ t.step = 0 ∧ t.length.running = false

variable {t : Triangle} {timed : Bool}

/-! ### What each operation of the voice keeps -/

theorem settled_init : Settled false {} := ⟨rfl, fun _ => ⟨rfl, rfl, rfl⟩⟩

/-- A write of either timer register settles the flag. -/
theorem settled_writeTimerLow (t : Triangle) (value : UInt8) :
    Settled true (t.writeTimerLow value) := ⟨rfl, nofun⟩

theorem settled_writeTimerHigh (t : Triangle) (value : UInt8) :
    Settled true (t.writeTimerHigh value) := ⟨rfl, nofun⟩

theorem Settled.writeLinear (h : t.Settled timed) (value : UInt8) :
    (t.writeLinear value).Settled timed := ⟨h.flag, h.rest⟩

theorem Settled.setEnabled (h : t.Settled timed) (enabled : Bool) :
    (t.setEnabled enabled).Settled timed := by
  refine ⟨h.flag, ?_⟩
  intro huntimed
  obtain ⟨hperiod, hstep, hlength⟩ := h.rest huntimed
  refine ⟨hperiod, hstep, ?_⟩
  show (t.length.gate enabled).running = false
  cases enabled with
  | true => exact hlength
  | false => rfl

/-- The waveform does not move while no length is loaded. -/
theorem Settled.clockTimer (h : t.Settled timed) : t.clockTimer.Settled timed := by
  unfold Triangle.clockTimer
  split
  · refine ⟨h.flag, ?_⟩
    intro huntimed
    obtain ⟨hperiod, hstep, hlength⟩ := h.rest huntimed
    refine ⟨hperiod, ?_, hlength⟩
    show (if t.length.running && 0 < t.linear then (t.step + 1) % 32 else t.step) = 0
    rw [hlength, Bool.false_and, if_neg Bool.false_ne_true, hstep]
  · exact ⟨h.flag, h.rest⟩

theorem Settled.clockLinear (h : t.Settled timed) : t.clockLinear.Settled timed :=
  ⟨h.flag, h.rest⟩

theorem Settled.clockLength (h : t.Settled timed) : t.clockLength.Settled timed := by
  refine ⟨h.flag, ?_⟩
  intro huntimed
  obtain ⟨hperiod, hstep, hlength⟩ := h.rest huntimed
  refine ⟨hperiod, hstep, ?_⟩
  -- A count of zero stays at zero.
  have hzero : ¬ 0 < t.length.count := of_decide_eq_false hlength
  show t.length.clock.running = false
  unfold LengthCounter.clock
  split
  · exact hlength
  · exact decide_eq_false (by show ¬ 0 < t.length.count - 1; omega)

/-! ### The output -/

theorem Settled.output_of_timed (h : t.Settled true) :
    t.output = if t.enabled = false ∨ t.period < 2 then 0 else triangleLevel t.step := by
  have hflag := h.flag
  rw [Bool.true_and] at hflag
  simp [output, hflag]

theorem Settled.output_of_untimed (h : t.Settled false) :
    t.output = if t.enabled then triangleLevel 0 else 0 := by
  obtain ⟨-, hstep, -⟩ := h.rest rfl
  have hflag : t.periodTooLow = false := h.flag
  cases henabled : t.enabled with
  | true => simp [output, henabled, hflag, hstep]
  | false => simp [output, henabled]

end Triangle

namespace Chip

/-! ### What each operation of the chip does to the voice -/

/-- Choosing five steps clocks the linear counter and the length counter. -/
theorem triangle_writeFrameCounter (c : Chip) (value : UInt8) :
    (c.writeFrameCounter value).triangle
      = if Byte.bit value 7 then c.triangle.clockLinear.clockLength else c.triangle := by
  have hmode : (c.sequencer.write value).fiveStep = Byte.bit value 7 := rfl
  unfold writeFrameCounter
  dsimp only
  rw [hmode]
  split
  · rfl
  · rfl

/-- A tick clocks the linear counter, and at some steps the length counter. -/
theorem triangle_frameTick (c : Chip) :
    c.frameTick.triangle
      = if c.sequencer.events.halfFrame then c.triangle.clockLinear.clockLength
        else c.triangle.clockLinear := by
  have hevents : c.frameTick.triangle
      = (c.clockLinear.clockEvents c.sequencer.events).triangle := rfl
  rw [hevents]
  unfold clockEvents
  dsimp only
  split
  · split
    · rfl
    · rfl
  · split
    · rfl
    · rfl

theorem triangle_clock (c : Chip) : c.clock.triangle = c.triangle.clockTimer := by
  unfold clock
  split
  · rfl
  · rfl

/-- Flag and period of the triangle are settled as a history calls for. -/
def Settled (past : List ChipOp) (c : Chip) : Prop := c.triangle.Settled (Past.timed past)

variable {c : Chip} {past : List ChipOp}

theorem Settled.dispatch (h : c.Settled past) (register : Register) (value : UInt8) :
    (c.dispatch register value).Settled (.write register value :: past) := by
  cases register with
  | triangleLinear => exact Triangle.Settled.writeLinear h value
  | triangleTimerLow => exact c.triangle.settled_writeTimerLow value
  | triangleTimerHigh =>
    -- The other timer register may have been written before, or not.
    have htimed : Past.timed (.write .triangleTimerHigh value :: past) = true :=
      Bool.or_true _
    unfold Settled
    rw [htimed]
    exact c.triangle.settled_writeTimerHigh value
  | status => exact Triangle.Settled.setEnabled h _
  | frameCounter =>
    show (c.writeFrameCounter value).triangle.Settled (Past.timed past)
    rw [triangle_writeFrameCounter]
    split
    · exact Triangle.Settled.clockLength (Triangle.Settled.clockLinear h)
    · exact h
  | pulseControl id | pulseSweep id | pulseTimerLow id | pulseTimerHigh id =>
    cases id with
    | one => exact h
    | two => exact h
  | _ => exact h

/-- Every operation keeps the flag settled. -/
theorem Settled.run (h : c.Settled past) (op : ChipOp) : (op.run c).Settled (op :: past) := by
  have hclock : ∀ d : Chip, d.Settled past → d.clock.Settled past := by
    intro d hd
    unfold Settled
    rw [triangle_clock]
    exact Triangle.Settled.clockTimer hd
  cases hop : op.setsRegisters with
  | true =>
    cases op with
    | write register value =>
      have hnoted := (Voice.view_eq_iff.mp
        (Voice.view_remember (v := .triangle) (c := c) register value)).1
      refine Settled.dispatch ?_ register value
      show Triangle.Settled _ (Voice.state .triangle _)
      rw [hnoted]
      exact h
    | reset => exact Triangle.settled_init
    | _ => nomatch hop
  | false =>
    unfold Settled
    rw [Past.timed_of_other hop]
    cases op with
    | write register value => nomatch hop
    | reset => nomatch hop
    | load data offset => exact h
    | setRate sampleRate => exact h
    | clock => exact hclock c h
    | frameTick =>
      show c.frameTick.triangle.Settled (Past.timed past)
      rw [triangle_frameTick]
      split
      · exact Triangle.Settled.clockLength (Triangle.Settled.clockLinear h)
      · exact Triangle.Settled.clockLinear h
    | sample options =>
      -- To the voice a sample is its clocks.
      have hview := Voice.view_nextSample (v := .triangle) (c := c) options
      have hstate : (c.nextSample options).2.triangle
          = (c.after (List.replicate c.sampleClocks .clock)).triangle :=
        (Voice.view_eq_iff.mp hview).1
      show (c.nextSample options).2.triangle.Settled (Past.timed past)
      rw [hstate]
      refine after_induction_mem (P := Settled past) ?_ c h
      intro d op hmem hd
      rw [List.eq_of_mem_replicate hmem]
      exact hclock d hd

theorem Settled.after (h : c.Settled past) (ops : List ChipOp) :
    (c.after ops).Settled (ops.reverse ++ past) := by
  induction ops generalizing c past with
  | nil => exact h
  | cons op rest ih =>
    rw [List.reverse_cons, List.append_assoc]
    exact ih (h.run op)

/-- The triangle is mute at ultrasonic periods, once its timer has been written. After every run
from power-up with a write to either of its timer registers since the last reset, the output is
zero if the voice is off or the period is below two, and the waveform at the current step
otherwise.

Before such a write the period is zero all the same, but a voice that is switched on gives the
level of its first step. -/
theorem ultrasonic_mute (sampleRate : UInt32) (ops : List ChipOp) :
    let t := ((powerUp sampleRate).after ops).triangle
    (Past.timed ops.reverse = true →
      t.output = if t.enabled = false ∨ t.period < 2 then 0 else triangleLevel t.step) ∧
    (Past.timed ops.reverse = false →
      t.period = 0 ∧ t.output = if t.enabled then 15 else 0) := by
  intro t
  have hafter : t.Settled (Past.timed ops.reverse) := by
    have hstart : (powerUp sampleRate).Settled [] := Triangle.settled_init
    have hrun := hstart.after ops
    rwa [List.append_nil] at hrun
  constructor
  · intro htimed
    rw [htimed] at hafter
    exact hafter.output_of_timed
  · intro huntimed
    rw [huntimed] at hafter
    exact ⟨(hafter.rest rfl).1, hafter.output_of_untimed⟩

/-- A triangle at period one is mute, and at period two it is not. -/
theorem shortest_period_heard :
    let low : List ChipOp := [.write .status 0x04, .write .triangleTimerLow 0x01]
    let high : List ChipOp := low ++ [.frameTick, .write .triangleTimerLow 0x02, .clock]
    ((powerUp 44100).after low).triangle.output = 0 ∧
      ((powerUp 44100).after high).triangle.output = 15 := by
  intro low high
  exact ⟨(ultrasonic_mute 44100 low).1 rfl, (ultrasonic_mute 44100 high).1 rfl⟩

/-- A triangle that is switched on before its timer is written gives its highest level at period
zero. -/
theorem untimed_triangle_sounds :
    let t := ((powerUp 44100).after [.write .status 0x04]).triangle
    t.period = 0 ∧ t.output = 15 ∧
      t.output ≠ if t.enabled = false ∨ t.period < 2 then 0 else triangleLevel t.step := by
  intro t
  exact ⟨rfl, rfl, by decide⟩

end Chip

end Chiptune
