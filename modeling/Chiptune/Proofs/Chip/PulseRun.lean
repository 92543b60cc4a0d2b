import Chiptune.Proofs.Chip.Separation

/-!
# `Chiptune.Proofs.Chip.PulseRun`: runs of a pulse voice

`PulseOp` names everything that can happen to a pulse voice by itself: writes to its registers, its
bit of the status register, the clocks of timer, envelope, length and sweep, each by itself, and
resets. `Pulse.after` carries out a list of them, the oldest first.

To a pulse, an operation of the chip is a list of these (`Chip.PulsesReached.each`): a half-frame
clocks the length and then the sweep, a sample is the timer clocks that fall into it. So what holds
of every run of a voice from power-up holds of both pulses of every chip that a run reaches
(`Chip.exists_pulse_after`).
-/

set_option autoImplicit false

namespace Chiptune

/-- Something that happens to a pulse voice. -/
inductive PulseOp where
  | writeControl (value : UInt8)
  | writeSweep (value : UInt8)
  | writeTimerLow (value : UInt8)
  | writeTimerHigh (value : UInt8)
  | setEnabled (enabled : Bool)
  | clockTimer
  | clockEnvelope
  | clockLength
  | clockSweep
  | reset
deriving DecidableEq

namespace PulseOp

/-- Carries out an operation. A reset keeps how the sweep negates. -/
def run (op : PulseOp) (p : Pulse) : Pulse :=
  match op with
  | writeControl value => p.writeControl value
  | writeSweep value => p.writeSweep value
  | writeTimerLow value => p.writeTimerLow value
  | writeTimerHigh value => p.writeTimerHigh value
  | setEnabled enabled => p.setEnabled enabled
  | clockTimer => p.clockTimer
  | clockEnvelope => p.clockEnvelope
  | clockLength => p.clockLength
  | clockSweep => p.clockSweep
  | reset => .powerUp p.sweep.onesComplement

/-- Whether the operation is a clock: neither a register write nor a reset. -/
def isClock : PulseOp → Bool
  | clockTimer | clockEnvelope | clockLength | clockSweep => true
  | writeControl _ | writeSweep _ | writeTimerLow _ | writeTimerHigh _ | setEnabled _ => false
  | reset => false

end PulseOp

/-- A clock of the divider changes the divider and the reload, and nothing of the settings. -/
theorem Sweep.clockDivider_eq (s : Sweep) :
    ∃ (divider : Nat) (reload : Bool),
      s.clockDivider.2 = { s with divider := divider, reload := reload } := by
  unfold clockDivider
  split
  · exact ⟨s.period, false, rfl⟩
  · split
    · exact ⟨s.divider - 1, s.reload, rfl⟩
    · exact ⟨s.period, s.reload, rfl⟩

namespace Pulse

/-- The voice after a list of operations. -/
def after (p : Pulse) (ops : List PulseOp) : Pulse := ops.foldl (fun p op => op.run p) p

@[simp] theorem after_nil (p : Pulse) : p.after [] = p := rfl

@[simp] theorem after_cons (p : Pulse) (op : PulseOp) (ops : List PulseOp) :
    p.after (op :: ops) = (op.run p).after ops := rfl

@[simp] theorem after_append (p : Pulse) (ops more : List PulseOp) :
    p.after (ops ++ more) = (p.after ops).after more := List.foldl_append

/-- What every operation keeps, every run keeps. -/
theorem after_induction {P : Pulse → Prop}
    (step : ∀ (p : Pulse) (op : PulseOp), P p → P (op.run p)) (p : Pulse) (ops : List PulseOp)
    (h : P p) : P (p.after ops) := by
  induction ops generalizing p with
  | nil => exact h
  | cons op rest ih => exact ih (op.run p) (step p op h)

/-- A half-frame clocks the divider of the sweep and changes nothing else of the unit. -/
theorem sweep_clockSweep (p : Pulse) : p.clockSweep.sweep = p.sweep.clockDivider.2 := by
  unfold clockSweep
  dsimp only
  split
  · split
    · rfl
    · rfl
  · rfl

/-- How the sweep negates never changes. -/
theorem onesComplement_run (op : PulseOp) (p : Pulse) :
    (op.run p).sweep.onesComplement = p.sweep.onesComplement := by
  cases op with
  | clockTimer =>
    show p.clockTimer.sweep.onesComplement = _
    unfold Pulse.clockTimer
    split
    · rfl
    · rfl
  | clockSweep =>
    obtain ⟨_, _, hdivider⟩ := p.sweep.clockDivider_eq
    show p.clockSweep.sweep.onesComplement = _
    rw [sweep_clockSweep, hdivider]
  | _ => rfl

theorem onesComplement_after (onesComplement : Bool) (ops : List PulseOp) :
    ((powerUp onesComplement).after ops).sweep.onesComplement = onesComplement :=
  after_induction (P := fun p => p.sweep.onesComplement = onesComplement)
    (fun p op h => (onesComplement_run op p).trans h) (powerUp onesComplement) ops rfl

end Pulse

/-! ### The pulses of a chip -/

/-- The first pulse negates in ones' complement. -/
def PulseId.onesComplement : PulseId → Bool
  | one => true
  | two => false

namespace Chip

/-- One of the pulse voices. -/
def pulse (c : Chip) : PulseId → Pulse
  | .one => c.pulse1
  | .two => c.pulse2

/-- Both pulses are in states that runs of a voice reach from power-up. -/
def PulsesReached (c : Chip) : Prop :=
  ∀ id : PulseId, ∃ ops : List PulseOp, c.pulse id = (Pulse.powerUp id.onesComplement).after ops

theorem pulsesReached_powerUp (sampleRate : UInt32) : (powerUp sampleRate).PulsesReached := by
  intro id
  refine ⟨[], ?_⟩
  cases id with
  | one => rfl
  | two => rfl

section
variable {c d : Chip}

/-- Each pulse may go on by a list of operations of its own. -/
theorem PulsesReached.each (h : c.PulsesReached) (ops : PulseId → List PulseOp)
    (hone : d.pulse1 = c.pulse1.after (ops .one)) (htwo : d.pulse2 = c.pulse2.after (ops .two)) :
    d.PulsesReached := by
  intro id
  obtain ⟨before, hbefore⟩ := h id
  refine ⟨before ++ ops id, ?_⟩
  rw [Pulse.after_append, ← hbefore]
  cases id with
  | one => exact hone
  | two => exact htwo

/-- Both may go on by the same list. -/
theorem PulsesReached.both (h : c.PulsesReached) (ops : List PulseOp)
    (hone : d.pulse1 = c.pulse1.after ops) (htwo : d.pulse2 = c.pulse2.after ops) :
    d.PulsesReached :=
  h.each (fun _ => ops) hone htwo

theorem PulsesReached.same (h : c.PulsesReached) (hone : d.pulse1 = c.pulse1)
    (htwo : d.pulse2 = c.pulse2) : d.PulsesReached :=
  h.both [] hone htwo

theorem PulsesReached.mapPulse (h : c.PulsesReached) (id : PulseId) (op : PulseOp) :
    (c.mapPulse id op.run).PulsesReached := by
  cases id with
  | one => exact h.each (fun | .one => [op] | .two => []) rfl rfl
  | two => exact h.each (fun | .one => [] | .two => [op]) rfl rfl

theorem PulsesReached.writeStatus (h : c.PulsesReached) (value : UInt8) :
    (c.writeStatus value).PulsesReached :=
  h.each
    (fun | .one => [.setEnabled (Byte.bit value 0)] | .two => [.setEnabled (Byte.bit value 1)])
    rfl rfl

theorem PulsesReached.clockEnvelopes (h : c.PulsesReached) : c.clockEnvelopes.PulsesReached :=
  h.both [.clockEnvelope] rfl rfl

theorem PulsesReached.clockHalfFrame (h : c.PulsesReached) : c.clockHalfFrame.PulsesReached :=
  h.both [.clockLength, .clockSweep] rfl rfl

theorem PulsesReached.writeFrameCounter (h : c.PulsesReached) (value : UInt8) :
    (c.writeFrameCounter value).PulsesReached := by
  have hc : { c with sequencer := c.sequencer.write value : Chip }.clockLinear.PulsesReached :=
    h.same rfl rfl
  unfold Chip.writeFrameCounter
  dsimp only
  split
  · exact hc.clockEnvelopes.clockHalfFrame
  · exact h.same rfl rfl

theorem PulsesReached.dispatch (h : c.PulsesReached) (register : Register) (value : UInt8) :
    (c.dispatch register value).PulsesReached := by
  cases register with
  | pulseControl id => exact h.mapPulse id (.writeControl value)
  | pulseSweep id => exact h.mapPulse id (.writeSweep value)
  | pulseTimerLow id => exact h.mapPulse id (.writeTimerLow value)
  | pulseTimerHigh id => exact h.mapPulse id (.writeTimerHigh value)
  | status => exact h.writeStatus value
  | frameCounter => exact h.writeFrameCounter value
  | _ => exact h.same rfl rfl

theorem PulsesReached.write (h : c.PulsesReached) (register : Register) (value : UInt8) :
    (c.write register value).PulsesReached := by
  refine PulsesReached.dispatch ?_ register value
  unfold remember
  split
  · exact h.same rfl rfl
  · exact h.same rfl rfl

theorem PulsesReached.clockEvents (h : c.PulsesReached) (events : FrameEvents) :
    (c.clockEvents events).PulsesReached := by
  unfold Chip.clockEvents
  dsimp only
  split
  · split
    · exact h.clockHalfFrame.clockEnvelopes
    · exact h.clockEnvelopes
  · split
    · exact h.clockHalfFrame
    · exact h

theorem PulsesReached.frameTick (h : c.PulsesReached) : c.frameTick.PulsesReached := by
  have hlinear : c.clockLinear.PulsesReached := h.same rfl rfl
  exact (hlinear.clockEvents c.clockLinear.sequencer.events).same rfl rfl

/-- The pulses run at half the rate. -/
theorem PulsesReached.clock (h : c.PulsesReached) : c.clock.PulsesReached := by
  unfold Chip.clock
  split
  · exact h.both [.clockTimer] rfl rfl
  · exact h.same rfl rfl

theorem PulsesReached.sample (h : c.PulsesReached) (options : RenderOptions) :
    (c.nextSample options).2.PulsesReached := by
  have hclocks : c.runSampleClocks.PulsesReached :=
    drain_induction (P := PulsesReached) (fun _ h => h.clock) (fun _ _ h => h.same rfl rfl)
      maxClocksPerSample _ h
  obtain ⟨_, _, _, _, hemit⟩ := c.runSampleClocks.emit_eq options
  show (c.runSampleClocks.emit options).2.PulsesReached
  rw [hemit]
  exact hclocks.same rfl rfl

end

/-- The pulses of a chip go through runs of a voice. -/
theorem exists_pulse_after (sampleRate : UInt32) (ops : List ChipOp) (id : PulseId) :
    ∃ pulseOps : List PulseOp, ((powerUp sampleRate).after ops).pulse id
      = (Pulse.powerUp id.onesComplement).after pulseOps := by
  refine after_induction (P := PulsesReached) ?_ _ ops (pulsesReached_powerUp sampleRate) id
  intro c op h
  cases op with
  | write register value => exact h.write register value
  | load data offset => exact h.same rfl rfl
  | frameTick => exact h.frameTick
  | clock => exact h.clock
  | sample options => exact h.sample options
  | reset => exact (pulsesReached_powerUp c.sampleRate).same rfl rfl
  | setRate sampleRate => exact h.same rfl rfl

end Chip

end Chiptune
