import Chiptune.Proofs.Chip.PulseRun

/-!
# `Chiptune.Proofs.Chip.Gating`: what silences a pulse

A pulse does not look at its period when it gives a level. It looks at two flags that are settled
when the period or the sweep changes: one for a period that is too low, one for a sweep that heads
out of range. `Pulse.Silenced` says the same without the flags, from what the registers hold now.

The obvious invariant, that both flags are what `Pulse.settleMuting` would set, does not hold at
power-up: the period is zero and the flag for a low period is clear. What holds of every state a run
reaches is `Pulse.Settled`, which leaves that flag open at period zero. The level is zero there
whatever the flags are.
-/

set_option autoImplicit false

namespace Chiptune

namespace Pulse

/-- What silences a voice, from its registers as they are: it is off, its length has run out, its
period is too low, its sweep heads for a period above the largest, or its waveform is low. -/
def Silenced (p : Pulse) : Prop :=
  p.enabled = false ∨ p.length.count = 0 ∨ p.period < 8 ∨
    (0 < p.sweep.shift ∧ 0x7FF < p.sweepTarget) ∨ dutyBit p.duty p.dutyPosition = 0

instance (p : Pulse) : Decidable p.Silenced := inferInstanceAs (Decidable (_ ∨ _))

/-- What the two flags have to do with the period and the sweep. At period zero the first may be
stale. -/
structure Settled (p : Pulse) : Prop where
  tooLow : p.period = 0 ∨ p.periodTooLow = decide (p.period < minPulsePeriod)
  muting : p.sweepMuting = p.sweep.mutes p.period

variable {p : Pulse}

theorem settled_powerUp (onesComplement : Bool) : (powerUp onesComplement).Settled :=
  ⟨Or.inl rfl, rfl⟩

/-- At power-up the flag for a low period is stale. -/
example : (powerUp true).period < minPulsePeriod ∧ (powerUp true).periodTooLow = false := by
  decide

theorem settled_settleMuting (p : Pulse) : p.settleMuting.Settled := ⟨Or.inr rfl, rfl⟩

/-- An expiry that changes the period settles the flags again, and the divider has no part in
them. -/
theorem Settled.clockSweep (h : p.Settled) : p.clockSweep.Settled := by
  have hdivider : { p with sweep := p.sweep.clockDivider.2 : Pulse }.Settled := by
    obtain ⟨_, _, hdivider⟩ := p.sweep.clockDivider_eq
    rw [hdivider]
    exact ⟨h.tooLow, h.muting⟩
  unfold Pulse.clockSweep
  dsimp only
  split
  · split
    · exact settled_settleMuting _
    · exact hdivider
  · exact hdivider

/-- Every operation keeps the flags settled. -/
theorem Settled.run (h : p.Settled) (op : PulseOp) : (op.run p).Settled := by
  cases op with
  | writeSweep value => exact settled_settleMuting _
  | writeTimerLow value => exact settled_settleMuting _
  | writeTimerHigh value => exact ⟨Or.inr rfl, rfl⟩
  | clockTimer =>
    show p.clockTimer.Settled
    unfold Pulse.clockTimer
    split
    · exact ⟨h.tooLow, h.muting⟩
    · exact ⟨h.tooLow, h.muting⟩
  | clockSweep => exact h.clockSweep
  | reset => exact settled_powerUp _
  | writeControl value | setEnabled enabled | clockEnvelope | clockLength =>
    exact ⟨h.tooLow, h.muting⟩

theorem settled_after (onesComplement : Bool) (ops : List PulseOp) :
    ((powerUp onesComplement).after ops).Settled :=
  after_induction (fun _ op h => h.run op) _ ops (settled_powerUp onesComplement)

/-- The guard against period zero makes up for a flag that is stale there. -/
theorem Settled.tooLow_iff (h : p.Settled) :
    p.periodTooLow = true ∨ p.period = 0 ↔ p.period < 8 := by
  rcases h.tooLow with hzero | hflag
  · simp [hzero]
  · rw [hflag, decide_eq_true_iff]
    show p.period < 8 ∨ p.period = 0 ↔ p.period < 8
    omega

theorem Settled.muting_iff (h : p.Settled) :
    p.sweepMuting = true ↔ 0 < p.sweep.shift ∧ 0x7FF < p.sweepTarget := by
  rw [h.muting]
  unfold Sweep.mutes
  rw [Bool.and_eq_true, decide_eq_true_iff, decide_eq_true_iff]
  rfl

/-- With settled flags, the waveform is low exactly where the registers silence the voice. -/
theorem Settled.waveform_eq_zero_iff (h : p.Settled) : p.waveform = 0 ↔ p.Silenced := by
  have hlength : p.length.running = false ↔ p.length.count = 0 := by
    simp [LengthCounter.running]
  have hgate : p.Silenced
      ↔ (!p.enabled || !p.length.running || p.periodTooLow || p.sweepMuting || p.period == 0) = true
        ∨ dutyBit p.duty p.dutyPosition = 0 := by
    unfold Silenced
    rw [← h.tooLow_iff, ← h.muting_iff, ← hlength]
    simp only [Bool.or_eq_true, Bool.not_eq_true', beq_iff_eq]
    grind
  rw [hgate]
  unfold waveform
  split
  next hgated => exact iff_of_true rfl (Or.inl hgated)
  next hopen => exact (or_iff_right hopen).symm

/-- With settled flags, the level is zero exactly where the registers silence the voice, or the
volume is. -/
theorem Settled.output_eq (h : p.Settled) :
    p.output = if p.Silenced then 0 else p.envelope.volume := by
  unfold output
  simp only [h.waveform_eq_zero_iff]

/-- Gating is never stale. After every run of a voice from power-up, with either way to negate, the
level is zero where the registers silence it, and the volume of the envelope otherwise. -/
theorem gating_fresh (onesComplement : Bool) (ops : List PulseOp) :
    let p := (powerUp onesComplement).after ops
    p.output = if p.Silenced then 0 else p.envelope.volume :=
  (settled_after onesComplement ops).output_eq

end Pulse

/-- The same of both pulses of a chip, after every run of the chip. -/
theorem Chip.pulse_output (sampleRate : UInt32) (ops : List ChipOp) (id : PulseId) :
    let p := ((powerUp sampleRate).after ops).pulse id
    p.output = if p.Silenced then 0 else p.envelope.volume := by
  obtain ⟨pulseOps, hpulse⟩ := exists_pulse_after sampleRate ops id
  dsimp only
  rw [hpulse]
  exact (Pulse.settled_after id.onesComplement pulseOps).output_eq

end Chiptune
