import Chiptune.Proofs.Chip.Lengths

/-!
# `Chiptune.Proofs.Chip.FullClock`: two ways to clock everything once

There are two ways to clock every unit of the frame sequencer once: a tick at a full step, which
clocks half-frames before envelopes, and a write that chooses five steps, which clocks them the
other way around. `VoiceMap.fullClock` is what either does to the voices.

Only a pulse has units of both kinds that could get into each other's way: its sweep may change the
period in that very clock, and its envelope may have a restart pending. They touch different fields
(`Pulse.clockSweep_setEnvelope`), so the order does not matter
(`Chip.clockHalfFrame_clockEnvelopes`). This holds of every state, reachable or not.

`Chip.full_clocks_agree` is the main statement.
-/

set_option autoImplicit false

namespace Chiptune

namespace Pulse

/-- The sweep neither reads nor changes the envelope. -/
theorem clockSweep_setEnvelope (p : Pulse) (e : Envelope) :
    { p with envelope := e }.clockSweep = { p.clockSweep with envelope := e } := by
  -- The sweep acts at an expiry alone, and then if its target is in range.
  let q : Pulse := { p with sweep := p.sweep.clockDivider.2 }
  by_cases hacts : (p.sweep.clockDivider.1 && q.sweep.enabled && 0 < q.sweep.shift
      && !p.sweepMuting) = true
  · by_cases hrange : minPulsePeriod ≤ q.sweepTarget ∧ q.sweepTarget ≤ maxTimerPeriod
    · have hmoves : p.clockSweep = { q with period := q.sweepTarget }.settleMuting :=
        (if_pos hacts).trans (if_pos hrange)
      rw [hmoves]
      exact (if_pos hacts).trans (if_pos hrange)
    · have hstays : p.clockSweep = q := (if_pos hacts).trans (if_neg hrange)
      rw [hstays]
      exact (if_pos hacts).trans (if_neg hrange)
  · have hrests : p.clockSweep = q := if_neg hacts
    rw [hrests]
    exact if_neg hacts

theorem envelope_clockSweep (p : Pulse) : p.clockSweep.envelope = p.envelope := by
  calc p.clockSweep.envelope
      = { p with envelope := p.envelope }.clockSweep.envelope := rfl
    _ = p.envelope := by rw [clockSweep_setEnvelope]

/-- The envelope may be clocked before or after length and sweep. -/
theorem clockEnvelope_clockLength_clockSweep (p : Pulse) :
    p.clockEnvelope.clockLength.clockSweep = p.clockLength.clockSweep.clockEnvelope := by
  have hlength : p.clockLength.envelope = p.envelope := rfl
  calc p.clockEnvelope.clockLength.clockSweep
      = { p.clockLength with envelope := p.envelope.clock }.clockSweep := rfl
    _ = { p.clockLength.clockSweep with envelope := p.envelope.clock } :=
        p.clockLength.clockSweep_setEnvelope p.envelope.clock
    _ = p.clockLength.clockSweep.clockEnvelope := by
        rw [clockEnvelope, envelope_clockSweep, hlength]

end Pulse

namespace FrameSequencer

/-- A step that clocks envelopes and half-frame units. -/
def AtFullStep (s : FrameSequencer) : Prop := s.events = { envelope := true, halfFrame := true }

/-- These are every other step of four, and two of five. -/
theorem atFullStep_iff (s : FrameSequencer) :
    s.AtFullStep ↔
      if s.fiveStep then s.step % 5 = 1 ∨ s.step % 5 = 4 else s.step % 4 = 1 ∨ s.step % 4 = 3 := by
  unfold AtFullStep events steps
  cases s.fiveStep with
  | false =>
    have hstep : s.step % 4 < 4 := Nat.mod_lt _ (by omega)
    simp only [Bool.false_eq_true, if_false]
    generalize s.step % 4 = step at hstep
    revert step
    decide
  | true =>
    have hstep : s.step % 5 < 5 := Nat.mod_lt _ (by omega)
    simp only [if_true]
    generalize s.step % 5 = step at hstep
    revert step
    decide

end FrameSequencer

/-- Every unit that the frame sequencer clocks is clocked once. -/
def VoiceMap.fullClock : VoiceMap :=
  { pulse1 := fun p => p.clockLength.clockSweep.clockEnvelope
    pulse2 := fun p => p.clockLength.clockSweep.clockEnvelope
    triangle := fun t => t.clockLinear.clockLength
    noise := fun n => n.clockLength.clockEnvelope }

/-- Where the sequencer stands is no part of a voice. -/
theorem Voice.state_setSequencer (v : Voice) (c : Chip) (s : FrameSequencer) :
    v.state { c with sequencer := s } = v.state c := by
  cases v with
  | pulse id => cases id <;> rfl
  | triangle => rfl
  | noise => rfl
  | dmc => rfl

namespace Chip

/-- Envelopes and half-frame units may be clocked in either order. -/
theorem clockHalfFrame_clockEnvelopes (c : Chip) :
    c.clockEnvelopes.clockHalfFrame = c.clockHalfFrame.clockEnvelopes := by
  have hpulse := Pulse.clockEnvelope_clockLength_clockSweep
  unfold clockEnvelopes clockHalfFrame
  dsimp only
  rw [hpulse, hpulse]
  rfl

/-- A tick at a full step clocks everything once. -/
theorem state_frameTick {c : Chip} (h : c.sequencer.AtFullStep) (v : Voice) :
    v.state c.frameTick = VoiceMap.fullClock.on v (v.state c) := by
  have hevents : c.clockLinear.sequencer.events = { envelope := true, halfFrame := true } := h
  have htick : c.frameTick
      = { VoiceMap.fullClock.apply c with sequencer := c.sequencer.advance } := by
    unfold frameTick
    dsimp only
    rw [hevents]
    rfl
  rw [htick, Voice.state_setSequencer, Voice.state_apply]

/-- A write to the frame counter register, by the mode that it chooses. -/
theorem writeFrameCounter_eq_fullClock (c : Chip) (value : UInt8) :
    c.writeFrameCounter value
      = { (if Byte.bit value 7 then VoiceMap.fullClock.apply c else c) with
          sequencer := c.sequencer.write value } := by
  have hmode : (c.sequencer.write value).fiveStep = Byte.bit value 7 := rfl
  unfold writeFrameCounter
  dsimp only
  rw [hmode]
  cases Byte.bit value 7 with
  | false => rfl
  | true =>
    rw [if_pos rfl, if_pos rfl, clockHalfFrame_clockEnvelopes]
    rfl

/-- So does a write to the frame counter register that chooses five steps, and one that chooses four
leaves the voices alone. -/
theorem state_write_frameCounter (c : Chip) (value : UInt8) (v : Voice) :
    v.state (c.write .frameCounter value)
      = if Byte.bit value 7 then VoiceMap.fullClock.on v (v.state c) else v.state c := by
  have hnoted := Voice.view_writeFrameCounter
    (Voice.view_remember (v := v) (c := c) .frameCounter value) value
  have hwrite : v.state (c.write .frameCounter value) = v.state (c.writeFrameCounter value) :=
    (Voice.view_eq_iff.mp hnoted).1
  rw [hwrite, writeFrameCounter_eq_fullClock, Voice.state_setSequencer]
  split
  · exact v.state_apply VoiceMap.fullClock c
  · rfl

/-- Two ways to clock everything once come to the same. Take a chip in any state and a write of any
value to the frame counter register.

* If the value chooses five steps, the write leaves every voice in the state in which one tick
  leaves it when the sequencer stands at a full step, in either mode: linear counter, length
  counters, sweeps and envelopes are each clocked once. The mode is then five steps, at step zero.
* If it chooses four, no voice changes. -/
theorem full_clocks_agree (c : Chip) (value : UInt8) :
    ∃ d, c.writeAddress? 0x17 value = some d ∧
      (Byte.bit value 7 = true →
        (∀ (s : FrameSequencer) (v : Voice),
          (if s.fiveStep then s.step % 5 = 1 ∨ s.step % 5 = 4
            else s.step % 4 = 1 ∨ s.step % 4 = 3) →
          v.state d = v.state { c with sequencer := s }.frameTick) ∧
        d.pulse1 = c.pulse1.clockEnvelope.clockLength.clockSweep ∧
        d.pulse2 = c.pulse2.clockEnvelope.clockLength.clockSweep ∧
        d.triangle = c.triangle.clockLinear.clockLength ∧
        d.noise = c.noise.clockEnvelope.clockLength ∧
        d.dmc = c.dmc ∧
        d.sequencer.fiveStep = true ∧ d.sequencer.step = 0) ∧
      (Byte.bit value 7 = false → ∀ v : Voice, v.state d = v.state c) := by
  refine ⟨c.write .frameCounter value, rfl, ?_, ?_⟩
  · intro hfive
    have hstate : ∀ v : Voice,
        v.state (c.write .frameCounter value) = VoiceMap.fullClock.on v (v.state c) := by
      intro v
      rw [state_write_frameCounter, if_pos hfive]
    have hpulse := Pulse.clockEnvelope_clockLength_clockSweep
    refine ⟨?_, ?_, ?_, hstate .triangle, hstate .noise, hstate .dmc, ?_, ?_⟩
    · intro s v hfull
      rw [hstate, state_frameTick (s.atFullStep_iff.mpr hfull)]
      exact congrArg (VoiceMap.fullClock.on v) (v.state_setSequencer c s).symm
    · rw [hpulse]
      exact hstate (.pulse .one)
    · rw [hpulse]
      exact hstate (.pulse .two)
    · rw [sequencer_write]
      exact hfive
    · rw [sequencer_write]
      rfl
  · intro hfour v
    rw [state_write_frameCounter, if_neg (by simp [hfour])]

/-- A pulse with everything pending: the length counter runs, the envelope has yet to restart, and
the sweep is about to take a period of 256 to 384. The write that chooses five steps does all three
at once, and so does a tick at the last step of four; a write that chooses four does none. -/
theorem full_clock_moves_sweep :
    let pulse : Pulse :=
      { Pulse.powerUp true with
        enabled := true
        period := 256
        length := { count := 10 }
        envelope := { period := 3, start := true }
        sweep := { onesComplement := true, enabled := true, shift := 1 } }
    let c : Chip := { powerUp 44100 with pulse1 := pulse }
    ∃ d, c.writeAddress? 0x17 0x80 = some d ∧
      d.pulse1 = { c with sequencer := { step := 3 } }.frameTick.pulse1 ∧
      d.pulse1.period = 384 ∧ d.pulse1.length.count = 9 ∧ d.pulse1.envelope.decay = 15 ∧
      d.sequencer.fiveStep = true ∧ d.sequencer.step = 0 ∧
      ∃ e, c.writeAddress? 0x17 0x00 = some e ∧ e.pulse1 = pulse := by
  intro pulse c
  obtain ⟨d, hd, hfive, -⟩ := full_clocks_agree c 0x80
  obtain ⟨hticks, hpulse, -, -, -, -, hmode, hstep⟩ := hfive (by decide)
  obtain ⟨e, he, -, hfour⟩ := full_clocks_agree c 0x00
  have hlast := hticks { step := 3 } (.pulse .one) (by decide)
  refine ⟨d, hd, hlast, ?_, ?_, ?_, hmode, hstep, e, he, hfour (by decide) (.pulse .one)⟩
  · rw [hpulse]
    decide
  · rw [hpulse]
    decide
  · rw [hpulse]
    decide

end Chip

end Chiptune
