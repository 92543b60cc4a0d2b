import Chiptune.Proofs.Chip.Run
import Mathlib.Algebra.Group.Nat.Defs

/-!
# `Chiptune.Proofs.Chip.Bounds`: the ranges that every reachable chip keeps

Each unit of the chip has a `Bounded` predicate: the ranges of its fields. The bounds feed one
another. A sweep moves the timer period only to a period of eleven bits, a change of the frame
mode starts the sequence over, a rate index stays inside its table. Every operation of a unit
keeps the unit's predicate, so that a run keeps `Chip.Bounded` (`Chip.bounded_after`).

The last field of each timer bound is the reason why a timer can be a number: its counts stay
far below the point where single precision stops counting in ones.
-/

set_option autoImplicit false

namespace Chiptune

/-- A field of `width` bits is at most the largest number of that width. -/
theorem Byte.field_le (value : UInt8) (low width : Nat) :
    Byte.field value low width ≤ 2 ^ width - 1 := by
  have h := Byte.field_lt value low width
  rw [Nat.one_shiftLeft] at h
  omega

/-! ### Tables -/

/-- An entry of a table, or the default behind its end, keeps a bound that all entries and
the default keep. -/
theorem getD_le {table : Array Nat} {bound : Nat} (h : ∀ a ∈ table, a ≤ bound) (i : Nat) :
    table.getD i 0 ≤ bound := by
  rw [Array.getD_eq_getD_getElem?]
  cases hi : table[i]? with
  | none => exact Nat.zero_le bound
  | some a => exact h a (Array.mem_of_getElem? hi)

theorem lengthOf_le (i : Nat) : lengthOf i ≤ 254 := getD_le (by decide) i

theorem triangleLevel_le (i : Nat) : triangleLevel i ≤ 15 := getD_le (by decide) i

theorem noisePeriodOf_le (i : Nat) : noisePeriodOf i ≤ 4068 := getD_le (by decide) i

theorem deltaRateOf_le (i : Nat) : deltaRateOf i ≤ 428 := getD_le (by decide) i

/-! ### Envelope, length counter and sweep -/

/-- Ranges of an envelope generator. -/
structure Envelope.Bounded (e : Envelope) : Prop where
  period : e.period ≤ 15
  divider : e.divider ≤ 15
  decay : e.decay ≤ 15

namespace Envelope

theorem bounded_init : Bounded {} := ⟨by decide, by decide, by decide⟩

theorem Bounded.writeControl {e : Envelope} (h : e.Bounded) (value : UInt8) :
    (e.writeControl value).Bounded :=
  { h with period := Byte.field_le value 0 4 }

theorem Bounded.restart {e : Envelope} (h : e.Bounded) : e.restart.Bounded := { h with }

theorem Bounded.clock {e : Envelope} (h : e.Bounded) : e.clock.Bounded := by
  have := h.divider
  have := h.decay
  unfold Envelope.clock
  split
  · -- A new start loads 15; otherwise the decay counts down or starts over at 15.
    exact ⟨h.period, h.period, Nat.le_refl 15⟩
  · split
    · exact ⟨h.period, show e.divider - 1 ≤ 15 by omega, h.decay⟩
    · refine ⟨h.period, h.period, ?_⟩
      show (if 0 < e.decay then e.decay - 1 else if e.loop then 15 else 0) ≤ 15
      split
      · omega
      · split <;> omega

/-- The volume has four bits whatever the state. -/
theorem volume_le (e : Envelope) : e.volume ≤ 15 := by
  unfold volume
  split <;> omega

end Envelope

/-- Range of a length counter. -/
structure LengthCounter.Bounded (c : LengthCounter) : Prop where
  count : c.count ≤ 254

namespace LengthCounter

theorem bounded_init : Bounded {} := ⟨by decide⟩

theorem Bounded.load (c : LengthCounter) (i : Nat) : (c.load i).Bounded := ⟨lengthOf_le i⟩

theorem Bounded.setHalt {c : LengthCounter} (h : c.Bounded) (halt : Bool) :
    (c.setHalt halt).Bounded := ⟨h.count⟩

theorem Bounded.gate {c : LengthCounter} (h : c.Bounded) (enabled : Bool) :
    (c.gate enabled).Bounded := by
  cases enabled with
  | true => exact h
  | false => exact ⟨Nat.zero_le 254⟩

theorem Bounded.clock {c : LengthCounter} (h : c.Bounded) : c.clock.Bounded := by
  unfold LengthCounter.clock
  split
  · exact h
  · exact ⟨Nat.le_trans (Nat.sub_le c.count 1) h.count⟩

end LengthCounter

/-- Ranges of a sweep unit. -/
structure Sweep.Bounded (s : Sweep) : Prop where
  period : s.period ≤ 7
  shift : s.shift ≤ 7
  divider : s.divider ≤ 7

namespace Sweep

theorem bounded_init (onesComplement : Bool) : Bounded { onesComplement := onesComplement } :=
  ⟨Nat.zero_le 7, Nat.zero_le 7, Nat.zero_le 7⟩

theorem Bounded.write {s : Sweep} (h : s.Bounded) (value : UInt8) : (s.write value).Bounded :=
  ⟨Byte.field_le value 4 3, Byte.field_le value 0 3, h.divider⟩

theorem Bounded.clockDivider {s : Sweep} (h : s.Bounded) : s.clockDivider.2.Bounded := by
  unfold Sweep.clockDivider
  split
  · exact ⟨h.period, h.shift, h.period⟩
  · split
    · exact ⟨h.period, h.shift, Nat.le_trans (Nat.sub_le s.divider 1) h.divider⟩
    · exact ⟨h.period, h.shift, h.period⟩

end Sweep

/-! ### Pulse voice -/

/-- Ranges of a pulse voice. -/
structure Pulse.Bounded (p : Pulse) : Prop where
  duty : p.duty ≤ 3
  dutyPosition : p.dutyPosition ≤ 7
  period : p.period ≤ 0x7FF
  length : p.length.Bounded
  envelope : p.envelope.Bounded
  sweep : p.sweep.Bounded
  counter : p.counter ≤ 0x800

/-- A period whose low eight bits are written keeps to eleven bits. -/
theorem timerLow_le (period : Nat) (value : UInt8) :
    period / 256 % 8 * 256 + value.toNat ≤ 0x7FF := by
  have hv := value.toNat_lt
  omega

/-- A period whose high three bits are written keeps to eleven bits. -/
theorem timerHigh_le (period : Nat) (value : UInt8) :
    period % 256 + Byte.field value 0 3 * 256 ≤ 0x7FF := by
  have hv : Byte.field value 0 3 ≤ 7 := Byte.field_le value 0 3
  omega

namespace Pulse

theorem bounded_powerUp (onesComplement : Bool) : (powerUp onesComplement).Bounded where
  duty := by show 0 ≤ 3; omega
  dutyPosition := by show 0 ≤ 7; omega
  period := by show 0 ≤ 0x7FF; omega
  length := LengthCounter.bounded_init
  envelope := Envelope.bounded_init
  sweep := Sweep.bounded_init onesComplement
  counter := by show 1 ≤ 0x800; omega

theorem Bounded.settleMuting {p : Pulse} (h : p.Bounded) : p.settleMuting.Bounded := { h with }

theorem Bounded.writeControl {p : Pulse} (h : p.Bounded) (value : UInt8) :
    (p.writeControl value).Bounded :=
  { h with
    duty := Byte.field_le value 6 2
    length := h.length.setHalt _
    envelope := h.envelope.writeControl value }

theorem Bounded.setSweep {p : Pulse} (h : p.Bounded) {sweep : Sweep} (hs : sweep.Bounded) :
    { p with sweep := sweep }.Bounded :=
  { h with sweep := hs }

theorem Bounded.setPeriod {p : Pulse} (h : p.Bounded) {period : Nat} (hp : period ≤ 0x7FF) :
    { p with period := period }.Bounded :=
  { h with period := hp }

theorem Bounded.writeSweep {p : Pulse} (h : p.Bounded) (value : UInt8) :
    (p.writeSweep value).Bounded :=
  (h.setSweep (h.sweep.write value)).settleMuting

theorem Bounded.writeTimerLow {p : Pulse} (h : p.Bounded) (value : UInt8) :
    (p.writeTimerLow value).Bounded :=
  (h.setPeriod (timerLow_le p.period value)).settleMuting

theorem Bounded.writeTimerHigh {p : Pulse} (h : p.Bounded) (value : UInt8) :
    (p.writeTimerHigh value).Bounded := by
  have hperiod := timerHigh_le p.period value
  have hcounter : (if p.counter = 0 then p.period % 256 + Byte.field value 0 3 * 256 + 1
      else p.counter) ≤ 0x800 := by
    have := h.counter
    split <;> omega
  exact
    { h with
      dutyPosition := Nat.zero_le 7
      period := hperiod
      length := LengthCounter.Bounded.load _ _
      envelope := h.envelope.restart
      counter := hcounter }

theorem Bounded.setEnabled {p : Pulse} (h : p.Bounded) (enabled : Bool) :
    (p.setEnabled enabled).Bounded :=
  { h with length := h.length.gate enabled }

theorem Bounded.clockTimer {p : Pulse} (h : p.Bounded) : p.clockTimer.Bounded := by
  have := h.period
  have := h.counter
  unfold Pulse.clockTimer
  split
  · have hposition : (if 0 < p.period then (p.dutyPosition + 7) % 8 else p.dutyPosition) ≤ 7 := by
      have := h.dutyPosition
      split <;> omega
    -- The timer has run out or is about to, so period and count add up to `0x800` at most.
    exact { h with dutyPosition := hposition, counter := show p.counter + p.period ≤ _ by omega }
  · exact { h with counter := show p.counter - 1 ≤ _ by omega }

theorem Bounded.clockEnvelope {p : Pulse} (h : p.Bounded) : p.clockEnvelope.Bounded :=
  { h with envelope := h.envelope.clock }

theorem Bounded.clockLength {p : Pulse} (h : p.Bounded) : p.clockLength.Bounded :=
  { h with length := h.length.clock }

/-- A sweep moves the period only when the new one has eleven bits. -/
theorem Bounded.clockSweep {p : Pulse} (h : p.Bounded) : p.clockSweep.Bounded := by
  -- The target is checked against eleven bits before it becomes the period.
  have hs := h.setSweep h.sweep.clockDivider
  unfold Pulse.clockSweep
  simp only
  split
  · split
    · next htarget => exact (hs.setPeriod htarget.2).settleMuting
    · exact hs
  · exact hs

theorem output_le (p : Pulse) : p.output ≤ 15 := by
  unfold output
  split
  · omega
  · exact p.envelope.volume_le

end Pulse

/-! ### Triangle voice -/

/-- Ranges of the triangle voice. -/
structure Triangle.Bounded (t : Triangle) : Prop where
  linearReload : t.linearReload ≤ 127
  linear : t.linear ≤ 127
  period : t.period ≤ 0x7FF
  length : t.length.Bounded
  step : t.step ≤ 31
  counter : t.counter ≤ 0x800

namespace Triangle

theorem bounded_init : Bounded {} where
  linearReload := by show 0 ≤ 127; omega
  linear := by show 0 ≤ 127; omega
  period := by show 0 ≤ 0x7FF; omega
  length := LengthCounter.bounded_init
  step := by show 0 ≤ 31; omega
  counter := by show 0 ≤ 0x800; omega

theorem Bounded.writeLinear {t : Triangle} (h : t.Bounded) (value : UInt8) :
    (t.writeLinear value).Bounded :=
  { h with linearReload := Byte.field_le value 0 7, length := h.length.setHalt _ }

theorem Bounded.writeTimerLow {t : Triangle} (h : t.Bounded) (value : UInt8) :
    (t.writeTimerLow value).Bounded :=
  { h with period := timerLow_le t.period value }

theorem Bounded.writeTimerHigh {t : Triangle} (h : t.Bounded) (value : UInt8) :
    (t.writeTimerHigh value).Bounded :=
  { h with period := timerHigh_le t.period value, length := LengthCounter.Bounded.load _ _ }

theorem Bounded.setEnabled {t : Triangle} (h : t.Bounded) (enabled : Bool) :
    (t.setEnabled enabled).Bounded :=
  { h with length := h.length.gate enabled }

theorem Bounded.clockTimer {t : Triangle} (h : t.Bounded) : t.clockTimer.Bounded := by
  have := h.period
  have := h.counter
  unfold Triangle.clockTimer
  split
  · have hstep : (if t.length.running && 0 < t.linear then (t.step + 1) % 32 else t.step)
        ≤ 31 := by
      have := h.step
      split <;> omega
    exact { h with step := hstep, counter := show t.counter + t.period ≤ _ by omega }
  · exact { h with counter := show t.counter - 1 ≤ _ by omega }

theorem Bounded.clockLinear {t : Triangle} (h : t.Bounded) : t.clockLinear.Bounded := by
  have hlinear : (if t.reloadDue then t.linearReload else t.linear - 1) ≤ 127 := by
    have := h.linear
    have := h.linearReload
    split <;> omega
  exact { h with linear := hlinear }

theorem Bounded.clockLength {t : Triangle} (h : t.Bounded) : t.clockLength.Bounded :=
  { h with length := h.length.clock }

theorem output_le (t : Triangle) : t.output ≤ 15 := by
  unfold output
  split
  · omega
  · exact triangleLevel_le t.step

end Triangle

/-! ### Noise voice -/

/-- Ranges of the noise voice. -/
structure Noise.Bounded (n : Noise) : Prop where
  length : n.length.Bounded
  envelope : n.envelope.Bounded
  periodIndex : n.periodIndex ≤ 15
  shiftRegister : n.shiftRegister ≤ 0x7FFF
  counter : n.counter ≤ 4068

namespace Noise

theorem bounded_init : Bounded {} where
  length := LengthCounter.bounded_init
  envelope := Envelope.bounded_init
  periodIndex := by show 0 ≤ 15; omega
  shiftRegister := by show 1 ≤ 0x7FFF; omega
  counter := by show 0 ≤ 4068; omega

theorem Bounded.writeControl {n : Noise} (h : n.Bounded) (value : UInt8) :
    (n.writeControl value).Bounded :=
  { h with length := h.length.setHalt _, envelope := h.envelope.writeControl value }

theorem Bounded.writePeriod {n : Noise} (h : n.Bounded) (value : UInt8) :
    (n.writePeriod value).Bounded :=
  { h with periodIndex := Byte.field_le value 0 4 }

theorem Bounded.writeLength {n : Noise} (h : n.Bounded) (value : UInt8) :
    (n.writeLength value).Bounded :=
  { h with length := LengthCounter.Bounded.load _ _, envelope := h.envelope.restart }

theorem Bounded.setEnabled {n : Noise} (h : n.Bounded) (enabled : Bool) :
    (n.setEnabled enabled).Bounded :=
  { h with length := h.length.gate enabled }

/-- The bit that enters at the top is the fifteenth. -/
theorem shiftWith_le (tap register : Nat) (h : register ≤ 0x7FFF) :
    shiftWith tap register ≤ 0x7FFF := by
  unfold shiftWith
  have := Nat.mod_lt (register ^^^ register >>> tap) (show 0 < 2 by omega)
  omega

theorem Bounded.shift {n : Noise} (h : n.Bounded) : n.shift.Bounded :=
  { h with shiftRegister := shiftWith_le n.tap n.shiftRegister h.shiftRegister }

theorem Bounded.clockTimer {n : Noise} (h : n.Bounded) : n.clockTimer.Bounded := by
  have := h.counter
  unfold Noise.clockTimer
  split
  · -- The reload may only be put on top of a count that has run out.
    have := noisePeriodOf_le n.periodIndex
    have hn : { n with counter := n.counter + noisePeriodOf n.periodIndex - 2 : Noise }.Bounded :=
      { h with counter := show n.counter + noisePeriodOf n.periodIndex - 2 ≤ _ by omega }
    exact hn.shift
  · exact { h with counter := show n.counter - 2 ≤ _ by omega }

theorem Bounded.clockEnvelope {n : Noise} (h : n.Bounded) : n.clockEnvelope.Bounded :=
  { h with envelope := h.envelope.clock }

theorem Bounded.clockLength {n : Noise} (h : n.Bounded) : n.clockLength.Bounded :=
  { h with length := h.length.clock }

theorem output_le (n : Noise) : n.output ≤ 15 := by
  unfold output
  split
  · omega
  · exact n.envelope.volume_le

end Noise

/-! ### Delta modulation voice -/

/-- Ranges of the delta modulation voice. What is left to read lies inside sample memory. -/
structure Dmc.Bounded (d : Dmc) : Prop where
  rateIndex : d.rateIndex ≤ 15
  level : d.level ≤ 127
  startAddress : d.startAddress ≤ 0xFFC0
  configuredLength : d.configuredLength ≤ 0xFF1
  reach : d.readOffset + d.bytesRemaining ≤ sampleCapacity
  shiftByte : d.shiftByte ≤ 255
  bitsRemaining : d.bitsRemaining ≤ 8
  counter : d.counter ≤ 428

namespace Dmc

theorem bounded_powerUp : powerUp.Bounded where
  rateIndex := by show 0 ≤ 15; omega
  level := by show 0x40 ≤ 127; omega
  startAddress := by show 0 ≤ 0xFFC0; omega
  configuredLength := by show 0 ≤ 0xFF1; omega
  reach := by show 0 + 0 ≤ 0x4000; omega
  shiftByte := by show 0 ≤ 255; omega
  bitsRemaining := by show 0 ≤ 8; omega
  counter := by show 0 ≤ 428; omega

theorem Bounded.loadSamples {d : Dmc} (h : d.Bounded) (data : Array UInt8) (offset : Nat) :
    (d.loadSamples data offset).2.Bounded := by
  -- The bytes are kept out of sight: comparing memories would unfold all of them.
  have hmemory : ∀ memory : SampleMemory,
      { d with memory := memory, loaded := true : Dmc }.Bounded := fun _ => { h with }
  unfold Dmc.loadSamples
  split
  · exact h
  · exact hmemory _

theorem Bounded.writeControl {d : Dmc} (h : d.Bounded) (value : UInt8) :
    (d.writeControl value).Bounded :=
  { h with rateIndex := Byte.field_le value 0 4 }

theorem Bounded.writeLevel {d : Dmc} (h : d.Bounded) (value : UInt8) :
    (d.writeLevel value).Bounded :=
  { h with level := Byte.field_le value 0 7 }

theorem Bounded.writeAddress {d : Dmc} (h : d.Bounded) (value : UInt8) :
    (d.writeAddress value).Bounded := by
  have hv := value.toNat_lt
  have hstart : sampleBase + value.toNat * 64 ≤ 0xFFC0 := by
    rw [show sampleBase = 0xC000 from rfl]
    omega
  exact { h with startAddress := hstart }

theorem Bounded.startSample {d : Dmc} (h : d.Bounded) : d.startSample.Bounded := by
  unfold Dmc.startSample
  simp only
  split
  · exact h
  · next hstart =>
    simp only [Bool.or_eq_true, decide_eq_true_eq, not_or, Nat.not_le] at hstart
    -- The length is cut at the end of memory, so the reader cannot run past it.
    have hreach : d.startAddress - sampleBase
        + min d.configuredLength (sampleCapacity - (d.startAddress - sampleBase))
        ≤ sampleCapacity := by
      omega
    exact ⟨h.rateIndex, h.level, h.startAddress, h.configuredLength, hreach, h.shiftByte,
      Nat.zero_le 8, h.counter⟩

theorem Bounded.writeLength {d : Dmc} (h : d.Bounded) (value : UInt8) :
    (d.writeLength value).Bounded := by
  have hv := value.toNat_lt
  have hd : { d with configuredLength := value.toNat * 16 + 1 : Dmc }.Bounded :=
    { h with configuredLength := show value.toNat * 16 + 1 ≤ 0xFF1 by omega }
  unfold Dmc.writeLength
  simp only
  split
  · exact hd.startSample
  · exact hd

theorem Bounded.setEnabled {d : Dmc} (h : d.Bounded) (enabled : Bool) :
    (d.setEnabled enabled).Bounded := by
  have hd : { d with enabled := enabled : Dmc }.Bounded := { h with }
  unfold Dmc.setEnabled
  simp only
  split
  · split
    · exact hd.startSample
    · exact hd
  · exact { h with }

/-- A byte that can be read lies inside sample memory. -/
theorem lt_of_byte?_eq_some {m : SampleMemory} {offset : Nat} {byte : UInt8}
    (h : m.byte? offset = some byte) : offset < sampleCapacity := by
  rw [SampleMemory.byte?, Vector.getElem?_eq_some_iff] at h
  exact h.choose

theorem Bounded.fetch {d : Dmc} (h : d.Bounded) : d.fetch.Bounded := by
  have := h.reach
  unfold Dmc.fetch
  split
  · next byte hbyte =>
    -- The byte was there, so the reader moves on by one and has one less to read.
    have hlt := lt_of_byte?_eq_some hbyte
    have hv := byte.toNat_lt
    exact
      { h with
        reach := show d.readOffset + 1 + (d.bytesRemaining - 1) ≤ _ by omega
        shiftByte := show byte.toNat ≤ 255 by omega
        bitsRemaining := Nat.le_refl 8 }
  · exact { h with reach := show d.readOffset + 0 ≤ _ by omega }

theorem Bounded.refill {d : Dmc} (h : d.Bounded) : d.refill.Bounded := by
  unfold Dmc.refill
  split
  · exact h
  · split
    · exact h.fetch
    · split
      · simp only
        split
        · exact h.startSample
        · exact h.startSample.fetch
      · exact { h with }

theorem stepLevel_le {level : Nat} (up : Bool) (h : level ≤ 127) : stepLevel level up ≤ 127 := by
  unfold stepLevel
  cases up with
  | true =>
    rw [if_pos rfl]
    split <;> omega
  | false =>
    rw [if_neg Bool.false_ne_true]
    split <;> omega

theorem Bounded.shiftOut {d : Dmc} (h : d.Bounded) : d.shiftOut.Bounded := by
  have := h.shiftByte
  have := h.bitsRemaining
  exact
    { h with
      level := stepLevel_le _ h.level
      shiftByte := show d.shiftByte / 2 ≤ 255 by omega
      bitsRemaining := show d.bitsRemaining - 1 ≤ 8 by omega }

theorem Bounded.nextBit {d : Dmc} (h : d.Bounded) : d.nextBit.Bounded := by
  unfold Dmc.nextBit
  simp only
  split
  · exact h.refill.shiftOut
  · exact h.refill

theorem Bounded.clockTimer {d : Dmc} (h : d.Bounded) : d.clockTimer.Bounded := by
  have := h.counter
  unfold Dmc.clockTimer
  split
  · exact h
  · split
    · have := deltaRateOf_le d.rateIndex
      have hd : { d with counter := d.counter + deltaRateOf d.rateIndex - 1 : Dmc }.Bounded :=
        { h with counter := show d.counter + deltaRateOf d.rateIndex - 1 ≤ _ by omega }
      exact hd.nextBit
    · exact { h with counter := show d.counter - 1 ≤ _ by omega }

theorem output_le (d : Dmc) : d.output ≤ 127 := by
  unfold output
  omega

end Dmc

/-! ### Frame sequencer -/

/-- The step is one of the sequence that the mode selects. -/
def FrameSequencer.Bounded (s : FrameSequencer) : Prop := s.step < s.steps

namespace FrameSequencer

theorem steps_pos (s : FrameSequencer) : 0 < s.steps := by
  unfold steps
  split <;> omega

theorem bounded_init : Bounded {} := by
  show 0 < 4
  omega

theorem bounded_write (s : FrameSequencer) (value : UInt8) : (s.write value).Bounded :=
  steps_pos _

theorem bounded_advance (s : FrameSequencer) : s.advance.Bounded :=
  Nat.mod_lt _ s.steps_pos

end FrameSequencer

/-! ### The chip -/

/-- Ranges of the whole chip. -/
structure Chip.Bounded (c : Chip) : Prop where
  pulse1 : c.pulse1.Bounded
  pulse2 : c.pulse2.Bounded
  triangle : c.triangle.Bounded
  noise : c.noise.Bounded
  dmc : c.dmc.Bounded
  sequencer : c.sequencer.Bounded

/-- Ranges of the levels that go into the mix. -/
structure Levels.Bounded (l : Levels) : Prop where
  pulse1 : l.pulse1 ≤ 15
  pulse2 : l.pulse2 ≤ 15
  triangle : l.triangle ≤ 15
  noise : l.noise ≤ 15
  dmc : l.dmc ≤ 127

namespace Chip

theorem bounded_powerUp (sampleRate : UInt32) : (powerUp sampleRate).Bounded where
  pulse1 := Pulse.bounded_powerUp true
  pulse2 := Pulse.bounded_powerUp false
  triangle := Triangle.bounded_init
  noise := Noise.bounded_init
  dmc := Dmc.bounded_powerUp
  sequencer := FrameSequencer.bounded_init

theorem bounded_reset (c : Chip) : c.reset.Bounded where
  pulse1 := Pulse.bounded_powerUp true
  pulse2 := Pulse.bounded_powerUp false
  triangle := Triangle.bounded_init
  noise := Noise.bounded_init
  dmc := Dmc.bounded_powerUp
  sequencer := FrameSequencer.bounded_init

theorem Bounded.mapPulse {c : Chip} (h : c.Bounded) (id : PulseId) {f : Pulse → Pulse}
    (hf : ∀ p : Pulse, p.Bounded → (f p).Bounded) : (c.mapPulse id f).Bounded := by
  cases id with
  | one => exact { h with pulse1 := hf c.pulse1 h.pulse1 }
  | two => exact { h with pulse2 := hf c.pulse2 h.pulse2 }

theorem Bounded.writeStatus {c : Chip} (h : c.Bounded) (value : UInt8) :
    (c.writeStatus value).Bounded :=
  { h with
    pulse1 := h.pulse1.setEnabled _
    pulse2 := h.pulse2.setEnabled _
    triangle := h.triangle.setEnabled _
    noise := h.noise.setEnabled _
    dmc := h.dmc.setEnabled _ }

theorem Bounded.clockEnvelopes {c : Chip} (h : c.Bounded) : c.clockEnvelopes.Bounded :=
  { h with
    pulse1 := h.pulse1.clockEnvelope
    pulse2 := h.pulse2.clockEnvelope
    noise := h.noise.clockEnvelope }

theorem Bounded.clockHalfFrame {c : Chip} (h : c.Bounded) : c.clockHalfFrame.Bounded :=
  { h with
    pulse1 := h.pulse1.clockLength.clockSweep
    pulse2 := h.pulse2.clockLength.clockSweep
    triangle := h.triangle.clockLength
    noise := h.noise.clockLength }

theorem Bounded.clockLinear {c : Chip} (h : c.Bounded) : c.clockLinear.Bounded :=
  { h with triangle := h.triangle.clockLinear }

theorem Bounded.writeFrameCounter {c : Chip} (h : c.Bounded) (value : UInt8) :
    (c.writeFrameCounter value).Bounded := by
  have hc : { c with sequencer := c.sequencer.write value : Chip }.Bounded :=
    { h with sequencer := c.sequencer.bounded_write value }
  unfold Chip.writeFrameCounter
  simp only
  split
  · -- Five steps: the write itself clocks all units once.
    exact hc.clockLinear.clockEnvelopes.clockHalfFrame
  · exact hc

theorem Bounded.dispatch {c : Chip} (h : c.Bounded) (register : Register) (value : UInt8) :
    (c.dispatch register value).Bounded := by
  cases register with
  | pulseControl id => exact h.mapPulse id fun _ hp => hp.writeControl value
  | pulseSweep id => exact h.mapPulse id fun _ hp => hp.writeSweep value
  | pulseTimerLow id => exact h.mapPulse id fun _ hp => hp.writeTimerLow value
  | pulseTimerHigh id => exact h.mapPulse id fun _ hp => hp.writeTimerHigh value
  | triangleLinear => exact { h with triangle := h.triangle.writeLinear value }
  | triangleTimerLow => exact { h with triangle := h.triangle.writeTimerLow value }
  | triangleTimerHigh => exact { h with triangle := h.triangle.writeTimerHigh value }
  | noiseControl => exact { h with noise := h.noise.writeControl value }
  | noisePeriod => exact { h with noise := h.noise.writePeriod value }
  | noiseLength => exact { h with noise := h.noise.writeLength value }
  | dmcControl => exact { h with dmc := h.dmc.writeControl value }
  | dmcDirectLoad => exact { h with dmc := h.dmc.writeLevel value }
  | dmcSampleAddress => exact { h with dmc := h.dmc.writeAddress value }
  | dmcSampleLength => exact { h with dmc := h.dmc.writeLength value }
  | status => exact h.writeStatus value
  | frameCounter => exact h.writeFrameCounter value
  | unused offset => exact h
  | expansion => exact h

theorem Bounded.remember {c : Chip} (h : c.Bounded) (register : Register) (value : UInt8) :
    (c.remember register value).Bounded := by
  unfold Chip.remember
  split
  · exact { h with }
  · exact h

theorem Bounded.write {c : Chip} (h : c.Bounded) (register : Register) (value : UInt8) :
    (c.write register value).Bounded := by
  have hc : { c with registerWrites := c.registerWrites + 1 : Chip }.Bounded := { h with }
  exact (hc.remember register value).dispatch register value

theorem Bounded.clockEvents {c : Chip} (h : c.Bounded) (events : FrameEvents) :
    (c.clockEvents events).Bounded := by
  unfold Chip.clockEvents
  simp only
  split
  · split
    · exact h.clockHalfFrame.clockEnvelopes
    · exact h.clockEnvelopes
  · split
    · exact h.clockHalfFrame
    · exact h

theorem Bounded.frameTick {c : Chip} (h : c.Bounded) : c.frameTick.Bounded :=
  { h.clockLinear.clockEvents _ with sequencer := FrameSequencer.bounded_advance _ }

theorem Bounded.clock {c : Chip} (h : c.Bounded) : c.clock.Bounded := by
  unfold Chip.clock
  split
  · exact
      { h with
        triangle := h.triangle.clockTimer
        dmc := h.dmc.clockTimer
        pulse1 := h.pulse1.clockTimer
        pulse2 := h.pulse2.clockTimer
        noise := h.noise.clockTimer }
  · exact { h with triangle := h.triangle.clockTimer, dmc := h.dmc.clockTimer }

theorem Bounded.drain (fuel : Nat) {c : Chip} (h : c.Bounded) (accumulator : Float32) :
    (drain fuel c accumulator).Bounded :=
  drain_induction (fun _ h => h.clock) (fun _ _ h => { h with }) fuel accumulator h

theorem Bounded.runSampleClocks {c : Chip} (h : c.Bounded) : c.runSampleClocks.Bounded :=
  h.drain maxClocksPerSample _

theorem Bounded.emit {c : Chip} (h : c.Bounded) (options : RenderOptions) :
    (c.emit options).2.Bounded := by
  obtain ⟨_, _, _, _, hemit⟩ := c.emit_eq options
  rw [hemit]
  exact { h with }

/-- Every operation keeps the ranges. -/
theorem Bounded.run {c : Chip} (h : c.Bounded) (op : ChipOp) : (op.run c).Bounded := by
  cases op with
  | write register value => exact h.write register value
  | load data offset => exact { h with dmc := h.dmc.loadSamples data offset }
  | frameTick => exact h.frameTick
  | clock => exact h.clock
  | sample options => exact h.runSampleClocks.emit options
  | reset => exact c.bounded_reset
  | setRate sampleRate => exact { h with }

/-- Every chip that a run reaches from power-up is in range. -/
theorem bounded_after (sampleRate : UInt32) (ops : List ChipOp) :
    ((powerUp sampleRate).after ops).Bounded :=
  after_induction (fun _ op h => h.run op) (powerUp sampleRate) ops (bounded_powerUp sampleRate)

/-- The levels are in range whatever the state. -/
theorem levels_bounded (c : Chip) : c.levels.Bounded where
  pulse1 := c.pulse1.output_le
  pulse2 := c.pulse2.output_le
  triangle := c.triangle.output_le
  noise := c.noise.output_le
  dmc := c.dmc.output_le

end Chip

end Chiptune
