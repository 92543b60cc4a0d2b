import Chiptune.Proofs.Chip.Separation
import Mathlib.Data.List.Basic

/-!
# `Chiptune.Proofs.Chip.Lengths`: one law for the four length counters

Pulses, triangle and noise each keep a length counter of their own. `CountedVoice.lengthLaw` says
what it holds, from nothing but the history of the chip: the table entry of the last load, less
the half-frames since then that came while the counter was not held, and nothing without a load
since the voice was last cleared.

A history is the list of operations with the latest first, so that what came before an
operation is the list behind it. `halfFrame` says of a history whether its latest operation
clocks the half-frame: a write that chooses five steps does, and a tick does at two of four or
of five places, counted from the last write to the frame counter register.

* `FrameSequencer.Follows.run`: sequencer and history stay in step.
* `Chip.halfFramesIn_from`: how many half-frames a number of ticks gives.
* `CountedVoice.counter_run`: what each operation does to a counter.
* `CountedVoice.Follows.affected`: counter and history stay in step.
* `Chip.length_counters`: the main statement, over every run from power-up.
-/

set_option autoImplicit false

namespace Chiptune

/-- The voices that a length counter stops. -/
inductive CountedVoice where
  | pulse (id : PulseId)
  | triangle
  | noise
deriving DecidableEq, Repr

namespace CountedVoice

/-- The voice's length counter. -/
def counter : CountedVoice → Chip → LengthCounter
  | pulse .one, c => c.pulse1.length
  | pulse .two, c => c.pulse2.length
  | triangle, c => c.triangle.length
  | noise, c => c.noise.length

/-- The register that loads the counter. -/
def lengthRegister : CountedVoice → Register
  | pulse id => .pulseTimerHigh id
  | triangle => .triangleTimerHigh
  | noise => .noiseLength

/-- The register with the bit that holds the counter. -/
def holdRegister : CountedVoice → Register
  | pulse id => .pulseControl id
  | triangle => .triangleLinear
  | noise => .noiseControl

/-- The bit that holds the counter. -/
def holdBit : CountedVoice → Nat
  | pulse _ => 5
  | triangle => 7
  | noise => 5

/-- The bit of the status register that switches the voice. -/
def statusBit : CountedVoice → Nat
  | pulse .one => 0
  | pulse .two => 1
  | triangle => 2
  | noise => 3

end CountedVoice

/-! ### Histories -/

/-- Whether the operation starts the frame sequence over. -/
def ChipOp.startsSequence : ChipOp → Bool
  | .write .frameCounter _ | .reset => true
  | _ => false

namespace Past

/-- Ticks since the sequence was last started over, which is the index of the next one. -/
def tickIndex (past : List ChipOp) : Nat :=
  (past.takeWhile fun op => !op.startsSequence).count .frameTick

/-- Whether the sequence has five steps, as the last write to the frame counter register
chose. -/
def fiveStep (past : List ChipOp) : Bool :=
  match past.find? ChipOp.startsSequence with
  | some (.write _ value) => Byte.bit value 7
  | _ => false

/-- Whether the latest operation clocks the half-frame. -/
def halfFrame : List ChipOp → Bool
  | .write .frameCounter value :: _ => Byte.bit value 7
  | .frameTick :: past =>
    let k := tickIndex past
    if fiveStep past then k % 5 = 1 || k % 5 = 4 else k % 4 = 1 || k % 4 = 3
  | _ => false

theorem halfFrame_frameTick (past : List ChipOp) : halfFrame (.frameTick :: past) =
    if fiveStep past then tickIndex past % 5 = 1 || tickIndex past % 5 = 4
    else tickIndex past % 4 = 1 || tickIndex past % 4 = 3 := rfl

end Past

namespace CountedVoice

/-- Whether the operation loads the counter. -/
def loads (v : CountedVoice) : ChipOp → Bool
  | .write register _ => register = v.lengthRegister
  | _ => false

/-- Whether the operation sets or clears the bit that holds the counter. -/
def setsHold (v : CountedVoice) : ChipOp → Bool
  | .write register _ => register = v.holdRegister
  | .reset => true
  | _ => false

/-- Whether the operation clears the counter. -/
def clears (v : CountedVoice) : ChipOp → Bool
  | .write .status value => !Byte.bit value v.statusBit
  | .reset => true
  | _ => false

/-- Whether the counter is held. -/
def held (v : CountedVoice) (past : List ChipOp) : Bool :=
  match past.find? v.setsHold with
  | some (.write _ value) => Byte.bit value v.holdBit
  | _ => false

/-- Whether the latest operation clocks the half-frame while the counter is not held. -/
def counted (v : CountedVoice) : List ChipOp → Bool
  | [] => false
  | op :: past => Past.halfFrame (op :: past) && !v.held past

theorem clears_status (v : CountedVoice) (value : UInt8) :
    v.clears (.write .status value) = !Byte.bit value v.statusBit := rfl

/-- What the length counter holds after a history: the table entry of the last load, less the
half-frames counted since then; nothing without a load since the voice was last cleared. -/
def lengthLaw (v : CountedVoice) (past : List ChipOp) : Nat :=
  match (past.takeWhile fun op => !v.clears op).find? v.loads with
  | some (.write _ value) =>
    let sinceLoad := past.takeWhile fun op => !v.loads op
    lengthOf (Byte.field value 3 5) - (past.tails.take sinceLoad.length).countP v.counted
  | _ => 0

/-! ### The law, operation by operation -/

variable {v : CountedVoice} {op : ChipOp} {past : List ChipOp}

theorem lengthLaw_of_clears (h : v.clears op = true) : v.lengthLaw (op :: past) = 0 := by
  simp [lengthLaw, h]

theorem not_clears_of_loads (h : v.loads op = true) : v.clears op = false := by
  cases op with
  | write register value =>
    have hregister : register = v.lengthRegister := of_decide_eq_true h
    subst hregister
    cases v with
    | pulse id => rfl
    | triangle => rfl
    | noise => rfl
  | _ => nomatch h

theorem lengthLaw_of_loads {register : Register} {value : UInt8}
    (h : v.loads (.write register value) = true) :
    v.lengthLaw (.write register value :: past) = lengthOf (Byte.field value 3 5) := by
  simp [lengthLaw, h, not_clears_of_loads h]

/-- An operation that neither loads nor clears the counter takes off what it counts. -/
theorem lengthLaw_of_other (hloads : v.loads op = false) (hclears : v.clears op = false) :
    v.lengthLaw (op :: past)
      = v.lengthLaw past - if v.counted (op :: past) then 1 else 0 := by
  -- The histories since the load are those of before and the one that ends with `op`.
  simp only [lengthLaw, List.takeWhile_cons, hclears, Bool.not_false, if_true, List.find?_cons,
    hloads, List.length_cons, List.tails, List.take_succ_cons, List.countP_cons]
  cases (past.takeWhile fun op => !v.clears op).find? v.loads with
  | none => simp
  | some load =>
    cases load with
    | write register value => dsimp only; omega
    | _ => simp

end CountedVoice

/-! ### The frame sequence of a chip -/

namespace ChipOp

/-- What the operation does to the frame sequencer. -/
def sequenced (s : FrameSequencer) : ChipOp → FrameSequencer
  | .write .frameCounter value => s.write value
  | .frameTick => s.advance
  | .reset => {}
  | _ => s

/-- Whether the operation clocks the half-frame of a chip with that sequencer. -/
def clocksHalfFrame (s : FrameSequencer) : ChipOp → Bool
  | .write .frameCounter value => (s.write value).fiveStep
  | .frameTick => s.events.halfFrame
  | _ => false

theorem clocksHalfFrame_frameTick (s : FrameSequencer) :
    ChipOp.frameTick.clocksHalfFrame s = s.events.halfFrame := rfl

/-- All but the starts of the sequence and the ticks leave the sequencer alone. -/
theorem idle_of_other (s : FrameSequencer) {op : ChipOp} (hstart : op.startsSequence = false)
    (htick : op ≠ .frameTick) : op.sequenced s = s ∧ op.clocksHalfFrame s = false := by
  cases op with
  | write register value =>
    cases register with
    | frameCounter => nomatch hstart
    | _ => exact ⟨rfl, rfl⟩
  | frameTick => exact absurd rfl htick
  | reset => nomatch hstart
  | _ => exact ⟨rfl, rfl⟩

end ChipOp

namespace Chip

/-- The half-frames that a run clocks. -/
def halfFramesIn (c : Chip) : List ChipOp → Nat
  | [] => 0
  | op :: rest =>
    (if op.clocksHalfFrame c.sequencer then 1 else 0) + (op.run c).halfFramesIn rest

/-- What no clock changes, a number of clocks does not change. -/
theorem after_clocks {α : Type} {f : Chip → α} (hf : ∀ c : Chip, f c.clock = f c) (c : Chip)
    (n : Nat) : f (c.after (List.replicate n .clock)) = f c := by
  induction n generalizing c with
  | zero => rfl
  | succ n ih =>
    rw [List.replicate_succ, after_cons, ih]
    exact hf c

theorem sequencer_dispatch (c : Chip) (register : Register) (value : UInt8) :
    (c.dispatch register value).sequencer
      = ChipOp.sequenced c.sequencer (.write register value) := by
  cases register with
  | pulseControl id | pulseSweep id | pulseTimerLow id | pulseTimerHigh id => cases id <;> rfl
  | frameCounter =>
    simp only [dispatch, writeFrameCounter]
    split
    · rfl
    · rfl
  | _ => rfl

theorem sequencer_write (c : Chip) (register : Register) (value : UInt8) :
    (c.write register value).sequencer
      = ChipOp.sequenced c.sequencer (.write register value) := by
  have hnoted := Voice.triangle.view_remember (c := c) register value
  rw [write, sequencer_dispatch, (Voice.view_eq_iff.mp hnoted).2.1]

theorem sequencer_frameTick (c : Chip) : c.frameTick.sequencer = c.sequencer.advance := by
  simp only [frameTick, clockEvents]
  split
  · split
    · rfl
    · rfl
  · split
    · rfl
    · rfl

theorem sequencer_clock (c : Chip) : c.clock.sequencer = c.sequencer := by
  unfold clock
  split
  · rfl
  · rfl

theorem sequencer_run (c : Chip) (op : ChipOp) :
    (op.run c).sequencer = op.sequenced c.sequencer := by
  cases op with
  | write register value => exact c.sequencer_write register value
  | frameTick => exact c.sequencer_frameTick
  | clock => exact c.sequencer_clock
  | sample options =>
    have hview := Voice.view_nextSample (v := .triangle) (c := c) options
    exact (Voice.view_eq_iff.mp hview).2.1.trans (after_clocks sequencer_clock c _)
  | _ => rfl

end Chip

namespace FrameSequencer

/-- Mode and position are those that a history calls for. -/
structure Follows (s : FrameSequencer) (past : List ChipOp) : Prop where
  fiveStep : s.fiveStep = Past.fiveStep past
  step : s.step = Past.tickIndex past % s.steps

variable {s : FrameSequencer} {past : List ChipOp}

theorem follows_powerUp : Follows {} [] := ⟨rfl, rfl⟩

/-- An operation that starts the sequence over leaves it at its beginning. -/
theorem follows_start {op : ChipOp} (hop : op.startsSequence = true)
    (hmode : s.fiveStep = Past.fiveStep (op :: past)) (hstep : s.step = 0) :
    s.Follows (op :: past) := by
  refine ⟨hmode, ?_⟩
  have hindex : Past.tickIndex (op :: past) = 0 := by simp [Past.tickIndex, hop]
  rw [hstep, hindex, Nat.zero_mod]

/-- A tick moves the position on by one. -/
theorem Follows.tick (h : s.Follows past) : s.advance.Follows (.frameTick :: past) := by
  have hstart : ChipOp.frameTick.startsSequence = false := rfl
  have hindex : Past.tickIndex (.frameTick :: past) = Past.tickIndex past + 1 := by
    simp [Past.tickIndex, hstart]
  refine ⟨h.fiveStep, ?_⟩
  change (s.step + 1) % s.steps = Past.tickIndex (.frameTick :: past) % s.steps
  rw [hindex, h.step, Nat.mod_add_mod]

/-- Every other operation leaves mode and position. -/
theorem Follows.skip {op : ChipOp} (h : s.Follows past) (hop : op.startsSequence = false)
    (htick : op ≠ .frameTick) : s.Follows (op :: past) := by
  refine ⟨?_, ?_⟩
  · simp [Past.fiveStep, hop, h.fiveStep]
  · simp [Past.tickIndex, hop, htick, h.step]

theorem Follows.run (h : s.Follows past) (op : ChipOp) : (op.sequenced s).Follows (op :: past) := by
  cases op with
  | write register value =>
    cases register with
    | frameCounter => exact follows_start rfl rfl rfl
    | _ => exact h.skip rfl nofun
  | frameTick => exact h.tick
  | reset => exact follows_start rfl rfl rfl
  | _ => exact h.skip rfl nofun

/-- The places of the half-frames in the two sequences. -/
theorem halfFrame_events (s : FrameSequencer) : s.events.halfFrame =
    if s.fiveStep then s.step % 5 = 1 || s.step % 5 = 4
    else s.step % 4 = 1 || s.step % 4 = 3 := by
  have hfour : ∀ j < 4, (fourStepEvents.getD j {}).halfFrame = (decide (j = 1) || j = 3) := by
    decide
  have hfive : ∀ j < 5, (fiveStepEvents.getD j {}).halfFrame = (decide (j = 1) || j = 4) := by
    decide
  unfold events steps
  cases s.fiveStep with
  | false => exact hfour _ (Nat.mod_lt _ (by decide))
  | true => exact hfive _ (Nat.mod_lt _ (by decide))

/-- Sequencer and history agree on the half-frames. -/
theorem Follows.clocksHalfFrame (h : s.Follows past) (op : ChipOp) :
    op.clocksHalfFrame s = Past.halfFrame (op :: past) := by
  cases op with
  | write register value => cases register <;> rfl
  | frameTick =>
    have hstep := h.step
    unfold steps at hstep
    rw [ChipOp.clocksHalfFrame_frameTick, halfFrame_events, Past.halfFrame_frameTick,
      ← h.fiveStep, hstep]
    cases s.fiveStep with
    | false => simp only [Bool.false_eq_true, if_false, Nat.mod_mod]
    | true => simp only [if_true, Nat.mod_mod]
  | _ => rfl

/-- The half-frames among the first `k` ticks of a sequence. -/
def halfFramesBefore (fiveStep : Bool) (k : Nat) : Nat :=
  if fiveStep then (k + 3) / 5 + k / 5 else k / 2

theorem halfFramesBefore_succ {s : FrameSequencer} {k : Nat} (hstep : s.step = k % s.steps) :
    halfFramesBefore s.fiveStep (k + 1)
      = halfFramesBefore s.fiveStep k
        + if ChipOp.frameTick.clocksHalfFrame s then 1 else 0 := by
  unfold steps at hstep
  rw [ChipOp.clocksHalfFrame_frameTick, halfFrame_events, hstep]
  unfold halfFramesBefore
  cases s.fiveStep with
  | false =>
    simp only [Bool.false_eq_true, if_false, Nat.mod_mod, Bool.or_eq_true, decide_eq_true_eq]
    split <;> omega
  | true =>
    simp only [if_true, Nat.mod_mod, Bool.or_eq_true, decide_eq_true_eq]
    split <;> omega

end FrameSequencer

namespace Chip

/-- A run without a new start, taken up after `k` ticks of the sequence, clocks the half-frames
of the ticks that it adds. -/
theorem halfFramesIn_from {c : Chip} {k : Nat} (hstep : c.sequencer.step = k % c.sequencer.steps)
    {ops : List ChipOp} (hops : ∀ op ∈ ops, op.startsSequence = false) :
    c.halfFramesIn ops + FrameSequencer.halfFramesBefore c.sequencer.fiveStep k
      = FrameSequencer.halfFramesBefore c.sequencer.fiveStep (k + ops.count .frameTick) := by
  induction ops generalizing c k with
  | nil => simp [halfFramesIn]
  | cons op rest ih =>
    have hrest : ∀ op ∈ rest, op.startsSequence = false := fun op hmem =>
      hops op (List.mem_cons_of_mem _ hmem)
    have hnext := c.sequencer_run op
    rw [halfFramesIn]
    by_cases htick : op = .frameTick
    · -- A tick adds the half-frame of its own place.
      subst htick
      have hsucc := FrameSequencer.halfFramesBefore_succ hstep
      have hcount : k + List.count .frameTick (ChipOp.frameTick :: rest)
          = k + 1 + rest.count .frameTick := by
        rw [List.count_cons_self]
        omega
      have hplace : (ChipOp.frameTick.run c).sequencer.step
          = (k + 1) % (ChipOp.frameTick.run c).sequencer.steps := by
        rw [hnext]
        change (c.sequencer.step + 1) % c.sequencer.steps = (k + 1) % c.sequencer.steps
        rw [hstep, Nat.mod_add_mod]
      have hmode : (ChipOp.frameTick.run c).sequencer.fiveStep = c.sequencer.fiveStep := by
        rw [hnext]
        rfl
      have htail := ih hplace hrest
      rw [hmode, hsucc] at htail
      rw [hcount, ← htail]
      omega
    · obtain ⟨hsame, hnone⟩ :=
        ChipOp.idle_of_other c.sequencer (hops op List.mem_cons_self) htick
      rw [hsame] at hnext
      have htail := ih (c := op.run c) (k := k) (by rw [hnext]; exact hstep) hrest
      rw [hnext] at htail
      rw [hnone, List.count_cons_of_ne htick, ← htail]
      simp

end Chip

/-! ### What operations do to a counter -/

theorem Pulse.length_clockSweep (p : Pulse) : p.clockSweep.length = p.length := by
  unfold clockSweep
  dsimp only
  split
  · split
    · rfl
    · rfl
  · rfl

theorem Pulse.length_clockTimer (p : Pulse) : p.clockTimer.length = p.length := by
  unfold clockTimer
  split
  · rfl
  · rfl

theorem Triangle.length_clockTimer (t : Triangle) : t.clockTimer.length = t.length := by
  unfold clockTimer
  split
  · rfl
  · rfl

theorem Noise.length_clockTimer (n : Noise) : n.clockTimer.length = n.length := by
  unfold clockTimer
  split
  · rfl
  · rfl

namespace CountedVoice

/-- What an operation does to the counter, given whether it clocks the half-frame: registers of
other voices and other units have no part in it. -/
def affected (v : CountedVoice) (halfFrame : Bool) (op : ChipOp) (counter : LengthCounter) :
    LengthCounter :=
  let clocked := if halfFrame then counter.clock else counter
  match op with
  | .write register value =>
    if register = v.lengthRegister then counter.load (Byte.field value 3 5)
    else if register = v.holdRegister then counter.setHalt (Byte.bit value v.holdBit)
    else if register = .status then counter.gate (Byte.bit value v.statusBit)
    else clocked
  | .reset => {}
  | _ => clocked

/-- The voice that the counter belongs to. -/
def voice : CountedVoice → Voice
  | pulse id => .pulse id
  | triangle => .triangle
  | noise => .noise

/-- A counter is part of its voice. -/
theorem counter_congr {v : CountedVoice} {c d : Chip} (h : v.voice.view c = v.voice.view d) :
    v.counter c = v.counter d := by
  have hstate := (Voice.view_eq_iff.mp h).1
  match v with
  | .pulse .one => exact congrArg Pulse.length hstate
  | .pulse .two => exact congrArg Pulse.length hstate
  | .triangle => exact congrArg Triangle.length hstate
  | .noise => exact congrArg Noise.length hstate

/-- A chip has four length counters. -/
theorem counter_ext (v : CountedVoice) {c d : Chip} (hpulse1 : c.pulse1.length = d.pulse1.length)
    (hpulse2 : c.pulse2.length = d.pulse2.length)
    (htriangle : c.triangle.length = d.triangle.length)
    (hnoise : c.noise.length = d.noise.length) : v.counter c = v.counter d := by
  match v with
  | .pulse .one => exact hpulse1
  | .pulse .two => exact hpulse2
  | .triangle => exact htriangle
  | .noise => exact hnoise

theorem counter_clockHalfFrame (v : CountedVoice) (c : Chip) :
    v.counter c.clockHalfFrame = (v.counter c).clock := by
  match v with
  | .pulse .one => exact c.pulse1.clockLength.length_clockSweep
  | .pulse .two => exact c.pulse2.clockLength.length_clockSweep
  | .triangle => rfl
  | .noise => rfl

theorem counter_clockEnvelopes (v : CountedVoice) (c : Chip) :
    v.counter c.clockEnvelopes = v.counter c := counter_ext v rfl rfl rfl rfl

theorem counter_clockLinear (v : CountedVoice) (c : Chip) :
    v.counter c.clockLinear = v.counter c := counter_ext v rfl rfl rfl rfl

theorem counter_setSequencer (v : CountedVoice) (c : Chip) (s : FrameSequencer) :
    v.counter { c with sequencer := s } = v.counter c := counter_ext v rfl rfl rfl rfl

theorem counter_writeFrameCounter (v : CountedVoice) (c : Chip) (value : UInt8) :
    v.counter (c.writeFrameCounter value)
      = if (c.sequencer.write value).fiveStep then (v.counter c).clock else v.counter c := by
  unfold Chip.writeFrameCounter
  dsimp only
  split
  · rw [counter_clockHalfFrame, counter_clockEnvelopes, counter_clockLinear,
      counter_setSequencer]
  · exact counter_setSequencer v c _

theorem counter_clockEvents (v : CountedVoice) (c : Chip) (events : FrameEvents) :
    v.counter (c.clockEvents events)
      = if events.halfFrame then (v.counter c).clock else v.counter c := by
  obtain ⟨envelope, halfFrame⟩ := events
  have henvelope : v.counter (c.clockEvents ⟨envelope, halfFrame⟩)
      = v.counter (if halfFrame then c.clockHalfFrame else c) := by
    cases envelope with
    | false => rfl
    | true => exact counter_clockEnvelopes v _
  rw [henvelope]
  cases halfFrame with
  | false => rfl
  | true => exact counter_clockHalfFrame v c

theorem counter_frameTick (v : CountedVoice) (c : Chip) :
    v.counter c.frameTick
      = if c.sequencer.events.halfFrame then (v.counter c).clock else v.counter c := by
  have hsame : c.clockLinear.sequencer = c.sequencer := rfl
  rw [Chip.frameTick, counter_setSequencer, counter_clockEvents, counter_clockLinear, hsame]

theorem counter_clock (v : CountedVoice) (c : Chip) : v.counter c.clock = v.counter c := by
  unfold Chip.clock
  split
  · exact counter_ext v c.pulse1.length_clockTimer c.pulse2.length_clockTimer
      c.triangle.length_clockTimer c.noise.length_clockTimer
  · exact counter_ext v rfl rfl c.triangle.length_clockTimer rfl

theorem counter_dispatch (v : CountedVoice) (c : Chip) (register : Register) (value : UInt8) :
    v.counter (c.dispatch register value)
      = v.affected (ChipOp.clocksHalfFrame c.sequencer (.write register value))
          (.write register value) (v.counter c) := by
  cases register with
  | pulseControl id | pulseSweep id | pulseTimerLow id | pulseTimerHigh id =>
    cases id <;> (cases v with
      | pulse other => cases other <;> rfl
      | triangle => rfl
      | noise => rfl)
  | frameCounter =>
    refine (counter_writeFrameCounter v c value).trans ?_
    cases v with
    | pulse id => rfl
    | triangle => rfl
    | noise => rfl
  | _ => cases v with
    | pulse id => cases id <;> rfl
    | triangle => rfl
    | noise => rfl

theorem counter_write (v : CountedVoice) (c : Chip) (register : Register) (value : UInt8) :
    v.counter (c.write register value)
      = v.affected (ChipOp.clocksHalfFrame c.sequencer (.write register value))
          (.write register value) (v.counter c) := by
  have hview := v.voice.view_remember (c := c) register value
  have hcounter := counter_congr hview
  have hsequencer := (Voice.view_eq_iff.mp hview).2.1
  rw [Chip.write, counter_dispatch, hcounter, hsequencer]

/-- What each operation does to a counter. -/
theorem counter_run (v : CountedVoice) (c : Chip) (op : ChipOp) :
    v.counter (op.run c) = v.affected (op.clocksHalfFrame c.sequencer) op (v.counter c) := by
  cases op with
  | write register value => exact counter_write v c register value
  | frameTick => exact counter_frameTick v c
  | clock => exact counter_clock v c
  | sample options =>
    have hclocks := counter_congr (v.voice.view_nextSample (c := c) options)
    exact hclocks.trans (Chip.after_clocks (counter_clock v) c _)
  | load data offset | setRate sampleRate => exact counter_ext v rfl rfl rfl rfl
  | reset =>
    match v with
    | .pulse .one => rfl
    | .pulse .two => rfl
    | .triangle => rfl
    | .noise => rfl

/-! ### Chip and history in step -/

/-- Count and hold of a counter are those that a history calls for. -/
structure Follows (v : CountedVoice) (counter : LengthCounter) (past : List ChipOp) : Prop where
  halt : counter.halt = v.held past
  count : counter.count = v.lengthLaw past

variable {v : CountedVoice} {counter : LengthCounter} {past : List ChipOp} {op : ChipOp}

theorem follows_powerUp (v : CountedVoice) (sampleRate : UInt32) :
    v.Follows (v.counter (.powerUp sampleRate)) [] := by
  match v with
  | .pulse .one => exact ⟨rfl, rfl⟩
  | .pulse .two => exact ⟨rfl, rfl⟩
  | .triangle => exact ⟨rfl, rfl⟩
  | .noise => exact ⟨rfl, rfl⟩

/-- A clock takes one off unless the counter is held. -/
theorem count_clocked (halfFrame : Bool) (counter : LengthCounter) :
    (if halfFrame then counter.clock else counter).count
      = counter.count - if halfFrame && !counter.halt then 1 else 0 := by
  unfold LengthCounter.clock
  cases halfFrame with
  | false => rfl
  | true => cases hhalt : counter.halt with
    | false => simp
    | true => simp

theorem halt_clocked (halfFrame : Bool) (counter : LengthCounter) :
    (if halfFrame then counter.clock else counter).halt = counter.halt := by
  unfold LengthCounter.clock
  cases halfFrame with
  | false => rfl
  | true => cases hhalt : counter.halt with
    | false => simp
    | true => simp [hhalt]

theorem held_of_not_setsHold (h : v.setsHold op = false) : v.held (op :: past) = v.held past := by
  simp [held, h]

/-- The register that loads a counter is not the one that holds it. -/
theorem holdRegister_ne (v : CountedVoice) : v.holdRegister ≠ v.lengthRegister := by
  cases v <;> nofun

theorem status_ne (v : CountedVoice) :
    Register.status ≠ v.lengthRegister ∧ Register.status ≠ v.holdRegister := by
  cases v <;> exact ⟨nofun, nofun⟩

/-- The bit that holds a counter is the one last written. -/
theorem halt_affected (halfFrame : Bool) (h : counter.halt = v.held past) :
    (v.affected halfFrame op counter).halt = v.held (op :: past) := by
  cases op with
  | write register value =>
    by_cases hhold : register = v.holdRegister
    · subst hhold
      simp [affected, v.holdRegister_ne, LengthCounter.setHalt, held, setsHold]
    · have hset : v.setsHold (.write register value) = false := decide_eq_false hhold
      rw [held_of_not_setsHold hset, ← h]
      simp only [affected, if_neg hhold]
      split
      · rfl
      · split
        · unfold LengthCounter.gate
          split
          · rfl
          · rfl
        · exact halt_clocked halfFrame counter
  | reset => rfl
  | _ =>
    rw [held_of_not_setsHold rfl, ← h]
    exact halt_clocked halfFrame counter

theorem count_affected_of_clears (halfFrame : Bool) (h : v.clears op = true) :
    (v.affected halfFrame op counter).count = 0 := by
  cases op with
  | write register value =>
    cases register with
    | status =>
      have hbit : Byte.bit value v.statusBit = false := by simpa [clears_status] using h
      simp [affected, v.status_ne, LengthCounter.gate, hbit]
    | _ => nomatch h
  | reset => rfl
  | _ => nomatch h

theorem count_affected_of_loads (halfFrame : Bool) {register : Register} {value : UInt8}
    (h : v.loads (.write register value) = true) :
    (v.affected halfFrame (.write register value) counter).count
      = lengthOf (Byte.field value 3 5) := by
  have hregister : register = v.lengthRegister := of_decide_eq_true h
  simp [affected, hregister, LengthCounter.load]

/-- What neither loads nor clears a counter takes one off it if it clocks the half-frame and the
counter is not held. -/
theorem count_affected_of_other (hloads : v.loads op = false) (hclears : v.clears op = false) :
    (v.affected (Past.halfFrame (op :: past)) op counter).count
      = counter.count - if Past.halfFrame (op :: past) && !counter.halt then 1 else 0 := by
  cases op with
  | write register value =>
    have hload : register ≠ v.lengthRegister := of_decide_eq_false hloads
    simp only [affected, if_neg hload]
    by_cases hhold : register = v.holdRegister
    · -- The register that holds a counter clocks nothing.
      have hnone : Past.halfFrame (.write register value :: past) = false := by
        rw [hhold]
        cases v <;> rfl
      rw [if_pos hhold, hnone]
      rfl
    · rw [if_neg hhold]
      by_cases hstatus : register = .status
      · subst hstatus
        have hbit : Byte.bit value v.statusBit = true := by simpa [clears_status] using hclears
        rw [if_pos rfl, hbit]
        rfl
      · rw [if_neg hstatus]
        exact count_clocked _ counter
  | reset => nomatch hclears
  | _ => exact count_clocked _ counter

/-- Counter and history stay in step. -/
theorem Follows.affected (h : v.Follows counter past) (op : ChipOp) :
    v.Follows (v.affected (Past.halfFrame (op :: past)) op counter) (op :: past) := by
  refine ⟨halt_affected _ h.halt, ?_⟩
  cases hclears : v.clears op with
  | true => rw [count_affected_of_clears _ hclears, lengthLaw_of_clears hclears]
  | false =>
    cases hloads : v.loads op with
    | true =>
      cases op with
      | write register value => rw [count_affected_of_loads _ hloads, lengthLaw_of_loads hloads]
      | _ => nomatch hloads
    | false =>
      rw [count_affected_of_other hloads hclears, lengthLaw_of_other hloads hclears, h.count,
        h.halt, counted]

end CountedVoice

namespace Chip

/-- Sequencer and counters are those that a history calls for. -/
structure Follows (c : Chip) (past : List ChipOp) : Prop where
  sequencer : c.sequencer.Follows past
  counters : ∀ v : CountedVoice, v.Follows (v.counter c) past

theorem Follows.run {c : Chip} {past : List ChipOp} (h : c.Follows past) (op : ChipOp) :
    (op.run c).Follows (op :: past) where
  sequencer := by
    rw [sequencer_run]
    exact h.sequencer.run op
  counters v := by
    rw [CountedVoice.counter_run, h.sequencer.clocksHalfFrame]
    exact (h.counters v).affected op

theorem Follows.after {c : Chip} {past : List ChipOp} (h : c.Follows past) (ops : List ChipOp) :
    (c.after ops).Follows (ops.reverse ++ past) := by
  induction ops generalizing c past with
  | nil => exact h
  | cons op ops ih =>
    rw [List.reverse_cons, List.append_assoc]
    exact ih (h.run op)

theorem follows_powerUp (sampleRate : UInt32) : (powerUp sampleRate).Follows [] :=
  ⟨FrameSequencer.follows_powerUp, fun v => v.follows_powerUp sampleRate⟩

/-- One law holds for the four length counters. After every run from power-up, of writes, loads,
ticks, clocks, samples, resets and changes of rate, each holds what `lengthLaw` says of the
history: the table entry of the last load less the half-frames since then that found it not
held, or nothing without a load since it was last cleared.

The half-frames are those of `Past.halfFrame`, for whatever comes next. From a write to the
frame counter register on, as long as nothing starts the sequence over, `n` ticks give `n / 2`
of them in four steps, and in five `(n + 3) / 5 + n / 5` with one more at once. -/
theorem length_counters (sampleRate : UInt32) (ops : List ChipOp) :
    let c := (powerUp sampleRate).after ops
    (∀ v : CountedVoice, (v.counter c).count = v.lengthLaw ops.reverse) ∧
      (∀ op : ChipOp, op.clocksHalfFrame c.sequencer = Past.halfFrame (op :: ops.reverse)) ∧
      ∀ (value : UInt8) (more : List ChipOp), (∀ op ∈ more, op.startsSequence = false) →
        let n := more.count .frameTick
        c.halfFramesIn (.write .frameCounter value :: more)
          = if Byte.bit value 7 then 1 + ((n + 3) / 5 + n / 5) else n / 2 := by
  intro c
  have hfollows : c.Follows ops.reverse := by
    have hrun := (follows_powerUp sampleRate).after ops
    rwa [List.append_nil] at hrun
  refine ⟨fun v => (hfollows.counters v).count, hfollows.sequencer.clocksHalfFrame, ?_⟩
  intro value more hmore n
  -- The write leaves the chip at the beginning of a sequence in the mode that it chooses.
  have hwritten := c.sequencer_run (.write .frameCounter value)
  have hplace : (ChipOp.run (.write .frameCounter value) c).sequencer.step
      = 0 % (ChipOp.run (.write .frameCounter value) c).sequencer.steps := by
    rw [hwritten, Nat.zero_mod]
    rfl
  have hmode : (ChipOp.run (.write .frameCounter value) c).sequencer.fiveStep
      = Byte.bit value 7 := by
    rw [hwritten]
    rfl
  have hticks := halfFramesIn_from hplace hmore
  rw [hmode, Nat.zero_add] at hticks
  have hatOnce : ChipOp.clocksHalfFrame c.sequencer (.write .frameCounter value)
      = Byte.bit value 7 := rfl
  rw [halfFramesIn, hatOnce]
  unfold FrameSequencer.halfFramesBefore at hticks
  cases hfive : Byte.bit value 7 with
  | false =>
    rw [hfive] at hticks
    simpa using hticks
  | true =>
    rw [hfive] at hticks
    simpa using hticks

/-- A pulse loaded with 254, held during the second of the two half-frames of five ticks. -/
theorem held_pulse_length :
    let ops : List ChipOp :=
      [.write .frameCounter 0x80, .write (.pulseTimerHigh .one) 0x08, .frameTick, .frameTick,
        .write (.pulseControl .one) 0x20, .frameTick, .frameTick, .frameTick]
    ((powerUp 44100).after ops).pulse1.length.count = 253 ∧
      (powerUp 44100).halfFramesIn ops = 3 := by
  intro ops
  obtain ⟨hcount, -, -⟩ := length_counters 44100 ops
  obtain ⟨-, -, hhalfFrames⟩ := length_counters 44100 []
  exact ⟨hcount (.pulse .one), (hhalfFrames 0x80 ops.tail (by decide)).trans (by decide)⟩

end Chip

end Chiptune
