import Chiptune.Chip.Basic

/-!
# `Chiptune.Proofs.Chip.Run`: runs of the sound chip

`ChipOp` names everything that can happen to a chip after power-up. `Chip.after` carries out a
list of operations, the oldest first. `Chip.frameTick_eq` and `Chip.writeFrameCounter_eq` say which
parts of a chip a tick and a change of the frame mode can reach, and `Chip.emit_eq` which parts the
output path can. The voices reach none of the `Chip.surroundings`: neither the board, which is the
shadow file and what the sample rate sets, nor what the chip counts. A property that holds at
power-up and that every operation keeps holds of every chip that a run can reach
(`Chip.after_induction`).
-/

set_option autoImplicit false

namespace Chiptune

/-- Something that happens to a chip. -/
inductive ChipOp where
  | write (register : Register) (value : UInt8)
  | load (data : Array UInt8) (offset : Nat)
  | frameTick
  | clock
  | sample (options : RenderOptions)
  | reset
  | setRate (sampleRate : UInt32)
deriving DecidableEq

/-- Carries out an operation. -/
def ChipOp.run (op : ChipOp) (c : Chip) : Chip :=
  match op with
  | .write register value => c.write register value
  | .load data offset => (c.loadSamples data offset).2
  | .frameTick => c.frameTick
  | .clock => c.clock
  | .sample options => (c.nextSample options).2
  | .reset => c.reset
  | .setRate sampleRate => c.setSampleRate sampleRate

namespace Chip

/-- The chip after a list of operations. -/
def after (c : Chip) (ops : List ChipOp) : Chip := ops.foldl (fun c op => op.run c) c

@[simp] theorem after_nil (c : Chip) : c.after [] = c := rfl

@[simp] theorem after_cons (c : Chip) (op : ChipOp) (ops : List ChipOp) :
    c.after (op :: ops) = (op.run c).after ops := rfl

@[simp] theorem after_append (c : Chip) (ops more : List ChipOp) :
    c.after (ops ++ more) = (c.after ops).after more := List.foldl_append

/-- What a step of the sequence clocks is part of the voices that stop by themselves. -/
theorem clockEvents_eq (c : Chip) (events : FrameEvents) :
    ∃ pulse1 pulse2 triangle noise, c.clockEvents events
      = { c with pulse1 := pulse1, pulse2 := pulse2, triangle := triangle, noise := noise } := by
  obtain ⟨envelope, halfFrame⟩ := events
  cases halfFrame with
  | false =>
    cases envelope with
    | false => exact ⟨_, _, _, _, rfl⟩
    | true => exact ⟨_, _, _, _, rfl⟩
  | true =>
    cases envelope with
    | false => exact ⟨_, _, _, _, rfl⟩
    | true => exact ⟨_, _, _, _, rfl⟩

theorem frameTick_eq (c : Chip) :
    ∃ pulse1 pulse2 triangle noise, c.frameTick
      = { c with
          pulse1 := pulse1
          pulse2 := pulse2
          triangle := triangle
          noise := noise
          sequencer := c.sequencer.advance } := by
  obtain ⟨pulse1, pulse2, triangle, noise, hevents⟩ :=
    c.clockLinear.clockEvents_eq c.clockLinear.sequencer.events
  refine ⟨pulse1, pulse2, triangle, noise, ?_⟩
  rw [frameTick, hevents]
  rfl

/-- Choosing a mode clocks the same voices or none. -/
theorem writeFrameCounter_eq (c : Chip) (value : UInt8) :
    ∃ pulse1 pulse2 triangle noise, c.writeFrameCounter value
      = { c with
          pulse1 := pulse1
          pulse2 := pulse2
          triangle := triangle
          noise := noise
          sequencer := c.sequencer.write value } := by
  unfold writeFrameCounter
  dsimp only
  split
  · exact ⟨_, _, _, _, rfl⟩
  · exact ⟨_, _, _, _, rfl⟩

/-- What each clock keeps, and no remainder in the accumulator touches, the clocks of a sample
keep. -/
theorem drain_induction {P : Chip → Prop} (clock : ∀ c : Chip, P c → P c.clock)
    (carry : ∀ (c : Chip) (accumulator : Float32), P c → P { c with accumulator := accumulator })
    (fuel : Nat) {c : Chip} (accumulator : Float32) (h : P c) : P (drain fuel c accumulator) := by
  induction fuel generalizing c accumulator with
  | zero => exact carry c accumulator h
  | succ fuel ih =>
    unfold drain
    split
    · exact ih _ (clock c h)
    · exact carry c accumulator h

/-! ### The board and the counts -/

/-- What neither the voices nor the output path reach: the shadow file, and what the sample rate
sets. -/
structure Board where
  shadow : Vector UInt8 registerFileSize
  sampleRate : UInt32
  clocksPerSample : Float32
  coefficients : FilterCoefficients

/-- The chip's board. -/
def board (c : Chip) : Board :=
  { shadow := c.shadow
    sampleRate := c.sampleRate
    clocksPerSample := c.clocksPerSample
    coefficients := c.coefficients }

/-- What the chip counts: writes, and samples that are not silent. -/
structure Counts where
  registerWrites : UInt64
  nonSilentSamples : UInt64

/-- The chip's counts. -/
def counts (c : Chip) : Counts :=
  { registerWrites := c.registerWrites, nonSilentSamples := c.nonSilentSamples }

/-- What surrounds the voices and is out of their reach. -/
def surroundings (c : Chip) : Board × Counts := (c.board, c.counts)

theorem surroundings_dispatch (c : Chip) (register : Register) (value : UInt8) :
    (c.dispatch register value).surroundings = c.surroundings := by
  cases register with
  | pulseControl id | pulseSweep id | pulseTimerLow id | pulseTimerHigh id => cases id <;> rfl
  | frameCounter =>
    obtain ⟨_, _, _, _, hmode⟩ := c.writeFrameCounter_eq value
    show (c.writeFrameCounter value).surroundings = c.surroundings
    rw [hmode]
    rfl
  | _ => rfl

theorem surroundings_frameTick (c : Chip) : c.frameTick.surroundings = c.surroundings := by
  obtain ⟨_, _, _, _, htick⟩ := c.frameTick_eq
  rw [htick]
  rfl

theorem surroundings_clock (c : Chip) : c.clock.surroundings = c.surroundings := by
  unfold clock
  split
  · rfl
  · rfl

theorem surroundings_runSampleClocks (c : Chip) :
    c.runSampleClocks.surroundings = c.surroundings :=
  drain_induction (P := fun d => d.surroundings = c.surroundings)
    (fun d h => d.surroundings_clock.trans h) (fun _ _ h => h) maxClocksPerSample _ rfl

/-- Mixing changes the memories of the filters, and a frame may be counted. -/
theorem emit_eq (c : Chip) (options : RenderOptions) :
    ∃ mono left right heard, (c.emit options).2
      = { c with
          monoFilter := mono
          leftFilter := left
          rightFilter := right
          nonSilentSamples := heard } := by
  have hmix : ∃ mono left right, (c.mix options).2
      = { c with monoFilter := mono, leftFilter := left, rightFilter := right } := by
    unfold mix
    dsimp only
    split
    · split
      · exact ⟨_, _, _, rfl⟩
      · exact ⟨_, _, _, rfl⟩
    · split
      · exact ⟨_, _, _, rfl⟩
      · exact ⟨_, _, _, rfl⟩
  obtain ⟨mono, left, right, hmixed⟩ := hmix
  unfold emit
  dsimp only
  rw [hmixed]
  split
  · exact ⟨mono, left, right, _, rfl⟩
  · exact ⟨mono, left, right, _, rfl⟩

theorem board_dispatch (c : Chip) (register : Register) (value : UInt8) :
    (c.dispatch register value).board = c.board :=
  congrArg Prod.fst (c.surroundings_dispatch register value)

theorem board_frameTick (c : Chip) : c.frameTick.board = c.board :=
  congrArg Prod.fst c.surroundings_frameTick

theorem board_clock (c : Chip) : c.clock.board = c.board :=
  congrArg Prod.fst c.surroundings_clock

theorem board_nextSample (c : Chip) (options : RenderOptions) :
    (c.nextSample options).2.board = c.board := by
  obtain ⟨_, _, _, _, hemit⟩ := c.runSampleClocks.emit_eq options
  show (c.runSampleClocks.emit options).2.board = c.board
  rw [hemit]
  exact congrArg Prod.fst c.surroundings_runSampleClocks

/-! ### Induction -/

/-- What every operation of a run keeps, the run keeps. -/
theorem after_induction_mem {P : Chip → Prop} {ops : List ChipOp}
    (step : ∀ (c : Chip) (op : ChipOp), op ∈ ops → P c → P (op.run c)) (c : Chip) (h : P c) :
    P (c.after ops) := by
  induction ops generalizing c with
  | nil => exact h
  | cons op rest ih =>
    exact ih (fun c op hop => step c op (List.mem_cons_of_mem _ hop)) (op.run c)
      (step c op List.mem_cons_self h)

/-- What every operation keeps, every run keeps. -/
theorem after_induction {P : Chip → Prop} (step : ∀ (c : Chip) (op : ChipOp), P c → P (op.run c))
    (c : Chip) (ops : List ChipOp) (h : P c) : P (c.after ops) :=
  after_induction_mem (fun c op _ => step c op) c h

end Chip

end Chiptune
