import Chiptune.Proofs.Chip.Run

/-!
# `Chiptune.Proofs.Chip.PowerUp`: a reset chip is a new chip

A reset clears every part of the chip but the sample rate and the two values that follow from it,
the clocks per sample and the filter coefficients. `Chip.Tuned` says that they do follow from it,
and every operation keeps that (`Chip.tuned_after`). So a chip that is reset is the chip that
would be made at its present rate (`Chip.reset_of_tuned`).

`Chip.replies` lists what operations hand back. `Chip.reset_is_powerUp` is the main statement: of
all that comes before a reset, only the rate that was last set counts afterwards.
-/

set_option autoImplicit false

namespace Chiptune

/-- What an operation on a chip hands back. -/
inductive ChipReply where
  | done
  | stored (count : Nat)
  | heard (frame : Frame)
deriving DecidableEq

namespace ChipOp

/-- What the operation hands back. -/
def reply (op : ChipOp) (c : Chip) : ChipReply :=
  match op with
  | .load data offset => .stored (c.loadSamples data offset).1
  | .sample options => .heard (c.nextSample options).1
  | .write _ _ | .frameTick | .clock | .reset | .setRate _ => .done

/-- The sample rate after the operation. -/
def retune (sampleRate : UInt32) : ChipOp → UInt32
  | .setRate rate => max rate 1
  | _ => sampleRate

end ChipOp

namespace Chip

/-- What a list of operations hands back. -/
def replies (c : Chip) : List ChipOp → List ChipReply
  | [] => []
  | op :: ops => op.reply c :: (op.run c).replies ops

theorem replies_append (c : Chip) (ops more : List ChipOp) :
    c.replies (ops ++ more) = c.replies ops ++ (c.after ops).replies more := by
  induction ops generalizing c with
  | nil => rfl
  | cons op ops ih => exact congrArg (op.reply c :: ·) (ih (op.run c))

/-- The chip's rate is not zero, and what follows from the rate follows from this one. -/
structure Tuned (c : Chip) : Prop where
  sampleRate : max c.sampleRate 1 = c.sampleRate
  clocksPerSample : c.clocksPerSample = clocksAt c.sampleRate
  coefficients : c.coefficients = .ofRate c.sampleRate

theorem max_one_idem (sampleRate : UInt32) : max (max sampleRate 1) 1 = max sampleRate 1 := by
  by_cases h : sampleRate ≤ 1
  · have hmax : max sampleRate 1 = 1 := if_pos h
    rw [hmax]
    rfl
  · have hmax : max sampleRate 1 = sampleRate := if_neg h
    rw [hmax, hmax]

theorem tuned_powerUp (sampleRate : UInt32) : (powerUp sampleRate).Tuned where
  sampleRate := max_one_idem sampleRate
  clocksPerSample := rfl
  coefficients := rfl

section
variable {c : Chip}

theorem Tuned.of_board {d : Chip} (h : c.Tuned) (hboard : d.board = c.board) : d.Tuned := by
  have hrate : d.sampleRate = c.sampleRate := congrArg Board.sampleRate hboard
  have hclocks : d.clocksPerSample = c.clocksPerSample := congrArg Board.clocksPerSample hboard
  have hcoefficients : d.coefficients = c.coefficients := congrArg Board.coefficients hboard
  refine ⟨?_, ?_, ?_⟩
  · rw [hrate, h.sampleRate]
  · rw [hclocks, hrate, h.clocksPerSample]
  · rw [hcoefficients, hrate, h.coefficients]

/-- A write changes the shadow file only, of what is on the board. -/
theorem board_write (c : Chip) (register : Register) (value : UInt8) :
    ∃ shadow, (c.write register value).board = { c.board with shadow := shadow } := by
  rw [write, board_dispatch]
  unfold remember
  split
  · exact ⟨_, rfl⟩
  · exact ⟨c.shadow, rfl⟩

/-- Only a change of the rate changes what the rate sets. -/
theorem Tuned.run (h : c.Tuned) (op : ChipOp) :
    (op.run c).Tuned ∧ (op.run c).sampleRate = op.retune c.sampleRate := by
  cases op with
  | write register value =>
    obtain ⟨shadow, hboard⟩ := c.board_write register value
    have hsame : (c.write register value).board = { c with shadow := shadow }.board := hboard
    have htuned : { c with shadow := shadow }.Tuned := ⟨h.1, h.2, h.3⟩
    exact ⟨htuned.of_board hsame, congrArg Board.sampleRate hboard⟩
  | load data offset => exact ⟨⟨h.1, h.2, h.3⟩, rfl⟩
  | frameTick => exact ⟨h.of_board c.board_frameTick, congrArg Board.sampleRate c.board_frameTick⟩
  | clock => exact ⟨h.of_board c.board_clock, congrArg Board.sampleRate c.board_clock⟩
  | sample options =>
    have hboard := c.board_nextSample options
    exact ⟨h.of_board hboard, congrArg Board.sampleRate hboard⟩
  | reset => exact ⟨⟨h.1, h.2, h.3⟩, rfl⟩
  | setRate sampleRate => exact ⟨⟨max_one_idem sampleRate, rfl, rfl⟩, rfl⟩

theorem Tuned.after (h : c.Tuned) (ops : List ChipOp) :
    (c.after ops).Tuned ∧ (c.after ops).sampleRate = ops.foldl ChipOp.retune c.sampleRate := by
  induction ops generalizing c with
  | nil => exact ⟨h, rfl⟩
  | cons op ops ih =>
    obtain ⟨hnext, hrate⟩ := h.run op
    rw [after_cons, List.foldl_cons, ← hrate]
    exact ih hnext

/-- Everything but the rate and what follows from it is cleared. -/
theorem reset_of_tuned (h : c.Tuned) : c.reset = powerUp c.sampleRate := by
  rw [powerUp, h.sampleRate, ← h.clocksPerSample, ← h.coefficients]
  rfl

end

/-- A reset chip is a new chip. After every run it equals, in every part, the chip that is made
at its present rate, which is the one last set. From then on it does what the new chip does and
hands back what the new chip hands back, whatever came before. -/
theorem reset_is_powerUp (sampleRate : UInt32) (ops : List ChipOp) :
    let c := (powerUp sampleRate).after ops
    let new := powerUp c.sampleRate
    c.reset = new ∧ c.sampleRate = ops.foldl ChipOp.retune (max sampleRate 1) ∧
    ∀ later : List ChipOp,
      (powerUp sampleRate).after (ops ++ .reset :: later) = new.after later ∧
      (powerUp sampleRate).replies (ops ++ .reset :: later)
        = (powerUp sampleRate).replies ops ++ .done :: new.replies later := by
  intro c new
  obtain ⟨htuned, hrate⟩ := (tuned_powerUp sampleRate).after ops
  have hreset : c.reset = new := reset_of_tuned htuned
  refine ⟨hreset, hrate, ?_⟩
  intro later
  constructor
  · rw [after_append, after_cons]
    exact congrArg (Chip.after · later) hreset
  · rw [replies_append]
    show _ ++ .done :: c.reset.replies later = _
    rw [hreset]

end Chip

end Chiptune
