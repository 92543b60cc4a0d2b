import Chiptune.Proofs.Chip.Run

/-!
# `Chiptune.Proofs.Chip.Counts`: what the chip counts

The chip counts the writes to its registers and the samples of which a side was not zero, both
modulo `2 ^ 64`. A reset starts over with either. `ChipOp.tally` says what an operation does to the
count of writes, and `Chip.nonSilentSamples_of_quiet` which operations leave the other count alone.

`Past.writes` is the number of writes since the last reset, of a history with the latest operation
first. The main result is `Chip.registerWrites_after`: from power-up on, this is what the chip has
counted.
-/

set_option autoImplicit false

namespace Chiptune

namespace ChipOp

/-- Whether the operation is a register write. -/
def isWrite : ChipOp → Bool
  | .write _ _ => true
  | _ => false

/-- The count of writes after the operation. -/
def tally (writes : UInt64) : ChipOp → UInt64
  | .write _ _ => writes + 1
  | .reset => 0
  | _ => writes

/-- Whether the operation gives no sample and clears no count. -/
def isQuiet : ChipOp → Bool
  | .sample _ | .reset => false
  | _ => true

end ChipOp

/-- Register writes since the last reset. -/
def Past.writes (past : List ChipOp) : Nat :=
  (past.takeWhile fun op => op ≠ .reset).countP ChipOp.isWrite

namespace Chip

theorem counts_write (c : Chip) (register : Register) (value : UInt8) :
    (c.write register value).counts
      = { c.counts with registerWrites := c.registerWrites + 1 } := by
  have hnoted : ({ c with registerWrites := c.registerWrites + 1 }.remember register value).counts
      = { c.counts with registerWrites := c.registerWrites + 1 } := by
    unfold remember
    split
    · rfl
    · rfl
  rw [write, ← hnoted]
  exact congrArg Prod.snd (surroundings_dispatch _ register value)

theorem counts_frameTick (c : Chip) : c.frameTick.counts = c.counts :=
  congrArg Prod.snd c.surroundings_frameTick

theorem counts_clock (c : Chip) : c.clock.counts = c.counts :=
  congrArg Prod.snd c.surroundings_clock

theorem counts_runSampleClocks (c : Chip) : c.runSampleClocks.counts = c.counts :=
  congrArg Prod.snd c.surroundings_runSampleClocks

theorem registerWrites_run (c : Chip) (op : ChipOp) :
    (op.run c).registerWrites = op.tally c.registerWrites := by
  cases op with
  | write register value => exact congrArg Counts.registerWrites (c.counts_write register value)
  | frameTick => exact congrArg Counts.registerWrites c.counts_frameTick
  | clock => exact congrArg Counts.registerWrites c.counts_clock
  | sample options =>
    obtain ⟨_, _, _, _, hemit⟩ := c.runSampleClocks.emit_eq options
    show (c.runSampleClocks.emit options).2.registerWrites = c.registerWrites
    rw [hemit]
    exact congrArg Counts.registerWrites c.counts_runSampleClocks
  | load data offset => rfl
  | reset => rfl
  | setRate sampleRate => rfl

/-- Only samples are counted as not silent, and only resets clear their count. -/
theorem nonSilentSamples_of_quiet (c : Chip) {op : ChipOp} (hop : op.isQuiet = true) :
    (op.run c).nonSilentSamples = c.nonSilentSamples := by
  cases op with
  | write register value => exact congrArg Counts.nonSilentSamples (c.counts_write register value)
  | frameTick => exact congrArg Counts.nonSilentSamples c.counts_frameTick
  | clock => exact congrArg Counts.nonSilentSamples c.counts_clock
  | load data offset => rfl
  | setRate sampleRate => rfl
  | sample options => nomatch hop
  | reset => nomatch hop

end Chip

/-- What the count of writes does, the number of writes in a history does. -/
theorem Past.ofNat_writes_cons (op : ChipOp) (past : List ChipOp) :
    UInt64.ofNat (Past.writes (op :: past)) = op.tally (UInt64.ofNat (Past.writes past)) := by
  cases op with
  | write register value =>
    have hone : writes (.write register value :: past) = writes past + 1 :=
      List.countP_cons_of_pos rfl
    rw [hone]
    exact UInt64.ofNat_add (writes past) 1
  | _ => rfl

namespace Chip

/-- A chip that has counted the writes of a history goes on counting. -/
theorem registerWrites_of_past {c : Chip} {past : List ChipOp}
    (h : c.registerWrites = UInt64.ofNat (Past.writes past)) (ops : List ChipOp) :
    (c.after ops).registerWrites = UInt64.ofNat (Past.writes (ops.reverse ++ past)) := by
  induction ops generalizing c past with
  | nil => exact h
  | cons op rest ih =>
    rw [List.reverse_cons, List.append_assoc]
    refine ih ?_
    rw [registerWrites_run, h]
    exact (Past.ofNat_writes_cons op past).symm

/-- From power-up on, a chip counts the writes since its last reset. -/
theorem registerWrites_after (sampleRate : UInt32) (ops : List ChipOp) :
    ((powerUp sampleRate).after ops).registerWrites
      = UInt64.ofNat (Past.writes ops.reverse) := by
  have hpast : (powerUp sampleRate).registerWrites = UInt64.ofNat (Past.writes []) := rfl
  rw [registerWrites_of_past hpast ops, List.append_nil]

end Chip

end Chiptune
