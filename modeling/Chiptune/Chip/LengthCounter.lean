import Chiptune.Chip.Tables
/-!
# Length counter

Four of the voices stop by themselves when a counter of half-frames runs out. The counter
is loaded from a table, counts down unless halted, and is cleared when its voice is
switched off.
-/

set_option autoImplicit false

namespace Chiptune

/-- Half-frames left before a voice stops, and whether the count is held. -/
structure LengthCounter where
  count : Nat := 0
  halt : Bool := false
deriving DecidableEq, Repr

namespace LengthCounter

/-- Loads the table entry at `index`. -/
def load (c : LengthCounter) (index : Nat) : LengthCounter :=
  { c with count := lengthOf index }

/-- Sets whether the count is held. -/
def setHalt (c : LengthCounter) (halt : Bool) : LengthCounter := { c with halt := halt }

/-- Clears the count of a voice that is switched off. -/
def gate (c : LengthCounter) (enabled : Bool) : LengthCounter :=
  if enabled then c else { c with count := 0 }

/-- One half-frame. -/
def clock (c : LengthCounter) : LengthCounter :=
  if c.halt then c else { c with count := c.count - 1 }

/-- Whether the count has not run out. -/
def running (c : LengthCounter) : Bool := 0 < c.count

end LengthCounter

end Chiptune
