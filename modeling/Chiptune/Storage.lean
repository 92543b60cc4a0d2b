/-!
# Room for elements

Elements of one size that are kept side by side share a piece of memory. Half of the address
space is the most that a piece can take up.
-/

set_option autoImplicit false

namespace Chiptune

/-- Largest piece of memory in bytes. -/
def maxStorageBytes : Nat := UInt64.size / 2 - 1

/-- Whether a number of elements, each of `elementBytes`, fits into one piece of memory. -/
def fitsStorage (elementBytes count : Nat) : Bool := count * elementBytes ≤ maxStorageBytes

/-- Why there is no room. -/
inductive StorageFault where
  /-- No piece of memory is large enough. -/
  | tooLarge
deriving DecidableEq, Repr

/-- Wording of the fault. -/
def StorageFault.message : StorageFault → String
  | tooLarge => "capacity overflow"

end Chiptune
