/-!
# Delta sample memory

Sixteen kilobytes seen by the chip at `$C000` to `$FFFF`. `SampleMemory.load` copies what
fits and reports how many bytes that was.
-/

set_option autoImplicit false

namespace Chiptune

/-- Bytes of sample memory. -/
def sampleCapacity : Nat := 0x4000

/-- Address of the first byte. -/
def sampleBase : Nat := 0xC000

/-- Contents of the sample memory. -/
structure SampleMemory where
  bytes : Vector UInt8 sampleCapacity

namespace SampleMemory

/-- Wiped memory: alternating bits, which play as silence. -/
def blank : SampleMemory := ⟨Vector.replicate sampleCapacity 0x55⟩

/-- The byte at an offset, none past the end. -/
def byte? (m : SampleMemory) (offset : Nat) : Option UInt8 := m.bytes[offset]?

/-- How many of `count` bytes are kept when they are loaded at `offset`. -/
def room (count offset : Nat) : Nat := min count (sampleCapacity - offset)

/-- Copies `data` to `offset` and on; what lies past the end is dropped. -/
def load (m : SampleMemory) (data : Array UInt8) (offset : Nat) : SampleMemory :=
  ⟨Vector.ofFn fun i =>
    if offset ≤ i.val then (data[i.val - offset]?).getD m.bytes[i] else m.bytes[i]⟩

end SampleMemory

end Chiptune
