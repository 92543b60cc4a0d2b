import Chiptune.Byte
import Chiptune.Chip.SampleMemory
import Chiptune.Chip.Tables
/-!
# Delta modulation voice

Plays one-bit differences from sample memory: each bit, least significant first, moves a
seven-bit level up or down by two. The level can also be set directly. A sample ends when
its bytes and the bits of the last byte are out; a looping one starts over.
-/

set_option autoImplicit false

namespace Chiptune

/-- State of the delta modulation voice. -/
structure Dmc where
  enabled : Bool := false
  /-- Latched from the control register; no interrupt line is driven. -/
  irqEnabled : Bool := false
  loop : Bool := false
  rateIndex : Nat := 0
  counter : Nat := 0
  /-- Power-up is the centre of the range, so that the first sample does not pop. -/
  level : Nat := 0x40
  startAddress : Nat := 0
  configuredLength : Nat := 0
  readOffset : Nat := 0
  bytesRemaining : Nat := 0
  shiftByte : Nat := 0
  bitsRemaining : Nat := 0
  silent : Bool := true
  memory : SampleMemory := .blank
  /-- Something has been loaded into sample memory. -/
  loaded : Bool := false

namespace Dmc

/-- Power-up state with wiped sample memory. -/
def powerUp : Dmc := {}

/-- Back to power-up. Sample memory is wiped. -/
def reset (d : Dmc) : Dmc :=
  { d with
    enabled := false
    irqEnabled := false
    loop := false
    rateIndex := 0
    counter := 0
    level := 0x40
    startAddress := 0
    configuredLength := 0
    readOffset := 0
    bytesRemaining := 0
    shiftByte := 0
    bitsRemaining := 0
    silent := true
    memory := .blank
    loaded := false }

/-- Loads sample data and gives the number of bytes kept. -/
def loadSamples (d : Dmc) (data : Array UInt8) (offset : Nat) : Nat × Dmc :=
  if data.isEmpty || sampleCapacity ≤ offset then
    (0, d)
  else
    (SampleMemory.room data.size offset,
      { d with memory := d.memory.load data offset, loaded := true })

/-- Control register: bit 7 latches the interrupt flag, bit 6 loops, the low four bits are
the rate. -/
def writeControl (d : Dmc) (value : UInt8) : Dmc :=
  { d with
    irqEnabled := Byte.bit value 7
    loop := Byte.bit value 6
    rateIndex := Byte.field value 0 4 }

/-- Direct load of the level, seven bits. -/
def writeLevel (d : Dmc) (value : UInt8) : Dmc := { d with level := Byte.field value 0 7 }

/-- Sample address register, in steps of 64 bytes. -/
def writeAddress (d : Dmc) (value : UInt8) : Dmc :=
  { d with startAddress := sampleBase + value.toNat * 64 }

/-- Points the reader at the configured sample, if there is one inside sample memory. -/
def startSample (d : Dmc) : Dmc :=
  let offset := d.startAddress - sampleBase
  if d.startAddress < sampleBase || !d.loaded || sampleCapacity ≤ offset
      || d.configuredLength == 0 then
    d
  else
    { d with
      readOffset := offset
      bytesRemaining := min d.configuredLength (sampleCapacity - offset)
      silent := false
      bitsRemaining := 0 }

/-- Sample length register, in steps of 16 bytes. A silent voice that is switched on starts
at once. -/
def writeLength (d : Dmc) (value : UInt8) : Dmc :=
  let d := { d with configuredLength := value.toNat * 16 + 1 }
  if d.enabled && d.silent then d.startSample else d

/-- Switches the voice on, starting a configured sample if it is silent, or off, keeping
level and configuration for the next start. -/
def setEnabled (d : Dmc) (enabled : Bool) : Dmc :=
  let d := { d with enabled := enabled }
  if enabled then
    if d.silent then d.startSample else d
  else
    { d with silent := true }

/-- Fetches the next byte into the shift register; past the end of memory the voice falls
silent. -/
def fetch (d : Dmc) : Dmc :=
  match d.memory.byte? d.readOffset with
  | some byte =>
    { d with
      shiftByte := byte.toNat
      readOffset := d.readOffset + 1
      bytesRemaining := d.bytesRemaining - 1
      bitsRemaining := 8 }
  | none => { d with bytesRemaining := 0, silent := true }

/-- Makes bits available when the current byte is used up: the next byte, the first byte of
a looping sample, or silence. -/
def refill (d : Dmc) : Dmc :=
  if 0 < d.bitsRemaining then
    d
  else if 0 < d.bytesRemaining then
    d.fetch
  else if d.loop then
    let d := d.startSample
    if d.silent || d.bytesRemaining == 0 then d else d.fetch
  else
    { d with silent := true }

/-- The level after one bit of sample data: two up or down, kept inside seven bits. -/
def stepLevel (level : Nat) (up : Bool) : Nat :=
  if up then
    if level ≤ 125 then level + 2 else level
  else
    if 2 ≤ level then level - 2 else level

/-- Plays the low bit of the shift register. -/
def shiftOut (d : Dmc) : Dmc :=
  { d with
    level := stepLevel d.level (d.shiftByte % 2 == 1)
    shiftByte := d.shiftByte / 2
    bitsRemaining := d.bitsRemaining - 1 }

/-- One bit of sample data, if there is one left. -/
def nextBit (d : Dmc) : Dmc :=
  let d := d.refill
  if 0 < d.bitsRemaining then d.shiftOut else d

/-- One timer clock. Only a playing voice is timed. -/
def clockTimer (d : Dmc) : Dmc :=
  if d.silent then
    d
  else if d.counter ≤ 1 then
    { d with counter := d.counter + deltaRateOf d.rateIndex - 1 }.nextBit
  else
    { d with counter := d.counter - 1 }

/-- Seven-bit level. -/
def output (d : Dmc) : Nat := d.level % 128

end Dmc

end Chiptune
