import Chiptune.Notice
import Chiptune.Pool
import Chiptune.Ring
/-!
# DAC relay

A player writes unsigned eight-bit samples as its commands dictate; the audio side plays
them at the output rate and repeats the last one when none is queued. A reset takes effect
in two parts: the switches and counters at once, the queue and the held level at the next
fill, which sees that the number of resets has changed.
-/

set_option autoImplicit false

namespace Chiptune

namespace Relay

/-- Both outputs on. -/
def outputBoth : UInt8 := 0xC0

/-- Queue capacity when no other is asked for. -/
def defaultCapacity : Nat := 8192

/-- Silence queued at the start when no other amount is asked for. -/
def defaultPrefill : Nat := 512

/-- Zeros queued when the DAC is switched off, so that playback runs into silence. -/
def switchOffSilence : Nat := 64

/-- Most zeros that are queued at a time. -/
def silenceChunk : Nat := 256

/-- Bytes of a queued sample. -/
def sampleBytes : Nat := 2

/-- An unsigned eight-bit sample as a signed 16-bit one, centred on `$80`. -/
def convert (sample : UInt8) : Int16 := Int16.ofInt ((Int.ofNat sample.toNat - 128) * 256)

end Relay

/-- State of the relay, both sides together. -/
structure Relay where
  ring : Ring Int16
  /-- Master switch. While off, writes are dropped and the output is silent. -/
  enabled : Bool := false
  /-- The chip's own enable bit. -/
  dacEnabled : Bool := true
  /-- Bit 7 routes to the left output, bit 6 to the right. -/
  outputControl : UInt8 := Relay.outputBoth
  /-- Resets asked for, wrapping. -/
  resets : UInt32 := 0
  /-- Resets that a fill has acted on. -/
  resetsSeen : UInt32 := 0
  /-- Last level taken from the queue. -/
  held : Int16 := 0

namespace Relay

/-- Queues up to `wanted` zeros in chunks until one does not fit whole; gives how many were
queued. -/
def queueZeros (wanted : Nat) (ring : Ring Int16) (written : Nat) : Nat × Ring Int16 :=
  if _more : written < wanted then
    let chunk := min (wanted - written) silenceChunk
    let (count, ring) := ring.writeSlice (List.replicate chunk 0)
    if _whole : count < chunk then
      (written + count, ring)
    else
      queueZeros wanted ring (written + count)
  else
    (written, ring)
termination_by wanted - written
decreasing_by
  have hpos : 0 < min (wanted - written) silenceChunk := by
    simp only [silenceChunk]; omega
  simp only [Nat.not_lt] at _whole
  omega

/-- Queues up to `samples` zeros, no more than the ring can hold. -/
def prefillSilence (r : Relay) (samples : Nat) : Outcome Relay Nat :=
  let (written, ring) := queueZeros (min samples r.ring.limit) r.ring 0
  { result := written
    state := { r with ring := ring }
    notices := [.relayPrefilled written] }

/-- A disabled relay with silence queued. -/
def create (capacity prefill : Nat) : Except RingFault (Outcome Relay Unit) := do
  let ring ← Ring.createFor sampleBytes capacity
  let relay : Relay := { ring := ring }
  pure ((relay.prefillSilence prefill).map fun _ => ())

/-- Queues one sample. Dropped while the relay is disabled or the queue is full. -/
def writeSample (r : Relay) (sample : UInt8) : Bool × Relay :=
  if r.enabled then
    let (taken, ring) := r.ring.write (convert sample)
    (taken, { r with ring := ring })
  else
    (false, r)

/-- Queues samples in order and gives how many were taken. -/
def writeSamples (r : Relay) (samples : Array UInt8) : Nat × Relay :=
  samples.foldl (fun (taken, r) sample =>
    let (ok, r) := r.writeSample sample
    (if ok then taken + 1 else taken, r)) (0, r)

/-- Master switch. -/
def setEnabled (r : Relay) (enabled : Bool) : Outcome Relay Unit :=
  { result := (), state := { r with enabled := enabled }, notices := [.relaySwitched enabled] }

/-- The chip's own enable bit. Switching off queues a short silence. -/
def setDacEnabled (r : Relay) (enabled : Bool) : Relay :=
  let r := { r with dacEnabled := enabled }
  if enabled then
    r
  else
    { r with ring := (r.ring.writeSlice (List.replicate switchOffSilence 0)).2 }

/-- Routes the output. -/
def setOutputControl (r : Relay) (value : UInt8) : Relay := { r with outputControl := value }

/-- Restores the switches and counters; the queue and the held level follow at the next
fill. -/
def reset (r : Relay) : Outcome Relay Unit :=
  { result := ()
    state := { r with
      resets := r.resets + 1
      dacEnabled := true
      outputControl := outputBoth
      ring := r.ring.resetCounters }
    notices := [.relayReset] }

/-- Sets the overrun and underrun counters to zero. -/
def resetCounters (r : Relay) : Relay := { r with ring := r.ring.resetCounters }

/-- Drops the queue and the held level if there was a reset since the last fill. -/
def acknowledgeReset (r : Relay) : Relay :=
  if r.resets = r.resetsSeen then
    r
  else
    { r with resetsSeen := r.resets, ring := r.ring.clear, held := 0 }

/-- Whether the level reaches the left output. -/
def toLeft (r : Relay) : Bool := r.dacEnabled && r.outputControl &&& 0x80 != 0

/-- Whether the level reaches the right output. -/
def toRight (r : Relay) : Bool := r.dacEnabled && r.outputControl &&& 0x40 != 0

/-- Takes the next level, holding the last one when none is queued, and routes it. -/
def nextFrame (r : Relay) : Frame × Relay :=
  let (sample, ring) := r.ring.pop
  let r := { r with ring := ring, held := sample.getD r.held }
  ((if r.toLeft then r.held else 0, if r.toRight then r.held else 0), r)

/-- Fills two buffers. A disabled relay zeroes both and takes nothing; an enabled one fills
the frames that they share. -/
def fill (r : Relay) (left right : List Int16) : (List Int16 × List Int16) × Relay :=
  let r := r.acknowledgeReset
  if r.enabled then
    fillPair nextFrame left right r
  else
    ((left.map fun _ => 0, right.map fun _ => 0), r)

@[simp] theorem length_fill_left (r : Relay) (left right : List Int16) :
    (r.fill left right).1.1.length = left.length := by
  rw [fill]
  split
  · exact length_fillPair_left ..
  · exact List.length_map ..

@[simp] theorem length_fill_right (r : Relay) (left right : List Int16) :
    (r.fill left right).1.2.length = right.length := by
  rw [fill]
  split
  · exact length_fillPair_right ..
  · exact List.length_map ..

/-- Renders one block as a source of the audio graph. -/
def update (r : Relay) (pool : Pool) : Option StereoBlock × Relay × Pool :=
  match pool.allocateStereo with
  | (none, pool) => (none, r, pool)
  | (some stale, pool) =>
    let filled := r.fill stale.left.toList stale.right.toList
    (some (.ofSides filled.1 (by simp [filled]) (by simp [filled])), filled.2, pool)

/-- Queue state as the writer sees it. -/
structure Report where
  level : Nat
  fillPercent : Float32
  underruns : UInt32
  overruns : UInt32

/-- Queue state as the writer sees it. -/
def report (r : Relay) : Report :=
  { level := r.ring.available
    fillPercent := r.ring.fillPercent
    underruns := r.ring.underruns
    overruns := r.ring.overruns }

end Relay

end Chiptune
