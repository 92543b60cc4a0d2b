/-!
# Frame pacer

Replays frame ticks on the audio clock. Ticks that have been issued wait in a backlog and
are released one per `sampleRate / 240` samples. A long backlog drains at double rate, and
one over a second of ticks loses its oldest. Ticks are counted modulo `2 ^ 32`; a command
carries the count at which it was queued and is due once that count has been reached.
-/

set_option autoImplicit false

namespace Chiptune

/-- State of the pacer. -/
structure Pacer where
  samplesPerTick : Float32
  /-- Samples since the last release. Held one short of an interval while idle, so that the
  next tick is released at the next sample. -/
  phase : Float32
  /-- Count of issued ticks at the last observation. -/
  seen : UInt32 := 0
  /-- Ticks that wait. -/
  pending : Nat := 0
  /-- Ticks released or dropped. -/
  consumed : UInt32 := 0
  applied : Nat := 0
  dropped : Nat := 0

namespace Pacer

/-- Frame ticks per second. -/
def frameRateHz : Float32 := 240.0

/-- Above this backlog ticks are released at twice the normal rate. -/
def catchUpBacklog : Nat := 24

/-- Longest backlog that is kept, one second. -/
def maxBacklog : Nat := 240

/-- Largest 32-bit number; a sum that would pass it stays there. -/
def maxWord : Nat := UInt32.size - 1

/-- Samples between two ticks at a rate; zero counts as one. -/
def interval (sampleRate : UInt32) : Float32 := (max sampleRate 1).toFloat32 / frameRateHz

/-- The smaller of two numbers. -/
def lesser (x y : Float32) : Float32 := if x < y then x else y

/-- An idle pacer. -/
def create (sampleRate : UInt32) : Pacer :=
  { samplesPerTick := interval sampleRate, phase := interval sampleRate - 1.0 }

/-- Follows a change of the sample rate. -/
def retune (p : Pacer) (sampleRate : UInt32) : Pacer :=
  { p with samplesPerTick := interval sampleRate }

/-- Takes in every tick issued up to a count and drops what is too old. -/
def observe (p : Pacer) (issued : UInt32) : Pacer :=
  let waiting := min (p.pending + (issued - p.seen).toNat) maxWord
  let excess := waiting - maxBacklog
  { p with
    seen := issued
    pending := waiting - excess
    consumed := p.consumed + UInt32.ofNat excess
    dropped := p.dropped + excess }

/-- Samples to wait for the next release, which depends on the backlog. -/
def currentInterval (p : Pacer) : Float32 :=
  if catchUpBacklog < p.pending then p.samplesPerTick * 0.5 else p.samplesPerTick

/-- Moves on by one sample and says whether a tick is due before it. -/
def advance (p : Pacer) : Bool × Pacer :=
  let phase := p.phase + 1.0
  if p.pending = 0 then
    -- Idle time does not bank ticks that would later be released in a burst.
    (false, { p with phase := lesser phase (p.samplesPerTick - 1.0) })
  else if phase < p.currentInterval then
    (false, { p with phase := phase })
  else
    (true,
      { p with
        phase := lesser (phase - p.currentInterval) 1.0
        pending := p.pending - 1
        consumed := p.consumed + 1
        applied := p.applied + 1 })

/-- Whether every tick issued before a stamp has been released or dropped. -/
def hasReached (p : Pacer) (stamp : UInt32) : Bool := (stamp - p.consumed).toInt32 ≤ 0

end Pacer

end Chiptune
