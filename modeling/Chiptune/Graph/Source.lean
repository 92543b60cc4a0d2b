import Chiptune.Engine.Basic
import Chiptune.Graph.Cycle
import Chiptune.Relay
/-!
# Sources of the audio graph

What a player connects: engines and DAC relays, which the host keeps working with while they
are connected, and simple signals. Engines and relays live in a `Studio`; a source names its
place there.
-/

set_option autoImplicit false

namespace Chiptune

/-- Engines and relays that sources refer to. -/
structure Studio where
  engines : Array Engine := #[]
  relays : Array Relay := #[]

namespace Studio

/-- Puts an engine in the place of another. -/
def setEngine (s : Studio) (index : Nat) (e : Engine) : Studio :=
  { s with engines := s.engines.setIfInBounds index e }

/-- Puts a relay in the place of another. -/
def setRelay (s : Studio) (index : Nat) (r : Relay) : Studio :=
  { s with relays := s.relays.setIfInBounds index r }

end Studio

/-- A source of the graph. -/
inductive Source where
  /-- A fixed level on the left, its negative on the right. -/
  | constant (level : Int16)
  /-- A level that grows by one each sample, with its negative on the right. -/
  | ramp (level : Int16)
  /-- Never delivers a block. -/
  | idle
  /-- Takes a pair of blocks each cycle, keeps it and delivers none. -/
  | hoarder
  /-- The engine at a place in the studio. -/
  | engine (index : Nat)
  /-- The relay at a place in the studio. -/
  | relay (index : Nat)
deriving DecidableEq, Repr

namespace Source

/-- Whether the source is one of the simple signals. -/
def isSignal : Source → Bool
  | engine _ | relay _ => false
  | _ => true

/-- One frame of a ramp. -/
def rampFrame (level : Int16) : Frame × Int16 := ((level, -level), level + 1)

/-- Delivers the source's next block. -/
def play : Playing Source Studio := fun source studio pool =>
  match source with
  | constant level =>
    match pool.allocateStereo with
    | (some _, pool) =>
      (some ⟨.filled level, .filled (-level)⟩, constant level, studio, pool)
    | (none, pool) => (none, constant level, studio, pool)
  | ramp level =>
    match pool.allocateStereo with
    | (some stale, pool) =>
      let (block, level) := stale.fill rampFrame level
      (some block, ramp level, studio, pool)
    | (none, pool) => (none, ramp level, studio, pool)
  | idle => (none, idle, studio, pool)
  | hoarder => (none, hoarder, studio, pool.allocateStereo.2)
  | engine index =>
    match studio.engines[index]? with
    | some e =>
      let (block, e, pool) := e.update pool
      (block, engine index, studio.setEngine index e, pool)
    | none => (none, engine index, studio, pool)
  | relay index =>
    match studio.relays[index]? with
    | some r =>
      let (block, r, pool) := r.update pool
      (block, relay index, studio.setRelay index r, pool)
    | none => (none, relay index, studio, pool)

end Source

end Chiptune
