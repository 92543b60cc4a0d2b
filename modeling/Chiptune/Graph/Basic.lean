import Chiptune.Notice
import Chiptune.Pool
import Chiptune.Ring
/-!
# Audio graph

Up to eight sources are mixed, one block at a time. The host changes the graph through a
ring of commands that the audio side carries out at the start of its next cycle; sources it
lets go of come back through a second ring. Main definitions:

* `Graph`: both sides of the graph as one value.
* `Graph.applyCommands`: what a cycle does first.
-/

set_option autoImplicit false

namespace Chiptune

/-- Names a connection for as long as the graph lives. -/
abbrev ConnectionId := UInt32

/-- A source under its name. -/
structure Connection (σ : Type) where
  id : ConnectionId
  source : σ
deriving DecidableEq

/-- A change of the graph on its way to the audio side. -/
inductive GraphCommand (σ : Type) where
  | connect (connection : Connection σ)
  | disconnect (id : ConnectionId)
  | disconnectAll
deriving DecidableEq

/-- Most connections at a time. -/
def maxConnections : Nat := 8

/-- Capacity of the command ring. -/
def commandRingCapacity : Nat := 16

/-- Capacity of the ring that sources come back through. -/
def returnRingCapacity : Nat := 32

/-- Why a change of the graph is refused. -/
inductive GraphFault where
  | full
  | commandQueueFull
  | unknownConnection (id : ConnectionId)
deriving DecidableEq, Repr

/-- Wording of the fault. -/
def GraphFault.message : GraphFault → String
  | full => "audio graph already has " ++ toString maxConnections ++ " connections"
  | commandQueueFull => "audio graph command queue is full"
  | unknownConnection id => "no audio connection with id " ++ toString id.toNat

/-- Places for connections, some of them empty. -/
abbrev Slots (σ : Type) := List (Option (Connection σ))

namespace Slots

variable {σ : Type}

/-- Puts a connection into the first empty slot, if there is one. -/
def place? (connection : Connection σ) : Slots σ → Option (Slots σ)
  | [] => none
  | none :: rest => some (some connection :: rest)
  | some other :: rest => (place? connection rest).map (some other :: ·)

/-- Takes out the first connection of a name. -/
def takeOut (id : ConnectionId) : Slots σ → Option (Connection σ) × Slots σ
  | [] => (none, [])
  | none :: rest =>
    let (found, rest) := takeOut id rest
    (found, none :: rest)
  | some connection :: rest =>
    if connection.id = id then
      (some connection, none :: rest)
    else
      let (found, rest) := takeOut id rest
      (found, some connection :: rest)

/-- The connections, in slot order. -/
def connections (slots : Slots σ) : List (Connection σ) := slots.filterMap id

/-- As many slots, all empty. -/
def emptied (slots : Slots σ) : Slots σ := slots.map fun _ => none

end Slots

/-- State of the graph, host and audio side together. -/
structure Graph (σ : Type) where
  /-- Connections as the host knows them. -/
  live : List ConnectionId := []
  nextId : ConnectionId := 1
  commands : Ring (GraphCommand σ) := { capacity := commandRingCapacity }
  returned : Ring (Connection σ) := { capacity := returnRingCapacity }
  slots : Slots σ := List.replicate maxConnections none
  pool : Pool
  muted : Bool := false
  cycles : Nat := 0
  /-- Blocks that sources did not deliver. -/
  skipped : Nat := 0

namespace Graph

variable {σ : Type}

/-- A graph without connections, with a pool of blocks for its sources. -/
def create (pool : Pool) : Graph σ := { pool := pool }

/-- Connections the host knows. -/
def liveCount (g : Graph σ) : Nat := g.live.length

/-- Connections that are played. -/
def playedCount (g : Graph σ) : Nat := (Slots.connections g.slots).length

/-- Sends a connection back to the host; a full ring loses it. -/
def giveBack (g : Graph σ) (connection : Connection σ) : Graph σ :=
  { g with returned := (g.returned.push connection).2 }

/-- Carries out one command. A connection for which there is no slot is sent back. -/
def applyCommand (g : Graph σ) (command : GraphCommand σ) : Graph σ :=
  match command with
  | .connect connection =>
    match Slots.place? connection g.slots with
    | some slots => { g with slots := slots }
    | none => g.giveBack connection
  | .disconnect id =>
    let (found, slots) := Slots.takeOut id g.slots
    match found with
    | some connection => { g with slots := slots }.giveBack connection
    | none => g
  | .disconnectAll =>
    (Slots.connections g.slots).foldl giveBack { g with slots := Slots.emptied g.slots }

/-- Carries out queued commands from the oldest on, at most `fuel` of them. -/
def applyQueued : Nat → Graph σ → Graph σ
  | 0, g => g
  | fuel + 1, g =>
    match g.commands.queue.pop? with
    | some (command, queue) =>
      applyQueued fuel
        ({ g with commands := { g.commands with queue := queue } }.applyCommand command)
    | none => g

/-- Carries out every queued command. -/
def applyCommands (g : Graph σ) : Graph σ := applyQueued g.commands.available g

end Graph

end Chiptune
