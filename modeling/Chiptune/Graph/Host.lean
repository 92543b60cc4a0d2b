import Chiptune.Graph.Basic
/-!
# Changing the audio graph

The host's operations. Removing connections takes three steps with time for the audio side
in between: the command is sent, the connection is struck off, and what has come back is
collected. `Graph.send`, `Graph.forget` and `Graph.reclaim` are these steps; `disconnect`,
`disconnectAll` and `muteAndDisconnect` put them together. `connect` sends the command and
then puts the connection on the list with `Graph.enlist`.
-/

set_option autoImplicit false

namespace Chiptune.Graph

variable {σ : Type}

/-- What an operation gives back. -/
abbrev Reply (σ α : Type) := Outcome (Graph σ) (Except GraphFault α)

/-- A refusal that leaves the graph as it is. -/
def refuse {α : Type} (g : Graph σ) (fault : GraphFault) : Reply σ α :=
  { result := .error fault, state := g }

/-- Queues a command, unless the queue is full. -/
def send (g : Graph σ) (command : GraphCommand σ) : Bool × Graph σ :=
  let (taken, commands) := g.commands.write command
  (taken, { g with commands := commands })

/-- Strikes a connection off the list. -/
def forget (g : Graph σ) (id : ConnectionId) : Graph σ :=
  { g with live := g.live.filter (· != id) }

/-- Strikes all connections off the list. -/
def forgetAll (g : Graph σ) : Graph σ := { g with live := [] }

/-- The name after a name; zero is left out. -/
def succId (id : ConnectionId) : ConnectionId := if id + 1 = 0 then 1 else id + 1

/-- Puts a connection on the list and goes on to the next name. -/
def enlist (g : Graph σ) (id : ConnectionId) : Graph σ :=
  { g with nextId := succId id, live := g.live ++ [id] }

/-- Hands a source to the audio side, which plays it from its next cycle on. -/
def connect (g : Graph σ) (source : σ) : Reply σ ConnectionId :=
  if maxConnections ≤ g.live.length then
    g.refuse .full
  else
    let id := g.nextId
    match g.send (.connect ⟨id, source⟩) with
    | (false, g) => g.refuse .commandQueueFull
    | (true, g) =>
      { result := .ok id
        state := g.enlist id
        notices := [.connectionAdded id] }

/-- Collects up to `fuel` sources that have come back. One that is still on the list was
sent back for want of a slot and is struck off. -/
def reclaimQueued : Nat → Graph σ → List (Connection σ) → List Notice →
    Outcome (Graph σ) (List (Connection σ))
  | 0, g, found, notices => { result := found.reverse, state := g, notices := notices.reverse }
  | fuel + 1, g, found, notices =>
    match g.returned.queue.pop? with
    | none => { result := found.reverse, state := g, notices := notices.reverse }
    | some (connection, queue) =>
      let g := { g with returned := { g.returned with queue := queue } }
      if g.live.contains connection.id then
        reclaimQueued fuel (g.forget connection.id) (connection :: found)
          (.sourceRejected connection.id :: notices)
      else
        reclaimQueued fuel g (connection :: found) (.sourceReclaimed connection.id :: notices)

/-- Collects the sources that have come back so far, oldest first. -/
def reclaim (g : Graph σ) : Outcome (Graph σ) (List (Connection σ)) :=
  reclaimQueued g.returned.available g [] []

/-- Collects what has come back as the end of an operation that was reported. -/
def settle (g : Graph σ) (notices : List Notice) : Reply σ (List (Connection σ)) :=
  let reply := g.reclaim.map Except.ok
  { reply with notices := notices ++ reply.notices }

/-- Removes one connection. -/
def disconnect (g : Graph σ) (id : ConnectionId) : Reply σ (List (Connection σ)) :=
  if g.live.contains id then
    match g.send (.disconnect id) with
    | (false, g) => g.refuse .commandQueueFull
    | (true, g) => (g.forget id).settle [.connectionRemoved id]
  else
    g.refuse (.unknownConnection id)

/-- Removes every connection. -/
def disconnectAll (g : Graph σ) : Reply σ (List (Connection σ)) :=
  if g.live.isEmpty then
    g.settle []
  else
    match g.send .disconnectAll with
    | (false, g) => g.refuse .commandQueueFull
    | (true, g) => g.forgetAll.settle [.connectionsRemoved]

/-- Mutes the output and removes every connection. The output stays muted. -/
def muteAndDisconnect (g : Graph σ) : Reply σ (List (Connection σ)) :=
  if g.live.isEmpty then
    g.settle []
  else
    match { g with muted := true }.send .disconnectAll with
    | (false, g) => g.refuse .commandQueueFull
    | (true, g) => g.forgetAll.settle [.outputMuted]

/-- Lets the output be heard again. -/
def unmute (g : Graph σ) : Graph σ := { g with muted := false }

end Chiptune.Graph
