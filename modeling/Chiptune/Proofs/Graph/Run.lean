import Chiptune.Graph.Cycle
import Chiptune.Graph.Host

/-!
# `Chiptune.Proofs.Graph.Run`: runs of the audio graph

The host's calls take several steps: a command is sent, the list of connections is changed, and
what has come back is collected. Between any two of them the audio side can run cycles, as many
as it likes. `GraphHistory.step` is one step of either side, `Phase` says how far the host has
come, and a `GraphHistory` also keeps which connections were made and which were handed back.

Without cycles in between, the steps of a call are the call
(`GraphHistory.begin_proceed`).
-/

set_option autoImplicit false

namespace Chiptune

/-- Something a host asks of a graph. -/
inductive GraphCall (σ : Type) where
  | connect (source : σ)
  | disconnect (id : ConnectionId)
  | disconnectAll
  | muteAndDisconnect
  | reclaim
  | unmute

namespace GraphCall

variable {σ : Type}

/-- The connections that a call hands back, none if it is refused. -/
def handedBack (r : Graph.Reply σ (List (Connection σ))) : List (Connection σ) :=
  match r.result with
  | .ok connections => connections
  | .error _ => []

/-- A whole call: the graph after it, and the connections it hands back. -/
def run (call : GraphCall σ) (g : Graph σ) : Graph σ × List (Connection σ) :=
  match call with
  | connect source => ((g.connect source).state, [])
  | disconnect id => ((g.disconnect id).state, handedBack (g.disconnect id))
  | disconnectAll => (g.disconnectAll.state, handedBack g.disconnectAll)
  | muteAndDisconnect => (g.muteAndDisconnect.state, handedBack g.muteAndDisconnect)
  | reclaim => (g.reclaim.state, g.reclaim.result)
  | unmute => (g.unmute, [])

end GraphCall

/-- The connections that a call strikes off. -/
inductive Strike where
  | one (id : ConnectionId)
  | all

namespace Strike

variable {σ : Type}

/-- The command that goes with it. -/
def command : Strike → GraphCommand σ
  | one id => .disconnect id
  | all => .disconnectAll

/-- Strikes the connections off the list. -/
def apply (strike : Strike) (g : Graph σ) : Graph σ :=
  match strike with
  | one id => g.forget id
  | all => g.forgetAll

end Strike

/-- How far the host has come with a call. -/
inductive Phase where
  /-- No call is going on. -/
  | idle
  /-- A command to remove connections is to be sent. -/
  | sending (strike : Strike)
  /-- It has been sent; the connections are to be struck off. -/
  | striking (strike : Strike)
  /-- A connection has been sent; it is to be put on the list. -/
  | enlisting (id : ConnectionId)
  /-- What has come back is to be collected. -/
  | collecting

/-- A graph with the host's call and with what has happened to it. -/
structure GraphHistory (σ : Type) where
  graph : Graph σ
  phase : Phase := .idle
  /-- Connections that were made, as they were sent. -/
  connected : List (Connection σ) := []
  /-- Connections that were handed back to the host. -/
  collected : List (Connection σ) := []

/-- A step of the host or of the audio side, which plays with any surroundings. -/
inductive GraphStep (σ ω : Type) where
  | call (call : GraphCall σ)
  | proceed
  | cycle (world : ω)

namespace GraphHistory

variable {σ ω : Type}

/-- A new graph. -/
def start (pool : Pool) : GraphHistory σ := { graph := .create pool }

/-- The beginning of a call, up to the first point at which the audio side can matter. -/
def begin (h : GraphHistory σ) (call : GraphCall σ) : GraphHistory σ :=
  match call with
  | .connect source =>
    if maxConnections ≤ h.graph.live.length then
      h
    else
      match h.graph.send (.connect ⟨h.graph.nextId, source⟩) with
      | (false, g) => { h with graph := g }
      | (true, g) =>
        { h with
          graph := g
          phase := .enlisting h.graph.nextId
          connected := h.connected ++ [⟨h.graph.nextId, source⟩] }
  | .disconnect id =>
    if h.graph.live.contains id then { h with phase := .sending (.one id) } else h
  | .disconnectAll =>
    { h with phase := if h.graph.live.isEmpty then .collecting else .sending .all }
  | .muteAndDisconnect =>
    if h.graph.live.isEmpty then
      { h with phase := .collecting }
    else
      { h with graph := { h.graph with muted := true }, phase := .sending .all }
  | .reclaim => { h with phase := .collecting }
  | .unmute => { h with graph := h.graph.unmute }

/-- The next step of the call that is going on, if one is. -/
def proceed (h : GraphHistory σ) : GraphHistory σ :=
  match h.phase with
  | .idle => h
  | .sending strike =>
    match h.graph.send strike.command with
    | (false, g) => { h with graph := g, phase := .idle }
    | (true, g) => { h with graph := g, phase := .striking strike }
  | .striking strike => { h with graph := strike.apply h.graph, phase := .collecting }
  | .enlisting id => { h with graph := h.graph.enlist id, phase := .idle }
  | .collecting =>
    { h with
      graph := h.graph.reclaim.state
      phase := .idle
      collected := h.collected ++ h.graph.reclaim.result }

/-- One step. The host begins no call before the last has ended. -/
def step (play : Playing σ ω) (h : GraphHistory σ) : GraphStep σ ω → GraphHistory σ
  | .call call =>
    match h.phase with
    | .idle => h.begin call
    | _ => h
  | .proceed => h.proceed
  | .cycle world => { h with graph := (h.graph.nextBlock play world).2.1 }

/-- The history after a list of steps. -/
def run (play : Playing σ ω) (h : GraphHistory σ) (steps : List (GraphStep σ ω)) :
    GraphHistory σ := steps.foldl (step play) h

/-- Sending, striking and collecting without a cycle in between are the end of a call. -/
theorem proceed_sending {h : GraphHistory σ} {strike : Strike}
    (hphase : h.phase = .sending strike) (notices : List Notice)
    {reply : Graph.Reply σ (List (Connection σ))}
    (hreply : reply = match h.graph.send strike.command with
      | (false, g) => g.refuse .commandQueueFull
      | (true, g) => (strike.apply g).settle notices) :
    let h' := h.proceed.proceed.proceed
    h'.phase = .idle ∧ h'.graph = reply.state ∧
      h'.collected = h.collected ++ GraphCall.handedBack reply := by
  obtain ⟨graph, phase, connected, collected⟩ := h
  obtain rfl : phase = .sending strike := hphase
  subst hreply
  -- A refused command ends the call at once, and the two steps left do nothing.
  dsimp only [proceed]
  cases hsend : graph.send strike.command with
  | mk taken g =>
    cases taken with
    | false => exact ⟨rfl, rfl, (List.append_nil _).symm⟩
    | true => exact ⟨rfl, rfl, rfl⟩

/-- A call whose steps follow each other without a cycle in between is the whole call. -/
theorem begin_proceed (h : GraphHistory σ) (hidle : h.phase = .idle) (call : GraphCall σ) :
    let h' := (h.begin call).proceed.proceed.proceed
    h'.phase = .idle ∧ h'.graph = (call.run h.graph).1 ∧
      h'.collected = h.collected ++ (call.run h.graph).2 := by
  obtain ⟨graph, phase, connected, collected⟩ := h
  obtain rfl : phase = .idle := hidle
  cases call with
  | connect source =>
    dsimp only [begin, GraphCall.run, Graph.connect]
    by_cases hfull : maxConnections ≤ graph.live.length
    · rw [if_pos hfull, if_pos hfull]
      exact ⟨rfl, rfl, (List.append_nil _).symm⟩
    · rw [if_neg hfull, if_neg hfull]
      cases hsend : graph.send (.connect ⟨graph.nextId, source⟩) with
      | mk taken g =>
        cases taken with
        | false => exact ⟨rfl, rfl, (List.append_nil _).symm⟩
        | true => exact ⟨rfl, rfl, (List.append_nil _).symm⟩
  | disconnect id =>
    dsimp only [begin, GraphCall.run]
    by_cases hlive : graph.live.contains id = true
    · rw [if_pos hlive]
      -- The call and its steps send the same command and strike off the same name.
      refine proceed_sending rfl [.connectionRemoved id] ?_
      rw [Graph.disconnect, if_pos hlive]
      rfl
    · rw [if_neg hlive, Graph.disconnect, if_neg hlive]
      exact ⟨rfl, rfl, (List.append_nil _).symm⟩
  | disconnectAll =>
    dsimp only [begin, GraphCall.run]
    by_cases hempty : graph.live.isEmpty = true
    · rw [if_pos hempty, Graph.disconnectAll, if_pos hempty]
      exact ⟨rfl, rfl, rfl⟩
    · rw [if_neg hempty]
      refine proceed_sending rfl [.connectionsRemoved] ?_
      rw [Graph.disconnectAll, if_neg hempty]
      rfl
  | muteAndDisconnect =>
    dsimp only [begin, GraphCall.run]
    by_cases hempty : graph.live.isEmpty = true
    · rw [if_pos hempty, Graph.muteAndDisconnect, if_pos hempty]
      exact ⟨rfl, rfl, rfl⟩
    · rw [if_neg hempty]
      refine proceed_sending rfl [.outputMuted] ?_
      rw [Graph.muteAndDisconnect, if_neg hempty]
      rfl
  | reclaim => exact ⟨rfl, rfl, rfl⟩
  | unmute => exact ⟨rfl, rfl, (List.append_nil _).symm⟩

end GraphHistory

end Chiptune
