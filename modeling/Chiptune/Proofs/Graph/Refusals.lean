import Chiptune.Graph.Source
import Chiptune.Proofs.Graph.Aside
import Chiptune.Proofs.Graph.Run

/-!
# `Chiptune.Proofs.Graph.Refusals`: what a refused call leaves behind

A call is refused because the graph is full, because the connection is unknown, or because the
queue of commands is full. A refused call sends nothing and strikes nothing off; a full queue
counts an overrun, which nobody reads. `muteAndDisconnect` mutes the output before it sends its
command. If the queue is full then, the output stays muted while every connection goes on.

* `GraphCall.reply_of_error`: the graph after a refused call.
* `Graph.withOverruns`: the count of overruns, which no operation depends on. Every operation
  does the same with another count (`GraphCall.reply_withOverruns`, `Graph.nextBlock_withOverruns`).
* `GraphHistory.refused_call_leaves`: the main statement, over every call in every state and
  everything that follows it.
* `GraphHistory.refused_teardown_mutes`: a teardown that is refused and mutes all the same.
-/

set_option autoImplicit false

namespace Chiptune

/-- What a call gives that is not refused. -/
inductive GraphAnswer (σ : Type) where
  | connected (id : ConnectionId)
  | handedBack (connections : List (Connection σ))
  | done
deriving DecidableEq

namespace GraphCall

variable {σ : Type}

/-- A whole call with its result and its reports. -/
def reply (call : GraphCall σ) (g : Graph σ) : Graph.Reply σ (GraphAnswer σ) :=
  match call with
  | connect source => (g.connect source).map (Except.map .connected)
  | disconnect id => (g.disconnect id).map (Except.map .handedBack)
  | disconnectAll => g.disconnectAll.map (Except.map .handedBack)
  | muteAndDisconnect => g.muteAndDisconnect.map (Except.map .handedBack)
  | reclaim => g.reclaim.map fun connections => .ok (.handedBack connections)
  | unmute => { result := .ok .done, state := g.unmute }

/-- A call leaves what `GraphCall.run` says that it leaves. -/
theorem state_reply (call : GraphCall σ) (g : Graph σ) :
    (call.reply g).state = (call.run g).1 := by
  cases call with
  | connect source => rfl
  | disconnect id => rfl
  | disconnectAll => rfl
  | muteAndDisconnect => rfl
  | reclaim => rfl
  | unmute => rfl

/-- Whether the call mutes the output. -/
def mutes : GraphCall σ → Bool
  | muteAndDisconnect => true
  | _ => false

end GraphCall

namespace Graph

variable {σ ω : Type}

/-- The graph with another count of commands that found the queue full. -/
def withOverruns (g : Graph σ) (n : UInt32) : Graph σ :=
  { g with commands := { g.commands with overruns := n } }

section
variable (g : Graph σ) (n : UInt32)

/-! ### Sending -/

variable {g} in
theorem send_of_full (h : g.commands.isFull = true) (command : GraphCommand σ) :
    g.send command = (false, g.withOverruns (g.commands.overruns + 1)) := by
  rw [send, Ring.write, Ring.push_of_full _ _ h]
  rfl

variable {g} in
theorem send_of_space (h : g.commands.isFull = false) (command : GraphCommand σ) :
    g.send command
      = (true,
        { g with commands := { g.commands with queue := g.commands.queue.push command } }) := by
  rw [send, Ring.write, Ring.push_of_space _ _ h]
  rfl

/-! ### The count of overruns -/

/-- A command is taken or refused whatever the count, and changes it only if it is refused. -/
theorem send_withOverruns (command : GraphCommand σ) :
    ∃ m, (g.withOverruns n).send command
      = ((g.send command).1, (g.send command).2.withOverruns m) := by
  cases h : g.commands.isFull with
  | true =>
    rw [send_of_full h, send_of_full (g := g.withOverruns n) h]
    exact ⟨n + 1, rfl⟩
  | false =>
    rw [send_of_space h, send_of_space (g := g.withOverruns n) h]
    exact ⟨n, rfl⟩

theorem aside_withOverruns : Aside fun g : Graph σ => g.withOverruns n :=
  ⟨fun _ => rfl, fun _ => rfl, fun _ => rfl, fun _ => rfl, fun _ _ => rfl, fun _ _ => rfl,
    fun _ _ => rfl, fun _ _ => rfl, fun _ _ => rfl⟩

/-- A cycle gives the same block. -/
theorem nextBlock_withOverruns (play : Playing σ ω) (world : ω) :
    (g.withOverruns n).nextBlock play world
      = ((g.nextBlock play world).1, (g.nextBlock play world).2.1.withOverruns n,
        (g.nextBlock play world).2.2) := by
  unfold nextBlock
  rw [(aside_withOverruns n).applyCommands]
  rfl

/-! ### Removing connections -/

/-- The part that the calls share that remove connections: send the command, strike off what it
names and collect what has come back. -/
def remove (strike : Strike) (notices : List Notice) : Reply σ (List (Connection σ)) :=
  match g.send strike.command with
  | (false, g) => g.refuse .commandQueueFull
  | (true, g) => (strike.apply g).settle notices

theorem disconnect_eq (id : ConnectionId) :
    g.disconnect id
      = if g.live.contains id then g.remove (.one id) [.connectionRemoved id]
        else g.refuse (.unknownConnection id) := rfl

theorem disconnectAll_eq :
    g.disconnectAll
      = if g.live.isEmpty then g.settle [] else g.remove .all [.connectionsRemoved] := rfl

theorem muteAndDisconnect_eq :
    g.muteAndDisconnect
      = if g.live.isEmpty then g.settle []
        else { g with muted := true }.remove .all [.outputMuted] := rfl

variable {g} in
theorem remove_of_full (h : g.commands.isFull = true) (strike : Strike) (notices : List Notice) :
    g.remove strike notices
      = (g.withOverruns (g.commands.overruns + 1)).refuse .commandQueueFull := by
  rw [remove, send_of_full h]

variable {g} in
theorem remove_of_space (h : g.commands.isFull = false) (strike : Strike)
    (notices : List Notice) :
    g.remove strike notices
      = (strike.apply { g with commands :=
          { g.commands with queue := g.commands.queue.push strike.command } }).settle notices := by
  rw [remove, send_of_space h]

theorem remove_withOverruns (strike : Strike) (notices : List Notice) :
    ∃ m, (g.withOverruns n).remove strike notices
      = (g.remove strike notices).within (·.withOverruns m) := by
  cases h : g.commands.isFull with
  | true =>
    rw [remove_of_full h, remove_of_full (g := g.withOverruns n) h]
    exact ⟨n + 1, rfl⟩
  | false =>
    refine ⟨n, ?_⟩
    rw [remove_of_space h, remove_of_space (g := g.withOverruns n) h,
      ← (aside_withOverruns n).settle]
    cases strike with
    | one id => rfl
    | all => rfl

variable {g} in
/-- Only a full queue refuses to remove connections that are on the list. -/
theorem remove_of_error {strike : Strike} {notices : List Notice} {fault : GraphFault}
    (h : (g.remove strike notices).result = .error fault) :
    fault = .commandQueueFull ∧
      (g.remove strike notices).state = g.withOverruns (g.commands.overruns + 1) := by
  cases hfull : g.commands.isFull with
  | true =>
    rw [remove_of_full hfull] at h ⊢
    exact ⟨(Except.error.inj h).symm, rfl⟩
  | false =>
    rw [remove_of_space hfull] at h
    nomatch h

end

end Graph

namespace GraphCall

variable {σ : Type}

/-- A call gives the same result and the same reports whatever the count, and leaves the same
graph but for it. -/
theorem reply_withOverruns (call : GraphCall σ) (g : Graph σ) (n : UInt32) :
    ∃ m, call.reply (g.withOverruns n) = (call.reply g).within (·.withOverruns m) := by
  -- All checks read the list, which is the same. What differs is the count after the sending.
  have hlive : (g.withOverruns n).live = g.live := rfl
  cases call with
  | connect source =>
    obtain ⟨m, hsend⟩ := g.send_withOverruns n (.connect ⟨g.nextId, source⟩)
    have hnext : (g.withOverruns n).nextId = g.nextId := rfl
    simp only [reply, Graph.connect, hlive, hnext, hsend]
    by_cases hfull : maxConnections ≤ g.live.length
    · rw [if_pos hfull, if_pos hfull]
      exact ⟨n, rfl⟩
    · rw [if_neg hfull, if_neg hfull]
      refine ⟨m, ?_⟩
      obtain ⟨taken, sent⟩ := g.send (.connect ⟨g.nextId, source⟩)
      cases taken with
      | true => rfl
      | false => rfl
  | disconnect id =>
    simp only [reply, Graph.disconnect_eq, hlive]
    by_cases hlisted : g.live.contains id = true
    · obtain ⟨m, hremove⟩ := g.remove_withOverruns n (.one id) [.connectionRemoved id]
      rw [if_pos hlisted, if_pos hlisted, hremove]
      exact ⟨m, rfl⟩
    · rw [if_neg hlisted, if_neg hlisted]
      exact ⟨n, rfl⟩
  | disconnectAll =>
    simp only [reply, Graph.disconnectAll_eq, hlive]
    by_cases hempty : g.live.isEmpty = true
    · rw [if_pos hempty, if_pos hempty, (Graph.aside_withOverruns n).settle]
      exact ⟨n, rfl⟩
    · obtain ⟨m, hremove⟩ := g.remove_withOverruns n .all [.connectionsRemoved]
      rw [if_neg hempty, if_neg hempty, hremove]
      exact ⟨m, rfl⟩
  | muteAndDisconnect =>
    simp only [reply, Graph.muteAndDisconnect_eq, hlive]
    by_cases hempty : g.live.isEmpty = true
    · rw [if_pos hempty, if_pos hempty, (Graph.aside_withOverruns n).settle]
      exact ⟨n, rfl⟩
    · obtain ⟨m, hremove⟩ :=
        Graph.remove_withOverruns { g with muted := true } n .all [.outputMuted]
      refine ⟨m, ?_⟩
      rw [if_neg hempty, if_neg hempty]
      show (({ g with muted := true }.withOverruns n).remove .all [.outputMuted]).map _ = _
      rw [hremove]
      rfl
  | reclaim =>
    simp only [reply, (Graph.aside_withOverruns n).reclaim]
    exact ⟨n, rfl⟩
  | unmute => exact ⟨n, rfl⟩

/-- Changing what a reply gives keeps its fault. -/
theorem error_of_map {α β : Type} {r : Graph.Reply σ α} {f : α → β} {fault : GraphFault}
    (h : (r.map (Except.map f)).result = .error fault) : r.result = .error fault := by
  obtain ⟨result, state, notices⟩ := r
  cases result with
  | error other => exact congrArg Except.error (Except.error.inj h)
  | ok answer => nomatch h

/-- A refused call leaves the graph as it was, but for two things: a command that found the queue
full is counted, and a call that mutes the output has muted it. -/
theorem reply_of_error {call : GraphCall σ} {g : Graph σ} {fault : GraphFault}
    (h : (call.reply g).result = .error fault) :
    (call.reply g).state
      = (if call.mutes then { g with muted := true } else g).withOverruns
          (g.commands.overruns + if fault = .commandQueueFull then 1 else 0) := by
  cases call with
  | connect source =>
    simp only [reply, Graph.connect] at h ⊢
    by_cases hfull : maxConnections ≤ g.live.length
    · rw [if_pos hfull] at h ⊢
      obtain rfl := Except.error.inj h
      simp [Outcome.map, Graph.refuse, mutes, Graph.withOverruns]
    · rw [if_neg hfull] at h ⊢
      cases hqueue : g.commands.isFull with
      | true =>
        rw [Graph.send_of_full hqueue] at h ⊢
        obtain rfl := Except.error.inj h
        simp [Outcome.map, Graph.refuse, mutes, Graph.withOverruns]
      | false =>
        rw [Graph.send_of_space hqueue] at h
        nomatch h
  | disconnect id =>
    simp only [reply, Graph.disconnect_eq] at h ⊢
    by_cases hlisted : g.live.contains id = true
    · rw [if_pos hlisted] at h ⊢
      obtain ⟨rfl, hstate⟩ := Graph.remove_of_error (error_of_map h)
      simp [Outcome.map, hstate, mutes, Graph.withOverruns]
    · rw [if_neg hlisted] at h ⊢
      obtain rfl := Except.error.inj h
      simp [Outcome.map, Graph.refuse, mutes, Graph.withOverruns]
  | disconnectAll =>
    simp only [reply, Graph.disconnectAll_eq] at h ⊢
    by_cases hempty : g.live.isEmpty = true
    · rw [if_pos hempty] at h
      nomatch h
    · rw [if_neg hempty] at h ⊢
      obtain ⟨rfl, hstate⟩ := Graph.remove_of_error (error_of_map h)
      simp [Outcome.map, hstate, mutes, Graph.withOverruns]
  | muteAndDisconnect =>
    simp only [reply, Graph.muteAndDisconnect_eq] at h ⊢
    by_cases hempty : g.live.isEmpty = true
    · rw [if_pos hempty] at h
      nomatch h
    · -- The output has been muted by the time the queue turns out to be full.
      rw [if_neg hempty] at h ⊢
      obtain ⟨rfl, hstate⟩ := Graph.remove_of_error (error_of_map h)
      simp [Outcome.map, hstate, mutes, Graph.withOverruns]
  | reclaim => nomatch h
  | unmute => nomatch h

end GraphCall

namespace GraphHistory

variable {σ ω : Type}

/-- The history with another count of commands that found the queue full. -/
def withOverruns (h : GraphHistory σ) (n : UInt32) : GraphHistory σ :=
  { h with graph := h.graph.withOverruns n }

/-- The blocks of the cycles among a list of steps, with what they leave of the surroundings. -/
def blocks (play : Playing σ ω) : GraphHistory σ → List (GraphStep σ ω) → List (StereoBlock × ω)
  | _, [] => []
  | h, .cycle world :: rest =>
    ((h.graph.nextBlock play world).1, (h.graph.nextBlock play world).2.2)
      :: blocks play (h.step play (.cycle world)) rest
  | h, s :: rest => blocks play (h.step play s) rest

theorem begin_withOverruns (h : GraphHistory σ) (n : UInt32) (call : GraphCall σ) :
    ∃ m, (h.withOverruns n).begin call = (h.begin call).withOverruns m := by
  have hlive : (h.withOverruns n).graph.live = h.graph.live := rfl
  cases call with
  | connect source =>
    obtain ⟨m, hsend⟩ := h.graph.send_withOverruns n (.connect ⟨h.graph.nextId, source⟩)
    have hgraph : (h.withOverruns n).graph.send (.connect ⟨(h.withOverruns n).graph.nextId, source⟩)
        = (h.graph.withOverruns n).send (.connect ⟨h.graph.nextId, source⟩) := rfl
    simp only [begin, hlive, hgraph, hsend]
    by_cases hfull : maxConnections ≤ h.graph.live.length
    · rw [if_pos hfull, if_pos hfull]
      exact ⟨n, rfl⟩
    · rw [if_neg hfull, if_neg hfull]
      refine ⟨m, ?_⟩
      obtain ⟨taken, sent⟩ := h.graph.send (.connect ⟨h.graph.nextId, source⟩)
      cases taken with
      | true => rfl
      | false => rfl
  | disconnect id =>
    simp only [begin, hlive]
    by_cases hlisted : h.graph.live.contains id = true
    · rw [if_pos hlisted, if_pos hlisted]
      exact ⟨n, rfl⟩
    · rw [if_neg hlisted, if_neg hlisted]
      exact ⟨n, rfl⟩
  | disconnectAll => exact ⟨n, rfl⟩
  | muteAndDisconnect =>
    simp only [begin, hlive]
    by_cases hempty : h.graph.live.isEmpty = true
    · rw [if_pos hempty, if_pos hempty]
      exact ⟨n, rfl⟩
    · rw [if_neg hempty, if_neg hempty]
      exact ⟨n, rfl⟩
  | reclaim => exact ⟨n, rfl⟩
  | unmute => exact ⟨n, rfl⟩

theorem proceed_withOverruns (h : GraphHistory σ) (n : UInt32) :
    ∃ m, (h.withOverruns n).proceed = h.proceed.withOverruns m := by
  obtain ⟨graph, phase, connected, collected⟩ := h
  cases phase with
  | idle => exact ⟨n, rfl⟩
  | sending strike =>
    obtain ⟨m, hsend⟩ := graph.send_withOverruns n strike.command
    refine ⟨m, ?_⟩
    simp only [proceed, withOverruns, hsend]
    obtain ⟨taken, sent⟩ := graph.send strike.command
    cases taken with
    | true => rfl
    | false => rfl
  | striking strike =>
    cases strike with
    | one id => exact ⟨n, rfl⟩
    | all => exact ⟨n, rfl⟩
  | enlisting id => exact ⟨n, rfl⟩
  | collecting =>
    simp only [proceed, withOverruns, (Graph.aside_withOverruns n).reclaim]
    exact ⟨n, rfl⟩

theorem step_withOverruns (play : Playing σ ω) (h : GraphHistory σ) (n : UInt32)
    (s : GraphStep σ ω) :
    ∃ m, (h.withOverruns n).step play s = (h.step play s).withOverruns m := by
  cases s with
  | call call =>
    obtain ⟨m, hbegin⟩ := h.begin_withOverruns n call
    have hphase : (h.withOverruns n).phase = h.phase := rfl
    simp only [step, hphase]
    cases h.phase with
    | idle => exact ⟨m, hbegin⟩
    | _ => exact ⟨n, rfl⟩
  | proceed => exact h.proceed_withOverruns n
  | cycle world =>
    refine ⟨n, ?_⟩
    have hblock := h.graph.nextBlock_withOverruns n play world
    show { h with graph := ((h.graph.withOverruns n).nextBlock play world).2.1 } = _
    rw [hblock]
    rfl

/-- The count of overruns shows neither in a run nor in its blocks. -/
theorem run_withOverruns (play : Playing σ ω) (h : GraphHistory σ) (n : UInt32)
    (steps : List (GraphStep σ ω)) :
    (∃ m, (h.withOverruns n).run play steps = (h.run play steps).withOverruns m) ∧
      (h.withOverruns n).blocks play steps = h.blocks play steps := by
  -- A step may leave another count than it found, so the induction is over all counts.
  induction steps generalizing h n with
  | nil => exact ⟨⟨n, rfl⟩, rfl⟩
  | cons s rest ih =>
    obtain ⟨m, hstep⟩ := h.step_withOverruns play n s
    obtain ⟨hrun, hblocks⟩ := ih (h.step play s) m
    rw [← hstep] at hrun hblocks
    refine ⟨hrun, ?_⟩
    cases s with
    | call call => exact hblocks
    | proceed => exact hblocks
    | cycle world =>
      have hblock := h.graph.nextBlock_withOverruns n play world
      have hnow : ((h.withOverruns n).graph.nextBlock play world).1
            = (h.graph.nextBlock play world).1 ∧
          ((h.withOverruns n).graph.nextBlock play world).2.2
            = (h.graph.nextBlock play world).2.2 := by
        show ((h.graph.withOverruns n).nextBlock play world).1 = _ ∧
          ((h.graph.withOverruns n).nextBlock play world).2.2 = _
        rw [hblock]
        exact ⟨rfl, rfl⟩
      rw [blocks, blocks, hblocks, hnow.1, hnow.2]

/-- A refused call leaves the list, the next name, the queued commands, what has come back and
everything that is played as they were. Only `muteAndDisconnect` leaves a trace: the output is
muted. Whatever happens later, to a graph in the middle of anything, happens as if nothing or
only the muting had been asked for: the same blocks, the same connections made and handed back,
and the same answer to every call. -/
theorem refused_call_leaves (play : Playing σ ω) (h : GraphHistory σ) (call : GraphCall σ)
    {fault : GraphFault} (hrefused : (call.reply h.graph).result = .error fault) :
    let g := h.graph
    let before : Graph σ := if call.mutes then { g with muted := true } else g
    let after := (call.reply g).state
    after
        = before.withOverruns
            (g.commands.overruns + if fault = .commandQueueFull then 1 else 0) ∧
      ∀ later : List (GraphStep σ ω),
        let refused := { h with graph := after }
        let spared := { h with graph := before }
        refused.blocks play later = spared.blocks play later ∧
        (∃ overruns, refused.run play later = (spared.run play later).withOverruns overruns) ∧
        ∀ next : GraphCall σ,
          (next.reply (refused.run play later).graph).result
              = (next.reply (spared.run play later).graph).result ∧
            (next.reply (refused.run play later).graph).notices
              = (next.reply (spared.run play later).graph).notices := by
  intro g before after
  have hafter := GraphCall.reply_of_error hrefused
  refine ⟨hafter, ?_⟩
  intro later refused spared
  -- From here on the two runs differ in nothing but the count.
  have hcount : ∃ n, refused = spared.withOverruns n :=
    ⟨_, congrArg (fun graph => { h with graph := graph }) hafter⟩
  obtain ⟨n, hcount⟩ := hcount
  obtain ⟨⟨m, hrun⟩, hblocks⟩ := spared.run_withOverruns play n later
  rw [← hcount] at hrun hblocks
  refine ⟨hblocks, ⟨m, hrun⟩, ?_⟩
  intro next
  obtain ⟨k, hreply⟩ := next.reply_withOverruns (spared.run play later).graph m
  have hlast : (refused.run play later).graph = (spared.run play later).graph.withOverruns m :=
    congrArg GraphHistory.graph hrun
  rw [hlast, hreply]
  exact ⟨rfl, rfl⟩

/-- Eight connections are made and seven removed before the first cycle. The queue is full, so
another connection is refused, and the two cycles after it are what they would have been. -/
theorem refused_connection_leaves :
    let calls : List (GraphCall Source) :=
      List.replicate 8 (.connect (.constant 80)) ++ [1, 2, 3, 4, 5, 6, 7].map .disconnect
    let g : Graph Source := calls.foldl (fun g call => (call.run g).1) (.create (.create 4))
    let after := ((GraphCall.connect (.constant 5)).reply g).state
    ((GraphCall.connect (.constant 5)).reply g).result = .error .commandQueueFull ∧
      after.live = [8] ∧ after.nextId = 9 ∧ after.muted = false ∧
      GraphHistory.blocks Source.play { graph := after } [.cycle {}, .cycle {}]
        = GraphHistory.blocks Source.play { graph := g } [.cycle {}, .cycle {}] := by
  intro calls g after
  have hrefused : ((GraphCall.connect (.constant 5)).reply g).result
      = .error .commandQueueFull := by rfl
  obtain ⟨hstate, hlater⟩ := refused_call_leaves Source.play { graph := g }
    (.connect (.constant 5)) hrefused
  exact ⟨hrefused, rfl, rfl, rfl, (hlater [.cycle {}, .cycle {}]).1⟩

/-- In the same state the last connection is to be removed and the output muted. The call is
refused and the connection stays, but the output is muted. -/
theorem refused_teardown_mutes :
    let calls : List (GraphCall Source) :=
      List.replicate 8 (.connect (.constant 80)) ++ [1, 2, 3, 4, 5, 6, 7].map .disconnect
    let g : Graph Source := calls.foldl (fun g call => (call.run g).1) (.create (.create 4))
    g.muteAndDisconnect.result = .error .commandQueueFull ∧
      g.muteAndDisconnect.state.live = [8] ∧
      g.muted = false ∧ g.muteAndDisconnect.state.muted = true := by
  intro calls g
  exact ⟨rfl, rfl, rfl, rfl⟩

end GraphHistory

end Chiptune
