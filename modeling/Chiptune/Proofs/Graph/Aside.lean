import Chiptune.Proofs.Graph.Run

/-!
# `Chiptune.Proofs.Graph.Aside`: what commands and collecting do not see

Carrying out commands and collecting what has come back see the slots, the two rings and the list
of connections, and nothing else of a graph. A change of anything else is a `Graph.Aside`: it can
be made before or after commands are carried out (`Aside.applyCommands`) and connections are
collected (`Aside.reclaim`).

What the audio side keeps beside its slots, the pool, the mute flag and the counts, is the
`Graph.mixer`. Commands leave it as it was (`Graph.mixer_applyCommands`).

A change that the host does not see either, when it sends commands and keeps its list, is
`Graph.Unseen`. The steps of the host's calls can be taken before or after such a change
(`GraphHistory.proceed_onGraph`, `GraphHistory.begin_onGraph`). The pool and the count of skipped
blocks are such (`GraphHistory.step_restock`), so the host leaves them alone.
-/

set_option autoImplicit false

namespace Chiptune

namespace Graph

variable {σ : Type}

/-- The graph with the oldest command taken off the queue. -/
def dequeued (g : Graph σ) (queue : Queue (GraphCommand σ)) : Graph σ :=
  { g with commands := { g.commands with queue := queue } }

/-- The graph with the oldest connection taken off the return ring. -/
def fetched (g : Graph σ) (queue : Queue (Connection σ)) : Graph σ :=
  { g with returned := { g.returned with queue := queue } }

/-- A change of a graph that neither commands nor collecting see or undo. -/
structure Aside (f : Graph σ → Graph σ) : Prop where
  queue : ∀ g, (f g).commands.queue = g.commands.queue
  slots : ∀ g, (f g).slots = g.slots
  returned : ∀ g, (f g).returned.queue = g.returned.queue
  live : ∀ g, (f g).live = g.live
  dequeued : ∀ g queue, (f g).dequeued queue = f (g.dequeued queue)
  placed : ∀ g slots, { f g with slots := slots } = f { g with slots := slots }
  giveBack : ∀ g connection, (f g).giveBack connection = f (g.giveBack connection)
  fetched : ∀ g queue, (f g).fetched queue = f (g.fetched queue)
  forget : ∀ g id, (f g).forget id = f (g.forget id)

section
variable {f : Graph σ → Graph σ} (hf : Aside f) (g : Graph σ)
include hf

theorem Aside.foldl_giveBack (connections : List (Connection σ)) :
    connections.foldl Graph.giveBack (f g) = f (connections.foldl Graph.giveBack g) := by
  induction connections generalizing g with
  | nil => rfl
  | cons connection rest ih =>
    rw [List.foldl_cons, hf.giveBack]
    exact ih (g.giveBack connection)

theorem Aside.applyCommand (command : GraphCommand σ) :
    (f g).applyCommand command = f (g.applyCommand command) := by
  cases command with
  | connect connection =>
    simp only [Graph.applyCommand, hf.slots]
    cases Slots.place? connection g.slots with
    | some slots => exact hf.placed g slots
    | none => exact hf.giveBack g connection
  | disconnect id =>
    simp only [Graph.applyCommand, hf.slots]
    cases (Slots.takeOut id g.slots).1 with
    | some connection =>
      dsimp only
      rw [hf.placed]
      exact hf.giveBack _ connection
    | none => rfl
  | disconnectAll =>
    simp only [Graph.applyCommand, hf.slots]
    rw [hf.placed]
    exact hf.foldl_giveBack _ _

theorem Aside.applyQueued (fuel : Nat) :
    Graph.applyQueued fuel (f g) = f (Graph.applyQueued fuel g) := by
  induction fuel generalizing g with
  | zero => rfl
  | succ fuel ih =>
    unfold Graph.applyQueued
    rw [hf.queue]
    cases g.commands.queue.pop? with
    | none => rfl
    | some popped =>
      obtain ⟨command, queue⟩ := popped
      show Graph.applyQueued fuel (((f g).dequeued queue).applyCommand command)
        = f (Graph.applyQueued fuel ((g.dequeued queue).applyCommand command))
      rw [hf.dequeued, hf.applyCommand, ih]

/-- It makes no difference whether such a change comes before the queued commands or after. -/
theorem Aside.applyCommands : (f g).applyCommands = f g.applyCommands := by
  have havailable : (f g).commands.available = g.commands.available :=
    congrArg Queue.size (hf.queue g)
  unfold Graph.applyCommands
  rw [havailable, hf.applyQueued]

theorem Aside.reclaimQueued (fuel : Nat) (found : List (Connection σ)) (notices : List Notice) :
    Graph.reclaimQueued fuel (f g) found notices
      = (Graph.reclaimQueued fuel g found notices).within f := by
  induction fuel generalizing g found notices with
  | zero => rfl
  | succ fuel ih =>
    unfold Graph.reclaimQueued
    rw [hf.returned]
    cases g.returned.queue.pop? with
    | none => rfl
    | some popped =>
      obtain ⟨connection, queue⟩ := popped
      -- What is collected next depends on the list, which is the same in both.
      have hlive : (f g).live = (g.fetched queue).live := hf.live g
      have hfetched : (f g).fetched queue = f (g.fetched queue) := hf.fetched g queue
      show (if (f g).live.contains connection.id then
            Graph.reclaimQueued fuel (((f g).fetched queue).forget connection.id) _ _
          else Graph.reclaimQueued fuel ((f g).fetched queue) _ _)
        = (if (g.fetched queue).live.contains connection.id then
            Graph.reclaimQueued fuel ((g.fetched queue).forget connection.id) _ _
          else Graph.reclaimQueued fuel (g.fetched queue) _ _).within f
      rw [hlive, hfetched, hf.forget, ih, ih]
      split
      · rfl
      · rfl

/-- Nor does it make one to what is collected. -/
theorem Aside.reclaim : (f g).reclaim = g.reclaim.within f := by
  have havailable : (f g).returned.available = g.returned.available :=
    congrArg Queue.size (hf.returned g)
  unfold Graph.reclaim
  rw [havailable, hf.reclaimQueued]

theorem Aside.settle (notices : List Notice) :
    (f g).settle notices = (g.settle notices).within f := by
  unfold Graph.settle
  rw [hf.reclaim]
  rfl

end

/-! ### The audio side beside its slots -/

/-- What the audio side keeps beside its slots. -/
structure MixerState where
  pool : Pool
  muted : Bool
  cycles : Nat
  skipped : Nat

/-- What the audio side keeps beside its slots. -/
def mixer (g : Graph σ) : MixerState :=
  { pool := g.pool, muted := g.muted, cycles := g.cycles, skipped := g.skipped }

/-- The graph with another pool, mute flag and counts. -/
def withMixer (g : Graph σ) (m : MixerState) : Graph σ :=
  { g with pool := m.pool, muted := m.muted, cycles := m.cycles, skipped := m.skipped }

theorem aside_withMixer (m : MixerState) : Aside fun g : Graph σ => g.withMixer m :=
  ⟨fun _ => rfl, fun _ => rfl, fun _ => rfl, fun _ => rfl, fun _ _ => rfl, fun _ _ => rfl,
    fun _ _ => rfl, fun _ _ => rfl, fun _ _ => rfl⟩

/-- Commands leave the pool, the mute flag and the counts as they were. -/
theorem mixer_applyCommands (g : Graph σ) : g.applyCommands.mixer = g.mixer := by
  -- A graph is itself with its own pool, flag and counts put in.
  have hsame : g.applyCommands = g.applyCommands.withMixer g.mixer :=
    (aside_withMixer g.mixer).applyCommands g
  calc g.applyCommands.mixer = (g.applyCommands.withMixer g.mixer).mixer := congrArg mixer hsame
    _ = g.mixer := rfl

/-! ### What the host does not see -/

/-- A change of a graph that neither the host nor commands see or undo. -/
structure Unseen (f : Graph σ → Graph σ) : Prop extends Aside f where
  nextId : ∀ g, (f g).nextId = g.nextId
  send : ∀ g command, (f g).send command = ((g.send command).1, f (g.send command).2)
  enlist : ∀ g id, (f g).enlist id = f (g.enlist id)
  forgetAll : ∀ g, (f g).forgetAll = f g.forgetAll

/-- The graph with its pool and its count of skipped blocks changed. -/
def restock (pool : Pool → Pool) (skipped : Nat → Nat) (g : Graph σ) : Graph σ :=
  { g with pool := pool g.pool, skipped := skipped g.skipped }

theorem unseen_restock (pool : Pool → Pool) (skipped : Nat → Nat) :
    Unseen (restock (σ := σ) pool skipped) where
  queue _ := rfl
  slots _ := rfl
  returned _ := rfl
  live _ := rfl
  dequeued _ _ := rfl
  placed _ _ := rfl
  giveBack _ _ := rfl
  fetched _ _ := rfl
  forget _ _ := rfl
  nextId _ := rfl
  send _ _ := rfl
  enlist _ _ := rfl
  forgetAll _ := rfl

end Graph

/-- Whether the step is the audio side's. -/
def GraphStep.isCycle {σ ω : Type} : GraphStep σ ω → Bool
  | cycle _ => true
  | call _ | proceed => false

/-- Whether the call sets the mute flag or takes it back. -/
def GraphCall.setsMuted {σ : Type} : GraphCall σ → Bool
  | .muteAndDisconnect | .unmute => true
  | .connect _ | .disconnect _ | .disconnectAll | .reclaim => false

namespace GraphHistory

variable {σ : Type}

/-- The history with its graph changed. -/
def onGraph (h : GraphHistory σ) (f : Graph σ → Graph σ) : GraphHistory σ :=
  { h with graph := f h.graph }

variable {f : Graph σ → Graph σ} (hf : Graph.Unseen f) (h : GraphHistory σ)
include hf

/-- A call goes on in the same way. -/
theorem proceed_onGraph : (h.onGraph f).proceed = h.proceed.onGraph f := by
  obtain ⟨graph, phase, connected, collected⟩ := h
  cases phase with
  | idle => rfl
  | sending strike =>
    simp only [GraphHistory.proceed, onGraph, hf.send]
    obtain ⟨taken, sent⟩ := graph.send strike.command
    cases taken with
    | true => rfl
    | false => rfl
  | striking strike =>
    cases strike with
    | one id =>
      exact congrArg (GraphHistory.mk · .collecting connected collected) (hf.forget graph id)
    | all =>
      exact congrArg (GraphHistory.mk · .collecting connected collected) (hf.forgetAll graph)
  | enlisting id =>
    exact congrArg (GraphHistory.mk · .idle connected collected) (hf.enlist graph id)
  | collecting =>
    simp only [GraphHistory.proceed, onGraph, hf.reclaim]
    rfl

/-- A call begins in the same way, if it does not change the flag differently. -/
theorem begin_onGraph (call : GraphCall σ)
    (hmuted : call.setsMuted = true →
      ∀ (g : Graph σ) (muted : Bool), { f g with muted := muted } = f { g with muted := muted }) :
    (h.onGraph f).begin call = (h.begin call).onGraph f := by
  obtain ⟨graph, phase, connected, collected⟩ := h
  cases call with
  | connect source =>
    simp only [GraphHistory.begin, onGraph, hf.live, hf.nextId, hf.send]
    split
    · rfl
    · obtain ⟨taken, sent⟩ := graph.send (.connect ⟨graph.nextId, source⟩)
      cases taken with
      | true => rfl
      | false => rfl
  | disconnect id =>
    simp only [GraphHistory.begin, onGraph, hf.live]
    split
    · rfl
    · rfl
  | disconnectAll =>
    simp only [GraphHistory.begin, onGraph, hf.live]
  | muteAndDisconnect =>
    have hempty : (f graph).live.isEmpty = graph.live.isEmpty :=
      congrArg List.isEmpty (hf.live graph)
    show (if (f graph).live.isEmpty then GraphHistory.mk (f graph) .collecting connected collected
        else .mk { f graph with muted := true } (.sending .all) connected collected)
      = onGraph (if graph.live.isEmpty then .mk graph .collecting connected collected
        else .mk { graph with muted := true } (.sending .all) connected collected) f
    rw [hempty, hmuted rfl graph true]
    split
    · rfl
    · rfl
  | reclaim => rfl
  | unmute => exact congrArg (GraphHistory.mk · phase connected collected) (hmuted rfl graph false)

omit hf

section
variable {ω : Type} (play : Playing σ ω) {s : GraphStep σ ω} (hs : s.isCycle = false)
include hs

/-- A step of the host with another pool and another count of skipped blocks. -/
theorem step_restock (pool : Pool → Pool) (skipped : Nat → Nat) :
    (h.onGraph (Graph.restock pool skipped)).step play s
      = (h.step play s).onGraph (Graph.restock pool skipped) := by
  have hunseen := Graph.unseen_restock (σ := σ) pool skipped
  cases s with
  | call call =>
    have hbegin := begin_onGraph hunseen h call fun _ _ _ => rfl
    obtain ⟨graph, phase, connected, collected⟩ := h
    -- While a call is going on no other begins.
    cases phase with
    | idle => exact hbegin
    | _ => rfl
  | proceed => exact proceed_onGraph hunseen h
  | cycle world => nomatch hs

/-- The host leaves the pool and the count of skipped blocks as they are. -/
theorem stock_step :
    (h.step play s).graph.pool = h.graph.pool ∧
      (h.step play s).graph.skipped = h.graph.skipped := by
  -- A graph is itself with its own pool and count put in.
  have hsame := h.step_restock play hs (fun _ => h.graph.pool) (fun _ => h.graph.skipped)
  have hgraph : (h.step play s).graph
      = (h.step play s).graph.restock (fun _ => h.graph.pool) (fun _ => h.graph.skipped) :=
    congrArg GraphHistory.graph hsame
  rw [hgraph]
  exact ⟨rfl, rfl⟩

end

end GraphHistory

end Chiptune
