import Chiptune.Proofs.Graph.Mixing
import Chiptune.Proofs.Graph.Streams
import Chiptune.Proofs.Relay.Run

/-!
# `Chiptune.Proofs.Graph.Ensemble`: a graph of streams neither starves nor leaks audio

An `Ensemble` is a studio of engines and relays with a graph that plays them. Between its cycles
anything may happen to the engines and relays, and the host may connect and remove streams, in
calls that cycles can come in between of.

`Ensemble.Sound` is the invariant: the pool has all its blocks and no request has failed, every
connection is a stream, no engine has counted a skipped block, and the graph has skipped as many
blocks as engines that were stopping had turns. `Ensemble.Sound.step` is its key lemma, and the
turns of a cycle do the work there (`Turn.all_of_streams`).

A step does the same with other blocks in the pool (`Ensemble.Sound.step_withPool`): the host does
not see the pool, and streams overwrite what they find in a block. So nothing that is played, and
nothing else but the samples in the pool, depends on what was in the blocks at the beginning.
`Ensemble.never_starves` is the main statement.
-/

set_option autoImplicit false

namespace Chiptune

/-- Engines and relays with the graph that plays them. -/
structure Ensemble where
  history : GraphHistory Source
  studio : Studio
  /-- Blocks of the cycles so far, first one first. -/
  played : List StereoBlock := []
  /-- Turns of engines that were stopping. -/
  rested : Nat := 0

/-- Something that happens to an ensemble. -/
inductive EnsembleStep where
  /-- The host asks something of an engine, or its timer fires. -/
  | engine (index : Nat) (step : EngineStep) (notUpdate : step.isUpdate = false := by rfl)
  /-- Something is asked of a relay. -/
  | relay (index : Nat) (op : RelayOp)
  /-- The host changes the graph. -/
  | call (call : GraphCall Source)
  /-- The host goes on with its call. -/
  | proceed
  | cycle

namespace Studio

/-- The studio with a step of an engine. -/
def onEngine (s : Studio) (index : Nat) (step : EngineStep) : Studio :=
  { s with engines := s.engines.modify index step.run }

/-- The studio with an operation on a relay. -/
def onRelay (s : Studio) (index : Nat) (op : RelayOp) : Studio :=
  { s with relays := s.relays.modify index op.run }

/-- The counts of skipped blocks of all engines. -/
def skips (s : Studio) : Array Nat := s.engines.map (·.blocksSkipped)

end Studio

namespace Ensemble

/-- The graph. -/
def graph (e : Ensemble) : Graph Source := e.history.graph

/-- A new graph with a pool of blocks, whatever is in them. -/
def start (blocks : Array Block) (studio : Studio) : Ensemble :=
  { history := .start { free := blocks, capacity := blocks.size }, studio := studio }

/-- Connections of engines that are stopping. -/
def resting (e : Ensemble) : Nat := e.graph.seated.countP (·.source.isStopping e.studio)

/-- The ensemble with what a cycle has made. -/
def heard (e : Ensemble) (made : StereoBlock × Graph Source × Studio) : Ensemble :=
  { history := { e.history with graph := made.2.1 }
    studio := made.2.2
    played := e.played ++ [made.1]
    rested := e.rested + e.resting }

/-- The ensemble after a cycle. -/
def cycle (e : Ensemble) : Ensemble := e.heard (e.graph.nextBlock Source.play e.studio)

/-- The ensemble after a step. -/
def step (e : Ensemble) : EnsembleStep → Ensemble
  | .engine index step _ => { e with studio := e.studio.onEngine index step }
  | .relay index op => { e with studio := e.studio.onRelay index op }
  | .call call => { e with history := e.history.step Source.play (.call call) }
  | .proceed => { e with history := e.history.proceed }
  | .cycle => e.cycle

/-- The ensemble after a list of steps. -/
def run (e : Ensemble) (steps : List EnsembleStep) : Ensemble := steps.foldl step e

/-- The ensemble with another pool. -/
def withPool (e : Ensemble) (pool : Pool) : Ensemble :=
  { e with history := e.history.onGraph fun g => { g with pool := pool } }

end Ensemble

/-! ### What the host does not touch -/

theorem EngineStep.blocksSkipped_run {s : EngineStep} (h : s.isUpdate = false) (e : Engine) :
    (s.run e).blocksSkipped = e.blocksSkipped := by
  have hpush (command : Command) :
      (e.push command).state.blocksSkipped = e.blocksSkipped := by
    obtain ⟨dropped, hstate⟩ := e.push_state command
    rw [hstate]
  cases s with
  | write address value =>
    show (e.write address value).state.blocksSkipped = _
    unfold Engine.write
    split
    · exact hpush _
    · rfl
  | reset => exact hpush .reset
  | tick =>
    show e.tick.blocksSkipped = _
    unfold Engine.tick
    split
    · rfl
    · rfl
  | startTimer =>
    show e.startTimer.state.blocksSkipped = _
    rw [e.startTimer_state]
  | stopTimer => rfl
  | load data offset => rfl
  | setRate sampleRate => rfl
  | setOptions options => rfl
  | update pool => nomatch h

theorem Studio.skips_onEngine (s : Studio) (index : Nat) {step : EngineStep}
    (h : step.isUpdate = false) : (s.onEngine index step).skips = s.skips := by
  refine Array.ext_getElem? ?_
  intro i
  simp only [skips, onEngine, Array.getElem?_map, Array.getElem?_modify]
  split
  · cases s.engines[i]? with
    | none => rfl
    | some e => exact congrArg some (step.blocksSkipped_run h e)
  · rfl

theorem Studio.skips_of_flags {s s' : Studio} (h : s.flags = s'.flags) : s.skips = s'.skips := by
  have hskips := congrArg (fun flags => flags.1.map Prod.snd) h
  simp only [flags, Array.map_map] at hskips
  exact hskips

namespace Ensemble

/-! ### What every run keeps -/

/-- What runs of streams keep, from a pool of `blocks` blocks and a studio on. -/
structure Sound (blocks : Nat) (studio : Studio) (e : Ensemble) : Prop where
  slots : e.graph.slots.length = maxConnections
  available : e.graph.pool.available = blocks
  capacity : e.graph.pool.capacity = blocks
  failures : e.graph.pool.failures = 0
  skipped : e.graph.skipped = e.rested
  skips : e.studio.skips = studio.skips
  relays : e.studio.relays.size = studio.relays.size
  streams : e.graph.Holds fun connection => connection.source.isStream studio = true

theorem sound_start (blocks : Array Block) (studio : Studio) :
    (start blocks studio).Sound blocks.size studio where
  slots := List.length_replicate
  available := rfl
  capacity := rfl
  failures := rfl
  skipped := rfl
  skips := rfl
  relays := rfl
  streams := ⟨nofun, nofun⟩

section
variable {blocks : Nat} {studio : Studio} {e : Ensemble}

theorem Sound.fits (h : e.Sound blocks studio) : e.graph.pool.Fits :=
  Nat.le_of_eq (h.available.trans h.capacity.symm)

/-- The connections that get a turn are streams of the studio as it is. -/
theorem Sound.seated (h : e.Sound blocks studio) :
    ∀ connection ∈ e.graph.seated, connection.source.isStream e.studio = true := by
  intro connection hmem
  have hengines : e.studio.engines.size = studio.engines.size := by
    have hsize := congrArg Array.size h.skips
    rw [Studio.skips, Studio.skips, Array.size_map, Array.size_map] at hsize
    exact hsize
  rw [connection.source.isStream_of_size hengines h.relays]
  exact h.streams.seated connection hmem

/-- The host may do what it likes with the graph, if it connects only streams. -/
theorem Sound.host (h : e.Sound blocks studio) {s : GraphStep Source Studio}
    (hs : s.isCycle = false)
    (hstreams : ∀ source, s = .call (.connect source) → source.isStream studio = true) :
    { e with history := e.history.step Source.play s }.Sound blocks studio := by
  obtain ⟨hpool, hskipped⟩ := e.history.stock_step Source.play hs
  obtain ⟨hslots, hqueued⟩ := e.history.step_keeps Source.play hs
  refine ⟨?_, ?_, ?_, ?_, hskipped.trans h.skipped, h.skips, h.relays, ?_, ?_⟩
  · exact (congrArg List.length hslots).trans h.slots
  · exact (congrArg Pool.available hpool).trans h.available
  · exact (congrArg Pool.capacity hpool).trans h.capacity
  · exact (congrArg Pool.failures hpool).trans h.failures
  · intro connection hmem
    exact h.streams.slots connection (hslots ▸ hmem)
  · intro connection hmem
    rcases hqueued connection hmem with hmem | hmade
    · exact h.streams.queued connection hmem
    · exact hstreams connection.source hmade

/-- Every stream finds its pair in a cycle, and all of them come back. -/
theorem Sound.cycle (h : e.Sound blocks studio) (hmany : 2 ≤ blocks) :
    e.cycle.Sound blocks studio := by
  obtain ⟨-, hslots, halike, hfailures, hskipped, hflags⟩ :=
    Graph.nextBlock_of_streams h.seated h.fits (h.available ▸ hmany)
  -- A cycle leaves slots and commands as the commands have left them; turns change neither.
  have happlied := h.streams.applyCommands
  refine ⟨?_, ?_, ?_, ?_, ?_, ?_, ?_, ?_, ?_⟩
  · exact (congrArg List.length hslots).trans (e.graph.length_slots_applyCommands.trans h.slots)
  · exact halike.available.trans h.available
  · exact halike.capacity.trans h.capacity
  · exact hfailures.trans h.failures
  · exact hskipped.trans (congrArg (· + e.resting) h.skipped)
  · exact (Studio.skips_of_flags hflags).trans h.skips
  · exact (congrArg Prod.snd hflags).trans h.relays
  · intro connection hmem
    exact happlied.slots connection (hslots ▸ hmem)
  · exact happlied.queued

theorem Sound.step (h : e.Sound blocks studio) (hmany : 2 ≤ blocks) (s : EnsembleStep)
    (hstreams : ∀ source, s = .call (.connect source) → source.isStream studio = true) :
    (e.step s).Sound blocks studio := by
  cases s with
  | engine index step notUpdate =>
    exact { h with skips := (e.studio.skips_onEngine index notUpdate).trans h.skips }
  | relay index op => exact { h with relays := Array.size_modify.trans h.relays }
  | call call =>
    refine h.host rfl ?_
    intro source hcall
    cases hcall
    exact hstreams source rfl
  | proceed => exact h.host (s := .proceed) rfl nofun
  | cycle => exact h.cycle hmany

theorem Sound.run (h : e.Sound blocks studio) (hmany : 2 ≤ blocks) (steps : List EnsembleStep)
    (hstreams : ∀ source, .call (.connect source) ∈ steps → source.isStream studio = true) :
    (e.run steps).Sound blocks studio := by
  induction steps generalizing e with
  | nil => exact h
  | cons s rest ih =>
    -- Only streams are connected first, and only streams afterwards.
    refine ih (h.step hmany s ?_) ?_
    · intro source hs
      exact hstreams source (hs ▸ List.mem_cons_self)
    · intro source hmem
      exact hstreams source (List.mem_cons_of_mem _ hmem)

/-! ### Stale blocks -/

/-- A step does the same with other blocks in the pool, as long as they are as many. -/
theorem Sound.step_withPool (h : e.Sound blocks studio) {pool : Pool}
    (halike : e.graph.pool.Alike pool) (s : EnsembleStep) :
    (e.withPool pool).step s = (e.step s).withPool ((e.withPool pool).step s).graph.pool := by
  have haside := Graph.unseen_restock (σ := Source) (fun _ => pool) id
  have hhost {s : GraphStep Source Studio} (hs : s.isCycle = false) :
      (e.withPool pool).history.step Source.play s
        = (e.history.step Source.play s).onGraph fun g => { g with pool := pool } :=
    e.history.step_restock Source.play hs (fun _ => pool) id
  -- Engines and relays are no part of the graph, and what the host does to it can be done before or
  -- after the pool is replaced.
  cases s with
  | engine index step notUpdate => rfl
  | relay index op => rfl
  | call call =>
    simp only [Ensemble.step, hhost (s := .call call) rfl]
    rfl
  | proceed =>
    have hproceed : (e.withPool pool).history.proceed
        = e.history.proceed.onGraph fun g => { g with pool := pool } := hhost (s := .proceed) rfl
    simp only [Ensemble.step, hproceed]
    rfl
  | cycle =>
    -- Streams are steady, so a cycle plays the same and leaves the same but for the pool.
    have hsteady : ∀ connection ∈ e.graph.seated, Turn.Steady Source.play connection :=
      fun connection hmem => Turn.steady_of_stream (h.seated connection hmem)
    have hresting : (e.withPool pool).resting = e.resting := by
      rw [resting, resting]
      exact congrArg _ (haside.seated e.graph)
    obtain ⟨pool', hmade⟩ : ∃ pool', (e.withPool pool).graph.nextBlock Source.play e.studio
        = ((e.graph.nextBlock Source.play e.studio).1,
          { (e.graph.nextBlock Source.play e.studio).2.1 with pool := pool' },
          (e.graph.nextBlock Source.play e.studio).2.2) :=
      ⟨_, Graph.nextBlock_of_alike Source.play h.slots hsteady h.fits halike⟩
    have hcycle : (e.withPool pool).cycle = e.cycle.withPool pool' := by
      show (e.withPool pool).heard ((e.withPool pool).graph.nextBlock Source.play e.studio) = _
      rw [hmade, heard, hresting]
      rfl
    show (e.withPool pool).cycle = e.cycle.withPool (e.withPool pool).cycle.graph.pool
    rw [hcycle]
    rfl

/-- Nor does a whole run differ that starts with other blocks in the pool. -/
theorem run_withPool {e' : Ensemble} (h : e.Sound blocks studio) (h' : e'.Sound blocks studio)
    (hmany : 2 ≤ blocks) (hsame : e' = e.withPool e'.graph.pool) (steps : List EnsembleStep)
    (hstreams : ∀ source, .call (.connect source) ∈ steps → source.isStream studio = true) :
    e'.run steps = (e.run steps).withPool (e'.run steps).graph.pool := by
  induction steps generalizing e e' with
  | nil => exact hsame
  | cons s rest ih =>
    have hfirst : ∀ source, s = .call (.connect source) → source.isStream studio = true :=
      fun source hs => hstreams source (hs ▸ List.mem_cons_self)
    -- Both runs are sound, so their pools are as full at any time.
    have halike : e.graph.pool.Alike e'.graph.pool :=
      ⟨h.available.trans h'.available.symm, h.capacity.trans h'.capacity.symm⟩
    have hstep := h.step_withPool halike s
    rw [← hsame] at hstep
    exact ih (h.step hmany s hfirst) (h'.step hmany s hfirst) hstep fun source hmem =>
      hstreams source (List.mem_cons_of_mem _ hmem)

end

/-- A graph of engines and relays with a pool of two blocks or more, whatever is in them. At any
time of any run, every block is in the pool, no request for blocks has failed, and only engines that
were stopping have been skipped. In the next cycle, too, all others deliver a block. What has been
played, and everything else but the samples in the pool, is as in a run from other blocks. -/
theorem never_starves (blocks : Array Block) (hblocks : 2 ≤ blocks.size) (studio : Studio)
    (steps : List EnsembleStep)
    (hstreams : ∀ source, .call (.connect source) ∈ steps → source.isStream studio = true) :
    let e := (start blocks studio).run steps
    e.graph.pool.available = blocks.size ∧ e.graph.pool.capacity = blocks.size ∧
    e.graph.pool.failures = 0 ∧
    -- The graph has skipped engines that were stopping, and no engine has counted a skipped block.
    e.graph.skipped = e.rested ∧ e.studio.skips = studio.skips ∧
    (e.graph.turns Source.play e.studio).map (·.delivered.isNone)
      = e.graph.seated.map (·.source.isStopping e.studio) ∧
    ∀ blocks' : Array Block, blocks'.size = blocks.size →
      let e' := (start blocks' studio).run steps
      e'.played = e.played ∧ e'.studio = e.studio ∧ e' = e.withPool e'.graph.pool := by
  intro e
  have hstart := sound_start blocks studio
  have hsound : e.Sound blocks.size studio := hstart.run hblocks steps hstreams
  obtain ⟨hnones, -⟩ :=
    Graph.nextBlock_of_streams hsound.seated hsound.fits (hsound.available ▸ hblocks)
  refine ⟨hsound.available, hsound.capacity, hsound.failures, hsound.skipped, hsound.skips, hnones,
    ?_⟩
  intro blocks' hsize e'
  have hstart' : (start blocks' studio).Sound blocks.size studio :=
    hsize ▸ sound_start blocks' studio
  -- The two starts are the same but for the pool.
  have hsame : start blocks' studio
      = (start blocks studio).withPool (start blocks' studio).graph.pool := rfl
  have hrun : e' = e.withPool e'.graph.pool :=
    run_withPool hstart hstart' hblocks hsame steps hstreams
  refine ⟨?_, ?_, hrun⟩
  · rw [hrun]
    rfl
  · rw [hrun]
    rfl

/-- An engine and a relay share two blocks. The engine is stopped after the first cycle, and the
second one skips it. -/
theorem engine_and_relay_play :
    ∃ engine : Engine, Engine.create {} = .ok engine ∧
      let studio : Studio := { engines := #[engine], relays := #[{ ring := { capacity := 16 } }] }
      let steps : List EnsembleStep :=
        [.call (.connect (.engine 0)), .proceed, .call (.connect (.relay 0)), .proceed, .cycle,
          .engine 0 .stopTimer, .relay 0 (.write 0xFF), .cycle]
      let e := (start #[.filled 1, .filled 2] studio).run steps
      2 ≤ #[Block.filled 1, .filled 2].size ∧
      (∀ source, .call (.connect source) ∈ steps → source.isStream studio = true) ∧
      e.graph.pool.available = 2 ∧ e.graph.pool.failures = 0 ∧ e.graph.skipped = 1 ∧
      ((start #[.filled 0, .filled 0] studio).run steps).played = e.played := by
  obtain ⟨engine, hengine⟩ : ∃ engine : Engine, Engine.create {} = .ok engine := ⟨_, rfl⟩
  refine ⟨engine, hengine, ?_⟩
  intro studio steps
  have hstreams : ∀ source, .call (.connect source) ∈ steps → source.isStream studio = true := by
    intro source hmem
    simp only [steps, List.mem_cons, EnsembleStep.call.injEq, GraphCall.connect.injEq, reduceCtorEq,
      false_or, or_false, List.not_mem_nil] at hmem
    rcases hmem with rfl | rfl
    · rfl
    · rfl
  obtain ⟨havailable, -, hfailures, hskipped, -, -, hother⟩ :=
    never_starves #[.filled 1, .filled 2] (by decide) studio steps hstreams
  have hrested : ((start #[.filled 1, .filled 2] studio).run steps).rested = 1 := by
    simp only [steps, studio, Engine.create_eq_ok hengine]
    decide +kernel
  exact ⟨by decide, hstreams, havailable, hfailures, hskipped.trans hrested,
    (hother #[.filled 0, .filled 0] rfl).1⟩

end Ensemble

end Chiptune
