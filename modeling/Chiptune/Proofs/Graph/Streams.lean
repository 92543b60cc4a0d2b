import Chiptune.Proofs.Engine.Skips
import Chiptune.Proofs.Graph.Sources

/-!
# `Chiptune.Proofs.Graph.Streams`: a cycle of engines and relays

The streams of a studio are its engines and relays. In a cycle of streams, with a pool of two blocks
or more, every one of them finds its pair, so the only ones that deliver nothing are the engines
that are stopping (`Turn.all_of_streams`, the main result). None of the cycle shows in what decides
this: engines go on as they are, running or stopping, and count no skipped block. That is the
`Studio.flags`, which the turns keep.

`Graph.Holds` is a property of all connections in slots and in queued commands. Whatever commands
do, the connections that get a turn have it (`Graph.Holds.seated`). The host adds no connections
but those that it makes (`GraphHistory.step_keeps`).
-/

set_option autoImplicit false

namespace Chiptune

/-! ### Engines and relays -/

namespace Engine

/-- Whether the engine is stopping, and how many blocks it has skipped. -/
def flags (e : Engine) : Bool × Nat := (e.stopping, e.blocksSkipped)

theorem flags_afterFrames (n : Nat) (e : Engine) : (e.afterFrames n).flags = e.flags := by
  obtain ⟨_, _, _, hparts⟩ := e.afterFrames_parts n
  rw [hparts]
  rfl

section
variable {e : Engine} {pool : Pool}

/-- With two blocks in the pool, an update gives a block unless playback is being stopped, and the
engine is stopping afterwards if it was before. -/
theorem update_of_many (hfits : pool.Fits) (hmany : 2 ≤ pool.available) :
    (e.update pool).1.isNone = e.stopping ∧ (e.update pool).2.1.flags = e.flags ∧
      (e.update pool).2.2.failures = pool.failures := by
  cases hstopping : e.stopping with
  | true =>
    rw [update_of_stopping hstopping]
    exact ⟨rfl, rfl, rfl⟩
  | false =>
    rcases Pool.allocateStereo_cases hfits with ⟨hfew, -⟩ | ⟨stale, left, htaken, -, -, hfailures⟩
    · omega
    · rw [update_of_taken hstopping htaken]
      refine ⟨rfl, ?_, hfailures⟩
      show (stale.fill nextFrame e.beginBlock).2.flags = e.flags
      rw [StereoBlock.fill_snd]
      exact flags_afterFrames blockSize e.beginBlock

end

end Engine

/-- With two blocks in the pool, a relay gives a block, be it enabled or not. -/
theorem Relay.update_of_many (r : Relay) {pool : Pool} (hfits : pool.Fits)
    (hmany : 2 ≤ pool.available) :
    (r.update pool).1.isNone = false ∧ (r.update pool).2.2.failures = pool.failures := by
  rcases Pool.allocateStereo_cases hfits with ⟨hfew, -⟩ | ⟨stale, left, htaken, -, -, hfailures⟩
  · omega
  · rw [Relay.update, htaken]
    exact ⟨rfl, hfailures⟩

/-! ### Studios -/

namespace Studio

/-- The flags of all engines, and the number of relays. -/
def flags (s : Studio) : Array (Bool × Nat) × Nat := (s.engines.map Engine.flags, s.relays.size)

theorem flags_setEngine {s : Studio} {index : Nat} {e e' : Engine}
    (he : s.engines[index]? = some e) (h : e'.flags = e.flags) :
    (s.setEngine index e').flags = s.flags := by
  have hengines : (s.setEngine index e').engines.map Engine.flags
      = s.engines.map Engine.flags := by
    refine Array.ext_getElem? ?_
    intro i
    simp only [setEngine, Array.getElem?_map, Array.getElem?_setIfInBounds]
    split
    · next hi =>
      subst hi
      have hlt : index < s.engines.size := (Array.getElem?_eq_some_iff.mp he).1
      rw [if_pos hlt, he]
      exact congrArg some h
    · rfl
  exact congrArg (·, s.relays.size) hengines

theorem flags_setRelay (s : Studio) (index : Nat) (r : Relay) :
    (s.setRelay index r).flags = s.flags :=
  congrArg (s.engines.map Engine.flags, ·) Array.size_setIfInBounds

end Studio

namespace Source

/-- Whether the source is an engine or a relay that there is. -/
def isStream (studio : Studio) : Source → Bool
  | engine index => index < studio.engines.size
  | relay index => index < studio.relays.size
  | constant _ | ramp _ | idle | hoarder => false

/-- Whether the source is an engine that is stopping. -/
def isStopping (studio : Studio) : Source → Bool
  | engine index => (studio.engines[index]?).any (·.stopping)
  | relay _ | constant _ | ramp _ | idle | hoarder => false

section
variable {studio studio' : Studio}

theorem isStream_of_size (hengines : studio.engines.size = studio'.engines.size)
    (hrelays : studio.relays.size = studio'.relays.size) (source : Source) :
    source.isStream studio = source.isStream studio' := by
  cases source with
  | engine index => simp only [isStream, hengines]
  | relay index => simp only [isStream, hrelays]
  | _ => rfl

theorem isStream_congr (h : studio.flags = studio'.flags) (source : Source) :
    source.isStream studio = source.isStream studio' := by
  have hengines := congrArg (fun flags => flags.1.size) h
  simp only [Studio.flags, Array.size_map] at hengines
  exact isStream_of_size hengines (congrArg Prod.snd h) source

theorem isStopping_congr (h : studio.flags = studio'.flags) (source : Source) :
    source.isStopping studio = source.isStopping studio' := by
  cases source with
  | engine index =>
    have hflags := congrArg (fun flags => flags.1[index]?.any (·.1)) h
    simp only [Studio.flags, Array.getElem?_map, Option.any_map] at hflags
    exact hflags
  | _ => rfl

end

end Source

/-! ### Turns of streams -/

theorem Pool.failures_releaseStereo (p : Pool) (block : StereoBlock) :
    (p.releaseStereo block).failures = p.failures := by
  have hrelease (p : Pool) (block : Block) : (p.release block).failures = p.failures := by
    unfold Pool.release
    split
    · rfl
    · rfl
  rw [Pool.releaseStereo, hrelease, hrelease]

namespace Turn

section
variable {studio : Studio} {pool : Pool} {connection : Connection Source}

theorem failures_back {σ ω : Type} (turn : Turn σ ω) :
    turn.back.failures = turn.left.failures := by
  unfold back
  split
  · exact Pool.failures_releaseStereo _ _
  · rfl

/-- The turn of a stream. It delivers nothing if it is an engine that is stopping. -/
theorem of_stream (hstream : connection.source.isStream studio = true) (hfits : pool.Fits)
    (hmany : 2 ≤ pool.available) :
    let turn := of Source.play connection studio pool
    turn.delivered.isNone = connection.source.isStopping studio ∧ turn.after = connection ∧
      turn.world.flags = studio.flags ∧ turn.back.failures = pool.failures := by
  obtain ⟨id, source⟩ := connection
  intro turn
  rw [failures_back]
  cases source with
  | engine index =>
    have hlt : index < studio.engines.size := of_decide_eq_true hstream
    have he : studio.engines[index]? = some studio.engines[index] := Array.getElem?_eq_getElem hlt
    generalize studio.engines[index] = e at he
    obtain ⟨hnone, hflags, hfailures⟩ := Engine.update_of_many (e := e) hfits hmany
    have hturn : turn =
        { found := pool
          delivered := (e.update pool).1
          after := ⟨id, .engine index⟩
          world := studio.setEngine index (e.update pool).2.1
          left := (e.update pool).2.2 } := by
      simp only [turn, of, Source.play, he]
    rw [hturn]
    refine ⟨?_, rfl, Studio.flags_setEngine he hflags, hfailures⟩
    rw [Source.isStopping, he]
    exact hnone
  | relay index =>
    have hlt : index < studio.relays.size := of_decide_eq_true hstream
    have hr : studio.relays[index]? = some studio.relays[index] := Array.getElem?_eq_getElem hlt
    generalize studio.relays[index] = r at hr
    obtain ⟨hnone, hfailures⟩ := r.update_of_many hfits hmany
    have hturn : turn =
        { found := pool
          delivered := (r.update pool).1
          after := ⟨id, .relay index⟩
          world := studio.setRelay index (r.update pool).2.1
          left := (r.update pool).2.2 } := by
      simp only [turn, of, Source.play, hr]
    rw [hturn]
    exact ⟨hnone, rfl, Studio.flags_setRelay .., hfailures⟩
  | constant level => exact absurd hstream Bool.false_ne_true
  | ramp level => exact absurd hstream Bool.false_ne_true
  | idle => exact absurd hstream Bool.false_ne_true
  | hoarder => exact absurd hstream Bool.false_ne_true

theorem steady_of_stream (hstream : connection.source.isStream studio = true) :
    Steady Source.play connection := by
  refine Source.steady connection.id ?_
  intro hhoarder
  rw [hhoarder] at hstream
  nomatch hstream

/-- The turns of streams. Exactly the engines that are stopping deliver nothing. -/
theorem all_of_streams {connections : List (Connection Source)} (studio : Studio) (pool : Pool)
    (hstreams : ∀ connection ∈ connections, connection.source.isStream studio = true)
    (hfits : pool.Fits) (hmany : 2 ≤ pool.available) :
    let turns := all Source.play connections studio pool
    turns.map (·.delivered.isNone) = connections.map (·.source.isStopping studio) ∧
      turns.map (·.after) = connections ∧ (lastWorld studio turns).flags = studio.flags ∧
      (lastPool pool turns).failures = pool.failures := by
  induction connections generalizing studio pool with
  | nil => exact ⟨rfl, rfl, rfl, rfl⟩
  | cons connection rest ih =>
    obtain ⟨hfirst, hrest⟩ := List.forall_mem_cons.mp hstreams
    obtain ⟨hnone, hafter, hflags, hfailures⟩ := of_stream hfirst hfits hmany
    have hback := (steady_of_stream hfirst).alike_back studio hfits
    have hstill : ∀ c ∈ rest,
        c.source.isStream (of Source.play connection studio pool).world = true :=
      fun c hmem => (Source.isStream_congr hflags c.source).trans (hrest c hmem)
    -- The next stream finds as many blocks, and the same engines stopping.
    obtain ⟨hnones, hafters, hlast, hcount⟩ := ih (of Source.play connection studio pool).world
      (of Source.play connection studio pool).back hstill (hback.fits hfits)
      (hback.available ▸ hmany)
    have hstopping : rest.map (·.source.isStopping (of Source.play connection studio pool).world)
        = rest.map (·.source.isStopping studio) :=
      List.map_congr_left fun c _ => Source.isStopping_congr hflags c.source
    intro turns
    refine ⟨?_, ?_, hlast.trans hflags, hcount.trans hfailures⟩
    · rw [hstopping] at hnones
      exact congrArg₂ List.cons hnone hnones
    · exact congrArg₂ List.cons hafter hafters

end

end Turn

/-! ### Connections in slots and commands -/

namespace Graph

variable {σ ω : Type} {P : Connection σ → Prop}

/-- All connections in slots and in queued commands have a property. -/
structure Holds (P : Connection σ → Prop) (g : Graph σ) : Prop where
  slots : ∀ connection ∈ Slots.connections g.slots, P connection
  queued : ∀ connection ∈ g.queued, P connection

theorem queued_foldl_giveBack (connections : List (Connection σ)) (g : Graph σ) :
    (connections.foldl giveBack g).queued = g.queued := by
  induction connections generalizing g with
  | nil => rfl
  | cons connection rest ih => exact ih (g.giveBack connection)

theorem Holds.applyCommand {g : Graph σ} (h : g.Holds P) {command : GraphCommand σ}
    (hcommand : ∀ connection ∈ command.carried, P connection) :
    (g.applyCommand command).Holds P := by
  cases command with
  | connect connection =>
    simp only [Graph.applyCommand]
    cases hplace : Slots.place? connection g.slots with
    | some slots =>
      refine ⟨?_, h.queued⟩
      intro c hmem
      rcases List.mem_cons.mp ((Slots.place?_perm hplace).2.mem_iff.mp hmem) with rfl | hmem
      · exact hcommand c List.mem_cons_self
      · exact h.slots c hmem
    | none => exact ⟨h.slots, h.queued⟩
  | disconnect id =>
    rw [applyCommand_disconnect]
    refine ⟨?_, ?_⟩
    · intro c hmem
      rw [slots_foldl_giveBack] at hmem
      exact h.slots c ((Slots.takeOut_perm id g.slots).2.mem_iff.mp (List.mem_append_right _ hmem))
    · rw [queued_foldl_giveBack]
      exact h.queued
  | disconnectAll =>
    refine ⟨?_, ?_⟩
    · intro c hmem
      rw [Graph.applyCommand, slots_foldl_giveBack, Slots.connections_emptied] at hmem
      exact absurd hmem List.not_mem_nil
    · rw [Graph.applyCommand, queued_foldl_giveBack]
      exact h.queued

theorem Holds.applyQueued (fuel : Nat) {g : Graph σ} (h : g.Holds P) :
    (g.applyQueued fuel).Holds P := by
  induction fuel generalizing g with
  | zero => exact h
  | succ fuel ih =>
    unfold Graph.applyQueued
    cases hpop : g.commands.queue.pop? with
    | none => exact h
    | some popped =>
      obtain ⟨command, queue⟩ := popped
      have hqueued : g.queued = command.carried ++ queue.toList.flatMap GraphCommand.carried := by
        have hcommands : g.commands.toList = command :: queue.toList := Queue.pop?_eq_some hpop
        rw [Graph.queued, hcommands, List.flatMap_cons]
      -- The command takes what it carries off the queue.
      have hdequeued : (g.dequeued queue).Holds P :=
        ⟨h.slots, fun c hmem => h.queued c (hqueued ▸ List.mem_append_right _ hmem)⟩
      exact ih (hdequeued.applyCommand fun c hmem =>
        h.queued c (hqueued ▸ List.mem_append_left _ hmem))

/-- Carrying out the commands gives slots to such connections only. -/
theorem Holds.applyCommands {g : Graph σ} (h : g.Holds P) : g.applyCommands.Holds P :=
  h.applyQueued _

theorem Holds.seated {g : Graph σ} (h : g.Holds P) : ∀ connection ∈ g.seated, P connection :=
  h.applyCommands.slots

/-! ### What the host adds to them -/

/-- Collecting changes neither slots nor queue. -/
theorem reclaim_keeps (g : Graph σ) :
    g.reclaim.state.slots = g.slots ∧ g.reclaim.state.queued = g.queued := by
  have hqueued (fuel : Nat) (g : Graph σ) (found : List (Connection σ)) (notices : List Notice) :
      (reclaimQueued fuel g found notices).state.slots = g.slots ∧
        (reclaimQueued fuel g found notices).state.queued = g.queued := by
    induction fuel generalizing g found notices with
    | zero => exact ⟨rfl, rfl⟩
    | succ fuel ih =>
      unfold reclaimQueued
      cases g.returned.queue.pop? with
      | none => exact ⟨rfl, rfl⟩
      | some popped =>
        dsimp only
        split
        · exact ih _ _ _
        · exact ih _ _ _
  exact hqueued _ g [] []

/-- Sending changes no slot and adds at most what the command carries. -/
theorem send_keeps (g : Graph σ) (command : GraphCommand σ) :
    (g.send command).2.slots = g.slots ∧
      ∀ connection ∈ (g.send command).2.queued,
        connection ∈ g.queued ∨ connection ∈ command.carried := by
  refine ⟨rfl, ?_⟩
  intro connection hmem
  have hlist : (g.send command).2.commands.toList
      = if g.commands.isFull then g.commands.toList else g.commands.toList ++ [command] :=
    g.commands.toList_write command
  rw [queued, hlist] at hmem
  split at hmem
  · exact Or.inl hmem
  · rw [List.flatMap_append, List.flatMap_singleton] at hmem
    exact List.mem_append.mp hmem

end Graph

namespace GraphHistory

variable {σ ω : Type} (h : GraphHistory σ)

theorem begin_keeps (call : GraphCall σ) :
    (h.begin call).graph.slots = h.graph.slots ∧
      ∀ connection ∈ (h.begin call).graph.queued,
        connection ∈ h.graph.queued ∨ call = .connect connection.source := by
  have hsame : h.graph.slots = h.graph.slots ∧ ∀ connection ∈ h.graph.queued,
      connection ∈ h.graph.queued ∨ call = .connect connection.source :=
    ⟨rfl, fun _ => Or.inl⟩
  cases call with
  | connect source =>
    obtain ⟨hslots, hqueued⟩ := h.graph.send_keeps (.connect ⟨h.graph.nextId, source⟩)
    unfold begin
    dsimp only
    split
    · exact hsame
    · generalize h.graph.send (.connect ⟨h.graph.nextId, source⟩) = sent at hslots hqueued
      obtain ⟨taken, g⟩ := sent
      -- Whether the command was taken or not, no connection but the new one is queued.
      have hsent : g.slots = h.graph.slots ∧ ∀ connection ∈ g.queued,
          connection ∈ h.graph.queued ∨ GraphCall.connect source = .connect connection.source := by
        refine ⟨hslots, ?_⟩
        intro connection hmem
        rcases hqueued connection hmem with hmem | hmem
        · exact Or.inl hmem
        · obtain rfl := List.mem_singleton.mp hmem
          exact Or.inr rfl
      cases taken with
      | false => exact hsent
      | true => exact hsent
  | disconnect id =>
    unfold begin
    dsimp only
    split
    · exact hsame
    · exact hsame
  | disconnectAll => exact hsame
  | muteAndDisconnect =>
    unfold begin
    dsimp only
    split
    · exact hsame
    · exact hsame
  | reclaim => exact hsame
  | unmute => exact hsame

theorem proceed_keeps :
    h.proceed.graph.slots = h.graph.slots ∧
      ∀ connection ∈ h.proceed.graph.queued, connection ∈ h.graph.queued := by
  obtain ⟨graph, phase, connected, collected⟩ := h
  cases phase with
  | idle => exact ⟨rfl, fun _ hmem => hmem⟩
  | sending strike =>
    obtain ⟨hslots, hqueued⟩ := graph.send_keeps strike.command
    simp only [proceed]
    generalize graph.send strike.command = sent at hslots hqueued
    obtain ⟨taken, g⟩ := sent
    have hsent : g.slots = graph.slots ∧ ∀ connection ∈ g.queued, connection ∈ graph.queued := by
      refine ⟨hslots, ?_⟩
      intro connection hmem
      rcases hqueued connection hmem with hmem | hmem
      · exact hmem
      · -- A command that removes connections carries none.
        cases strike with
        | one id => exact absurd hmem List.not_mem_nil
        | all => exact absurd hmem List.not_mem_nil
    cases taken with
    | false => exact hsent
    | true => exact hsent
  | striking strike =>
    cases strike with
    | one id => exact ⟨rfl, fun _ hmem => hmem⟩
    | all => exact ⟨rfl, fun _ hmem => hmem⟩
  | enlisting id => exact ⟨rfl, fun _ hmem => hmem⟩
  | collecting =>
    obtain ⟨hslots, hqueued⟩ := graph.reclaim_keeps
    exact ⟨hslots, fun connection hmem => hqueued ▸ hmem⟩

/-- The host leaves the slots as they are and queues no connections but those that it makes. -/
theorem step_keeps (play : Playing σ ω) {s : GraphStep σ ω} (hs : s.isCycle = false) :
    (h.step play s).graph.slots = h.graph.slots ∧
      ∀ connection ∈ (h.step play s).graph.queued,
        connection ∈ h.graph.queued ∨ s = .call (.connect connection.source) := by
  cases s with
  | call call =>
    unfold step
    dsimp only
    split
    · obtain ⟨hslots, hqueued⟩ := h.begin_keeps call
      exact ⟨hslots, fun connection hmem =>
        (hqueued connection hmem).imp_right (congrArg GraphStep.call)⟩
    · exact ⟨rfl, fun _ => Or.inl⟩
  | proceed =>
    obtain ⟨hslots, hqueued⟩ := h.proceed_keeps
    exact ⟨hslots, fun connection hmem => Or.inl (hqueued connection hmem)⟩
  | cycle world => nomatch hs

end GraphHistory

namespace Graph

/-! ### Cycles of streams -/

section
variable {g : Graph Source} {studio : Studio}

/-- A cycle of streams, with two blocks in the pool or more. It leaves the slots as the commands
have left them, it gives all blocks back, and it skips the engines that are stopping. -/
theorem nextBlock_of_streams
    (hstreams : ∀ connection ∈ g.seated, connection.source.isStream studio = true)
    (hfits : g.pool.Fits) (hmany : 2 ≤ g.pool.available) :
    let played := g.nextBlock Source.play studio
    (g.turns Source.play studio).map (·.delivered.isNone)
        = g.seated.map (·.source.isStopping studio) ∧
      played.2.1.slots = g.applyCommands.slots ∧ played.2.1.pool.Alike g.pool ∧
      played.2.1.pool.failures = g.pool.failures ∧
      played.2.1.skipped = g.skipped + g.seated.countP (·.source.isStopping studio) ∧
      played.2.2.flags = studio.flags := by
  obtain ⟨-, hconnections, hplaces, hmixer, hworld⟩ := g.nextBlock_eq Source.play studio
  obtain ⟨hnones, hafters, hflags, hfailures⟩ :=
    Turn.all_of_streams studio g.pool hstreams hfits hmany
  have hfair : ∀ turn ∈ g.turns Source.play studio, turn.Fair :=
    Turn.fair_of_steady (fun c hmem => Turn.steady_of_stream (hstreams c hmem)) hfits
  have hsilent : Turn.silent (g.turns Source.play studio)
      = g.seated.countP (·.source.isStopping studio) := by
    have hcount := congrArg (List.countP id) hnones
    rw [List.countP_map, List.countP_map] at hcount
    exact hcount
  intro played
  have hpool : played.2.1.pool = Turn.lastPool g.pool (g.turns Source.play studio) :=
    congrArg MixerState.pool hmixer
  refine ⟨hnones, ?_, ?_, ?_, ?_, ?_⟩
  · exact slots_ext hplaces (hconnections.trans hafters)
  · rw [hpool]
    exact Turn.alike_all hfits hfair
  · rw [hpool]
    exact hfailures
  · rw [← hsilent]
    exact congrArg MixerState.skipped hmixer
  · rw [hworld]
    exact hflags

end

end Graph

end Chiptune
