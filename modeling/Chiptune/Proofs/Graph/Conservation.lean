import Chiptune.Graph.Source
import Chiptune.Proofs.Graph.Commands
import Chiptune.Proofs.Graph.Run
import Mathlib.Algebra.Group.Nat.Defs

/-!
# `Chiptune.Proofs.Graph.Conservation`: no source is lost, leaked, duplicated or bounced

`GraphHistory.Kept` is what every step of host and audio side keeps. Its heart is a bound on the
connections in the graph. While none is being removed there are at most `23` more of them than
are on the list: collecting leaves at most fifteen in queued commands and eight in slots, and a
connection that is made is put on the list too. With eight on the list that makes `31`, which is
what the return ring holds, so it never refuses one.

`GraphHistory.sources_kept` is the main statement.
-/

set_option autoImplicit false

namespace Chiptune

namespace Graph

variable {σ τ : Type}

/-! ### What the host does -/

/-- A command is put behind the others unless the queue is full. -/
theorem send_cases (g : Graph σ) (command : GraphCommand σ) :
    (∃ commands, g.send command = (false, { g with commands := commands }) ∧
      commands.toList = g.commands.toList ∧ commands.limit = g.commands.limit) ∨
    ∃ commands, g.send command = (true, { g with commands := commands }) ∧
      commands.toList = g.commands.toList ++ [command] ∧ commands.limit = g.commands.limit ∧
      g.commands.toList.length < g.commands.limit := by
  have hsend : g.send command
      = ((g.commands.write command).1, { g with commands := (g.commands.write command).2 }) := rfl
  have hlist := g.commands.toList_write command
  have hlimit := g.commands.limit_write command
  cases hfull : g.commands.isFull with
  | true =>
    rw [hfull] at hlist
    refine Or.inl ⟨_, ?_, hlist, hlimit⟩
    rw [hsend, Ring.write_fst, hfull]
    rfl
  | false =>
    rw [hfull] at hlist
    refine Or.inr ⟨_, ?_, hlist, hlimit, Ring.isFull_eq_false_iff _ |>.mp hfull⟩
    rw [hsend, Ring.write_fst, hfull]
    rfl

section
variable {g : Graph σ} {commands : Ring (GraphCommand σ)}

/-- A queue that refused a command holds what it held. -/
theorem Sound.follows_refused (mark : σ → τ) (h : g.Sound)
    (hlist : commands.toList = g.commands.toList) (hlimit : commands.limit = g.commands.limit) :
    Follows mark g { g with commands := commands } := by
  have hheld : held { g with commands := commands } = g.held := by
    unfold held queued
    rw [← hlist]
  have hexpected : expected { g with commands := commands } = g.expected := by
    unfold expected
    rw [← hlist]
  refine ⟨⟨h.slots, hlimit.trans h.commandLimit, ?_, h.limit, h.overruns, ?_, ?_⟩, ?_, ?_, rfl,
    rfl⟩
  · show commands.toList.length ≤ _
    rw [hlist]
    exact h.commands_le
  · show GraphCommand.Room _ commands.toList
    rw [hlist]
    exact h.room
  · rw [hheld]
    exact h.held_le
  · rw [hheld]
  · rw [hexpected]

/-- A command that is sent adds what it carries. -/
theorem Sound.sent (h : g.Sound) {command : GraphCommand σ}
    (hlist : commands.toList = g.commands.toList ++ [command])
    (hlimit : commands.limit = g.commands.limit)
    (hspace : g.commands.toList.length < g.commands.limit)
    (hroom : (GraphCommand.effect g.expected command).length ≤ maxConnections)
    (hfits : g.held.length + command.carried.length ≤ returnRingCapacity - 1) :
    Sound { g with commands := commands } ∧
      (held { g with commands := commands }).Perm (command.carried ++ g.held) ∧
      expected { g with commands := commands } = GraphCommand.effect g.expected command := by
  -- The queue is the first part of what is held; the order within does not matter.
  have hqueued : queued { g with commands := commands } = g.queued ++ command.carried := by
    show commands.toList.flatMap GraphCommand.carried = _
    rw [hlist, List.flatMap_append, List.flatMap_singleton, queued]
  have hheld : (held { g with commands := commands }).Perm (command.carried ++ g.held) := by
    unfold held
    rw [hqueued, ← List.append_assoc command.carried]
    exact List.perm_append_comm.append_right _
  refine ⟨⟨h.slots, hlimit.trans h.commandLimit, ?_, h.limit, h.overruns, ?_, ?_⟩, hheld, ?_⟩
  · show commands.toList.length ≤ _
    rw [h.commandLimit] at hspace
    rw [hlist, List.length_append, List.length_singleton]
    exact hspace
  · show GraphCommand.Room _ commands.toList
    rw [hlist]
    exact h.room.append hroom
  · rw [hheld.length_eq, List.length_append, Nat.add_comm]
    exact hfits
  · show commands.toList.foldl GraphCommand.effect _ = _
    rw [hlist, List.foldl_append]
    rfl

end

/-- All that has come back is collected behind what was found before, and each is reported as
reclaimed. The list stays as it is. -/
structure Collected (g : Graph σ) (found : List (Connection σ)) (notices : List Notice)
    (o : Outcome (Graph σ) (List (Connection σ))) : Prop where
  result : o.result = found.reverse ++ g.returned.toList
  notices : o.notices = notices.reverse ++ g.returned.toList.map (.sourceReclaimed ·.id)
  state : ∃ queue, queue.toList = [] ∧
    o.state = { g with returned := { g.returned with queue := queue } }

theorem collected_nothing {g : Graph σ} (hnil : g.returned.toList = [])
    (found : List (Connection σ)) (notices : List Notice) :
    Collected g found notices
      { result := found.reverse, state := g, notices := notices.reverse } where
  result := by rw [hnil, List.append_nil]
  notices := by rw [hnil, List.map_nil, List.append_nil]
  state := ⟨g.returned.queue, hnil, rfl⟩

/-- Collecting, as long as nothing that has come back is on the list. -/
theorem collected_reclaimQueued (fuel : Nat) {g : Graph σ}
    (hfuel : g.returned.toList.length ≤ fuel)
    (h : ∀ connection ∈ g.returned.toList, connection.id ∉ g.live)
    (found : List (Connection σ)) (notices : List Notice) :
    Collected g found notices (reclaimQueued fuel g found notices) := by
  induction fuel generalizing g found notices with
  | zero =>
    exact collected_nothing (List.eq_nil_of_length_eq_zero (Nat.le_zero.mp hfuel)) found notices
  | succ fuel ih =>
    unfold reclaimQueued
    cases hpop : g.returned.queue.pop? with
    | none => exact collected_nothing (g.returned.queue.pop?_eq_none_iff.mp hpop) found notices
    | some popped =>
      obtain ⟨connection, rest⟩ := popped
      have hlist : g.returned.toList = connection :: rest.toList := Queue.pop?_eq_some hpop
      rw [hlist] at hfuel h
      -- A connection on the list would be struck off and reported as rejected.
      have hgone : g.live.contains connection.id = false := by
        rw [← Bool.not_eq_true, List.contains_iff_mem]
        exact h connection List.mem_cons_self
      obtain ⟨hresult, hnotices, queue, hnil, hstate⟩ :=
        ih (g := { g with returned := { g.returned with queue := rest } })
          (Nat.le_of_succ_le_succ hfuel) (fun c hc => h c (List.mem_cons_of_mem _ hc))
          (connection :: found) (.sourceReclaimed connection.id :: notices)
      dsimp only
      rw [hgone]
      refine ⟨?_, ?_, queue, hnil, hstate⟩
      · rw [hlist]
        refine hresult.trans ?_
        rw [List.reverse_cons, List.append_assoc]
        rfl
      · rw [hlist]
        refine hnotices.trans ?_
        rw [List.reverse_cons, List.append_assoc]
        rfl

/-- Nothing that comes back is on the list, so all of it is collected and nothing is struck
off. -/
theorem collected_reclaim {g : Graph σ}
    (h : ∀ connection ∈ g.returned.toList, connection.id ∉ g.live) :
    Collected g [] [] g.reclaim :=
  collected_reclaimQueued _ (Nat.le_of_eq g.returned.available_eq_length.symm) h [] []

end Graph

namespace GraphHistory

variable {σ τ ω : Type}

/-! ### What a run keeps -/

/-- The list of connections once it has been changed by the call that is going on. -/
def listed (h : GraphHistory σ) : List ConnectionId :=
  match h.phase with
  | .striking strike => (strike.apply h.graph).live
  | .enlisting id => h.graph.live ++ [id]
  | _ => h.graph.live

/-- The name of the next connection. -/
def nextName (h : GraphHistory σ) : ConnectionId :=
  match h.phase with
  | .enlisting id => Graph.succId id
  | _ => h.graph.nextId

/-- Whether connections have been struck off, or are about to be, whose sources are not
collected yet. -/
def removing (h : GraphHistory σ) : Bool :=
  match h.phase with
  | .striking _ | .collecting => true
  | _ => false

/-- Whether no change of the list is about to come. -/
def settled (h : GraphHistory σ) : Bool :=
  match h.phase with
  | .striking _ | .enlisting _ => false
  | _ => true

theorem listed_of_settled {h : GraphHistory σ} (hs : h.settled = true) :
    h.listed = h.graph.live ∧ h.nextName = h.graph.nextId := by
  unfold settled at hs
  unfold listed nextName
  cases hphase : h.phase with
  | striking strike => rw [hphase] at hs; nomatch hs
  | enlisting id => rw [hphase] at hs; nomatch hs
  | idle => exact ⟨rfl, rfl⟩
  | sending strike => exact ⟨rfl, rfl⟩
  | collecting => exact ⟨rfl, rfl⟩

/-- Connections in the graph beyond those on the list, at most: as many as queued commands and
slots can hold. -/
def margin : Nat := commandRingCapacity - 1 + maxConnections

/-- The state of a run. Queued commands lead to the connections on the list. Every connection
that was made is in the graph or has been handed back, and no two of them have the same name:
they are numbered from one. -/
structure Kept (mark : σ → τ) (h : GraphHistory σ) : Prop where
  sound : h.graph.Sound
  expected : h.graph.expected.Perm h.listed
  held : ((h.graph.held ++ h.collected).map (Connection.key mark)).Perm
    (h.connected.map (Connection.key mark))
  numbered : h.connected.map (·.id.toNat) = List.range' 1 h.connected.length
  next : h.nextName.toNat = h.connected.length + 1
  bounded : h.removing = false → h.graph.held.length ≤ margin + h.listed.length

theorem kept_start (mark : σ → τ) (pool : Pool) : Kept mark (start pool) where
  sound := ⟨rfl, rfl, Nat.zero_le _, rfl, rfl, Nat.zero_le _, Nat.zero_le _⟩
  expected := List.Perm.refl _
  held := List.Perm.refl _
  numbered := rfl
  next := rfl
  bounded := fun _ => Nat.zero_le _

section
variable {mark : σ → τ} {h : GraphHistory σ} (hk : Kept mark h)
include hk

/-- The names of the connections that were made differ. -/
theorem Kept.nodup_connected : (h.connected.map (·.id)).Nodup := by
  -- Names are words, and their numbers are `1`, `2` and so on.
  have hnumbers : ((h.connected.map (·.id)).map UInt32.toNat).Nodup := by
    rw [List.map_map]
    exact hk.numbered ▸ List.nodup_range'
  exact List.Pairwise.of_map UInt32.toNat (fun a b hne heq => hne (congrArg _ heq)) hnumbers

theorem Kept.ids_perm :
    ((h.graph.held ++ h.collected).map (·.id)).Perm (h.connected.map (·.id)) := by
  have hnames := hk.held.map Prod.fst
  rw [List.map_map, List.map_map] at hnames
  exact hnames

theorem Kept.nodup_held : (h.graph.held.map (·.id)).Nodup := by
  have hall := hk.ids_perm.nodup_iff.mpr hk.nodup_connected
  rw [List.map_append] at hall
  exact (List.nodup_append.mp hall).1

/-- A name on the list is that of a connection in a slot or in a queued command. -/
theorem Kept.exists_of_listed {id : ConnectionId} (hid : id ∈ h.listed) :
    ∃ connection, (connection ∈ h.graph.queued ∨ connection ∈ Slots.connections h.graph.slots) ∧
      connection.id = id := by
  have hexpected : id ∈ h.graph.expected := hk.expected.mem_iff.mpr hid
  rcases GraphCommand.mem_foldl_effect hexpected with hslot | ⟨connection, hmem, heq⟩
  · obtain ⟨connection, hmem, heq⟩ := List.mem_map.mp hslot
    exact ⟨connection, Or.inr hmem, heq⟩
  · exact ⟨connection, Or.inl hmem, heq⟩

/-- What comes back is not on the list any more. -/
theorem Kept.not_mem_listed {connection : Connection σ}
    (hmem : connection ∈ h.graph.returned.toList) : connection.id ∉ h.listed := by
  intro hid
  -- Otherwise the name would stand for two connections in the graph, in two places.
  obtain ⟨other, hother, heq⟩ := hk.exists_of_listed hid
  have hnodup := hk.nodup_held
  unfold Graph.held at hnodup
  rw [← List.append_assoc, List.map_append, List.nodup_append] at hnodup
  have hne : ∀ c, c ∈ h.graph.queued ++ Slots.connections h.graph.slots →
      c.id ≠ connection.id := fun c hc =>
    hnodup.2.2 _ (List.mem_map_of_mem hc) _ (List.mem_map_of_mem hmem)
  exact hne other (List.mem_append.mpr hother) heq

theorem Kept.nodup_listed : h.listed.Nodup := by
  -- The list is what commands and slots lead to, and their names differ.
  refine hk.expected.nodup_iff.mp (GraphCommand.nodup_foldl_effect ?_)
  have hnodup := hk.nodup_held
  unfold Graph.held at hnodup
  rw [← List.append_assoc, List.map_append, List.map_append, List.nodup_append] at hnodup
  exact List.perm_append_comm.nodup_iff.mp hnodup.1

/-- What changes neither the connections in the graph nor the list keeps the state. -/
theorem Kept.moved {h' : GraphHistory σ} (hsound : h'.graph.Sound)
    (hheld : (h'.graph.held.map (Connection.key mark)).Perm
      (h.graph.held.map (Connection.key mark)))
    (hexpected : h'.graph.expected.Perm h.graph.expected) (hlisted : h'.listed = h.listed)
    (hnext : h'.nextName = h.nextName) (hconnected : h'.connected = h.connected)
    (hcollected : h'.collected = h.collected)
    (hremoving : h'.removing = false → h.removing = false) : Kept mark h' := by
  have hlength := hheld.length_eq
  rw [List.length_map, List.length_map] at hlength
  refine ⟨hsound, ?_, ?_, ?_, ?_, ?_⟩
  · rw [hlisted]
    exact hexpected.trans hk.expected
  · rw [hconnected, hcollected, List.map_append]
    refine (hheld.append_right _).trans ?_
    rw [← List.map_append]
    exact hk.held
  · rw [hconnected]
    exact hk.numbered
  · rw [hnext, hconnected]
    exact hk.next
  · intro hr
    rw [hlength, hlisted]
    exact hk.bounded (hremoving hr)

/-- So does what changes neither slots nor rings. -/
theorem Kept.hosted {h' : GraphHistory σ} (hslots : h'.graph.slots = h.graph.slots)
    (hcommands : h'.graph.commands = h.graph.commands)
    (hreturned : h'.graph.returned = h.graph.returned) (hlisted : h'.listed = h.listed)
    (hnext : h'.nextName = h.nextName) (hconnected : h'.connected = h.connected)
    (hcollected : h'.collected = h.collected)
    (hremoving : h'.removing = false → h.removing = false) : Kept mark h' := by
  have hheld : h'.graph.held = h.graph.held := by
    unfold Graph.held Graph.queued
    rw [hslots, hcommands, hreturned]
  have hexpected : h'.graph.expected = h.graph.expected := by
    unfold Graph.expected
    rw [hslots, hcommands]
  have hsound : h'.graph.Sound := by
    have hs := hk.sound
    refine ⟨?_, ?_, ?_, ?_, ?_, ?_, ?_⟩
    · exact hslots ▸ hs.slots
    · exact hcommands ▸ hs.commandLimit
    · exact hcommands ▸ hs.commands_le
    · exact hreturned ▸ hs.limit
    · exact hreturned ▸ hs.overruns
    · rw [hslots, hcommands]
      exact hs.room
    · rw [hheld]
      exact hs.held_le
  exact hk.moved hsound (List.Perm.of_eq (congrArg _ hheld)) (List.Perm.of_eq hexpected) hlisted
    hnext hconnected hcollected hremoving

end

/-! ### Steps -/

theorem listed_congr {h h' : GraphHistory σ} (hphase : h'.phase = h.phase)
    (hlive : h'.graph.live = h.graph.live) : h'.listed = h.listed := by
  unfold listed
  rw [hphase]
  cases h.phase with
  | striking strike =>
    cases strike with
    | one id => exact congrArg (List.filter _) hlive
    | all => rfl
  | enlisting id => exact congrArg (· ++ [id]) hlive
  | idle => exact hlive
  | sending strike => exact hlive
  | collecting => exact hlive

theorem nextName_congr {h h' : GraphHistory σ} (hphase : h'.phase = h.phase)
    (hnext : h'.graph.nextId = h.graph.nextId) : h'.nextName = h.nextName := by
  unfold nextName
  rw [hphase]
  cases h.phase with
  | enlisting id => rfl
  | idle => exact hnext
  | sending strike => exact hnext
  | striking strike => exact hnext
  | collecting => exact hnext

/-- Struck off the list is what the command takes out of the slots. -/
theorem live_apply (strike : Strike) {g : Graph σ} (hnodup : g.live.Nodup) :
    (strike.apply g).live = GraphCommand.effect (σ := σ) g.live strike.command := by
  cases strike with
  | one id => exact (hnodup.erase_eq_filter id).symm
  | all => rfl

/-- A command that removes connections leaves no more of them than there were. -/
theorem length_effect_command_le (ids : List ConnectionId) (strike : Strike) :
    (GraphCommand.effect (σ := σ) ids strike.command).length ≤ ids.length := by
  cases strike with
  | one id => exact List.length_erase_le
  | all => exact Nat.zero_le _

/-- As long as names do not run out, the name after a name is the next number. -/
theorem toNat_succId {id : ConnectionId} (h : id.toNat + 1 < 2 ^ 32) :
    (Graph.succId id).toNat = id.toNat + 1 := by
  have hsum : (id + 1).toNat = id.toNat + 1 := by
    rw [UInt32.toNat_add]
    exact Nat.mod_eq_of_lt h
  -- Zero is no name, but only the last word is followed by it.
  have hne : id + 1 ≠ 0 := by
    intro hzero
    rw [hzero] at hsum
    nomatch hsum
  rw [Graph.succId, if_neg hne]
  exact hsum

section
variable {mark : σ → τ} {h : GraphHistory σ} (hk : Kept mark h)
include hk

theorem Kept.cycle {play : Playing σ ω}
    (hmark : ∀ source world pool, mark (play source world pool).2.1 = mark source) (world : ω) :
    Kept mark { h with graph := (h.graph.nextBlock play world).2.1 } := by
  have hf := hk.sound.follows_nextBlock hmark world
  exact hk.moved hf.sound hf.held hf.expected (listed_congr rfl hf.live)
    (nextName_congr rfl hf.nextId) rfl rfl id

/-- Muting is no matter of the connections. -/
theorem Kept.setMuted (muted : Bool) :
    Kept mark { h with graph := { h.graph with muted := muted } } :=
  hk.hosted rfl rfl rfl (listed_congr rfl rfl) (nextName_congr rfl rfl) rfl rfl id

/-- A call that removes connections has yet to send its command. -/
theorem Kept.toSending (hidle : h.phase = .idle) (strike : Strike) :
    Kept mark { h with phase := .sending strike } := by
  obtain ⟨hlisted, hnext⟩ := listed_of_settled (h := h) (by rw [settled, hidle])
  have hremoving : h.removing = false := by rw [removing, hidle]
  exact hk.hosted rfl rfl rfl hlisted.symm hnext.symm rfl rfl fun _ => hremoving

/-- Collecting can begin whenever no call is going on. -/
theorem Kept.toCollecting (hidle : h.phase = .idle) :
    Kept mark { h with phase := .collecting } := by
  obtain ⟨hlisted, hnext⟩ := listed_of_settled (h := h) (by rw [settled, hidle])
  exact hk.hosted rfl rfl rfl hlisted.symm hnext.symm rfl rfl nofun

/-- A connection that is made is sent and, with that, on the list. -/
theorem Kept.connect (hidle : h.phase = .idle) (source : σ)
    (hfew : h.connected.length + 1 < 2 ^ 32 - 1)
    (hroom : h.graph.live.length < maxConnections) {commands : Ring (GraphCommand σ)}
    (hlist : commands.toList
      = h.graph.commands.toList ++ [.connect ⟨h.graph.nextId, source⟩])
    (hlimit : commands.limit = h.graph.commands.limit)
    (hspace : h.graph.commands.toList.length < h.graph.commands.limit) :
    Kept mark
      { h with
        graph := { h.graph with commands := commands }
        phase := .enlisting h.graph.nextId
        connected := h.connected ++ [⟨h.graph.nextId, source⟩] } := by
  obtain ⟨hlisted, hnext⟩ := listed_of_settled (h := h) (by rw [settled, hidle])
  have hremoving : h.removing = false := by rw [removing, hidle]
  have hnumber : h.graph.nextId.toNat = h.connected.length + 1 := hnext ▸ hk.next
  have hexpected : h.graph.expected.Perm h.graph.live := hlisted ▸ hk.expected
  have hbounded := hk.bounded hremoving
  have hmargin : margin = 23 := rfl
  have hring : returnRingCapacity - 1 = 31 := rfl
  have hslots : maxConnections = 8 := rfl
  have hlength := hexpected.length_eq
  rw [hlisted] at hbounded
  -- Seven on the list leave a slot, and the margin leaves a place in the return ring.
  obtain ⟨hsound, hheld, heffect⟩ :=
    hk.sound.sent hlist hlimit hspace
      (by
        show (h.graph.expected ++ [h.graph.nextId]).length ≤ maxConnections
        rw [List.length_append, List.length_singleton]
        omega)
      (by
        show h.graph.held.length + 1 ≤ returnRingCapacity - 1
        omega)
  refine ⟨hsound, ?_, ?_, ?_, ?_, ?_⟩
  · show (Graph.expected _).Perm (h.graph.live ++ [h.graph.nextId])
    rw [heffect]
    exact hexpected.append_right _
  · refine ((hheld.append_right _).map _).trans ?_
    rw [List.append_assoc]
    refine (hk.held.cons _).trans ?_
    rw [List.map_append]
    exact (List.perm_append_singleton _ _).symm
  · rw [List.map_append, hk.numbered, List.length_append, List.length_singleton,
      List.range'_concat, Nat.one_mul, Nat.add_comm 1, ← hnumber]
    rfl
  · rw [List.length_append, List.length_singleton]
    show (Graph.succId h.graph.nextId).toNat = _
    rw [toNat_succId (by omega), hnumber]
  · intro _
    rw [hheld.length_eq]
    show h.graph.held.length + 1 ≤ margin + (h.graph.live ++ [h.graph.nextId]).length
    rw [List.length_append, List.length_singleton]
    omega

/-- A command that removes connections is sent; they are as good as struck off. -/
theorem Kept.sent {strike : Strike} (hphase : h.phase = .sending strike)
    {commands : Ring (GraphCommand σ)}
    (hlist : commands.toList = h.graph.commands.toList ++ [strike.command])
    (hlimit : commands.limit = h.graph.commands.limit)
    (hspace : h.graph.commands.toList.length < h.graph.commands.limit) :
    Kept mark
      { h with graph := { h.graph with commands := commands }, phase := .striking strike } := by
  obtain ⟨hlisted, hnext⟩ := listed_of_settled (h := h) (by rw [settled, hphase])
  have hnodup : h.graph.live.Nodup := hlisted ▸ hk.nodup_listed
  have hexpected : h.graph.expected.Perm h.graph.live := hlisted ▸ hk.expected
  have hcarried : (strike.command : GraphCommand σ).carried = [] := by
    cases strike with
    | one id => rfl
    | all => rfl
  -- The command carries nothing and leaves no more names, so it needs no room.
  obtain ⟨hsound, hheld, heffect⟩ :=
    hk.sound.sent hlist hlimit hspace
      (Nat.le_trans (length_effect_command_le _ strike) hk.sound.room.last)
      (by rw [hcarried]; exact hk.sound.held_le)
  rw [hcarried] at hheld
  refine ⟨hsound, ?_, ?_, hk.numbered, ?_, nofun⟩
  · have hleft := live_apply strike (g := { h.graph with commands := commands }) hnodup
    refine (List.Perm.of_eq heffect).trans (List.Perm.trans ?_ (List.Perm.of_eq hleft.symm))
    exact GraphCommand.effect_perm hexpected strike.command
  · exact ((hheld.append_right _).map _).trans hk.held
  · have hnumber := hk.next
    rw [hnext] at hnumber
    exact hnumber

/-- A command that is refused changes nothing, and ends the call. -/
theorem Kept.refused {commands : Ring (GraphCommand σ)}
    (hlist : commands.toList = h.graph.commands.toList)
    (hlimit : commands.limit = h.graph.commands.limit)
    (hphase : h.phase = .idle ∨ ∃ strike, h.phase = .sending strike) :
    Kept mark { h with graph := { h.graph with commands := commands }, phase := .idle } := by
  have hf := hk.sound.follows_refused mark hlist hlimit
  have hbefore : h.settled = true ∧ h.removing = false := by
    unfold settled removing
    rcases hphase with heq | ⟨strike, heq⟩
    · rw [heq]
      exact ⟨rfl, rfl⟩
    · rw [heq]
      exact ⟨rfl, rfl⟩
  obtain ⟨hsettled, hremoving⟩ := hbefore
  obtain ⟨hlisted, hnext⟩ := listed_of_settled hsettled
  exact hk.moved hf.sound hf.held hf.expected hlisted.symm hnext.symm rfl rfl fun _ => hremoving

/-- The connections are struck off. -/
theorem Kept.struck {strike : Strike} (hphase : h.phase = .striking strike) :
    Kept mark { h with graph := strike.apply h.graph, phase := .collecting } := by
  have hlisted : h.listed = (strike.apply h.graph).live := by rw [listed, hphase]
  have hnext : h.nextName = h.graph.nextId := by rw [nextName, hphase]
  cases strike with
  | one id => exact hk.hosted rfl rfl rfl hlisted.symm hnext.symm rfl rfl nofun
  | all => exact hk.hosted rfl rfl rfl hlisted.symm hnext.symm rfl rfl nofun

/-- A connection that was sent is put on the list. -/
theorem Kept.enlisted {id : ConnectionId} (hphase : h.phase = .enlisting id) :
    Kept mark { h with graph := h.graph.enlist id, phase := .idle } := by
  have hlisted : h.listed = h.graph.live ++ [id] := by rw [listed, hphase]
  have hnext : h.nextName = Graph.succId id := by rw [nextName, hphase]
  have hremoving : h.removing = false := by rw [removing, hphase]
  exact hk.hosted rfl rfl rfl hlisted.symm hnext.symm rfl rfl fun _ => hremoving

/-- What has come back is collected. The rest fits queued commands and slots. -/
theorem Kept.gathered (hphase : h.phase = .collecting) :
    Kept mark
      { h with
        graph := h.graph.reclaim.state
        phase := .idle
        collected := h.collected ++ h.graph.reclaim.result } := by
  obtain ⟨hlisted, hnext⟩ := listed_of_settled (h := h) (by rw [settled, hphase])
  obtain ⟨hresult, -, queue, hnil, hstate⟩ :=
    Graph.collected_reclaim fun connection hmem => hlisted ▸ hk.not_mem_listed hmem
  have hs := hk.sound
  have hheld : Graph.held { h.graph with returned := { h.graph.returned with queue := queue } }
      = h.graph.queued ++ Slots.connections h.graph.slots := by
    show h.graph.queued ++ (Slots.connections h.graph.slots ++ queue.toList) = _
    rw [hnil, List.append_nil]
  -- Fifteen commands with one connection each, and eight slots.
  have hfew : (h.graph.queued ++ Slots.connections h.graph.slots).length ≤ margin := by
    have hqueued := GraphCommand.length_flatMap_carried h.graph.commands.toList
    have hcommands := hs.commands_le
    have hslots := hs.room.here
    rw [Slots.ids, List.length_map] at hslots
    unfold Graph.queued margin
    rw [List.length_append]
    omega
  rw [hresult, hstate]
  refine ⟨⟨hs.slots, hs.commandLimit, hs.commands_le, hs.limit, hs.overruns, hs.room, ?_⟩, ?_, ?_,
    hk.numbered, ?_, ?_⟩
  · rw [hheld]
    have hmargin : margin = 23 := rfl
    have hring : returnRingCapacity - 1 = 31 := rfl
    omega
  · exact hlisted ▸ hk.expected
  · have hsplit : h.graph.held ++ h.collected
        = (h.graph.queued ++ Slots.connections h.graph.slots)
          ++ (h.graph.returned.toList ++ h.collected) := by
      unfold Graph.held
      simp only [List.append_assoc]
    have hkeys := hk.held
    rw [hsplit] at hkeys
    rw [hheld]
    exact ((List.perm_append_comm.append_left _).map _).trans hkeys
  · have hnumber := hk.next
    rw [hnext] at hnumber
    exact hnumber
  · intro _
    rw [hheld]
    exact Nat.le_trans hfew (Nat.le_add_right _ _)

/-- The beginning of a call. -/
theorem Kept.begin (hidle : h.phase = .idle) (call : GraphCall σ)
    (hfew : (h.begin call).connected.length < 2 ^ 32 - 1) : Kept mark (h.begin call) := by
  obtain ⟨graph, phase, connected, collected⟩ := h
  obtain rfl : phase = .idle := hidle
  cases call with
  | connect source =>
    simp only [GraphHistory.begin] at hfew ⊢
    by_cases hfull : maxConnections ≤ graph.live.length
    · rw [if_pos hfull]
      exact hk
    · rw [if_neg hfull] at hfew ⊢
      rcases graph.send_cases (.connect ⟨graph.nextId, source⟩) with
        ⟨commands, hsend, hlist, hlimit⟩ | ⟨commands, hsend, hlist, hlimit, hspace⟩
      · rw [hsend]
        exact hk.refused hlist hlimit (Or.inl rfl)
      · rw [hsend] at hfew ⊢
        rw [List.length_append, List.length_singleton] at hfew
        exact hk.connect rfl source hfew (Nat.lt_of_not_le hfull) hlist hlimit hspace
  | disconnect id =>
    simp only [GraphHistory.begin]
    by_cases hlive : graph.live.contains id = true
    · rw [if_pos hlive]
      exact hk.toSending rfl (.one id)
    · rw [if_neg hlive]
      exact hk
  | disconnectAll =>
    simp only [GraphHistory.begin]
    by_cases hempty : graph.live.isEmpty = true
    · rw [if_pos hempty]
      exact hk.toCollecting rfl
    · rw [if_neg hempty]
      exact hk.toSending rfl .all
  | muteAndDisconnect =>
    simp only [GraphHistory.begin]
    by_cases hempty : graph.live.isEmpty = true
    · rw [if_pos hempty]
      exact hk.toCollecting rfl
    · rw [if_neg hempty]
      exact (hk.setMuted true).toSending rfl .all
  | reclaim => exact hk.toCollecting rfl
  | unmute => exact hk.setMuted false

/-- The next step of a call. -/
theorem Kept.proceed : Kept mark h.proceed := by
  unfold GraphHistory.proceed
  -- Each phase has one lemma; a refused command is the only way out of a call before its end.
  cases hphase : h.phase with
  | idle => exact hk
  | sending strike =>
    dsimp only
    rcases h.graph.send_cases strike.command with
      ⟨commands, hsend, hlist, hlimit⟩ | ⟨commands, hsend, hlist, hlimit, hspace⟩
    · rw [hsend]
      exact hk.refused hlist hlimit (Or.inr ⟨strike, hphase⟩)
    · rw [hsend]
      exact hk.sent hphase hlist hlimit hspace
  | striking strike => exact hk.struck hphase
  | enlisting id => exact hk.enlisted hphase
  | collecting => exact hk.gathered hphase

end

/-- A step forgets no connection. -/
theorem connected_le_step (play : Playing σ ω) (h : GraphHistory σ) (s : GraphStep σ ω) :
    h.connected.length ≤ (h.step play s).connected.length := by
  cases s with
  | call call =>
    unfold step
    dsimp only
    split
    · cases call with
      | connect source =>
        simp only [GraphHistory.begin]
        split
        · exact Nat.le_refl _
        · split
          · exact Nat.le_refl _
          · rw [List.length_append]
            exact Nat.le_add_right _ _
      | disconnect id =>
        simp only [GraphHistory.begin]
        split
        · exact Nat.le_refl _
        · exact Nat.le_refl _
      | disconnectAll => exact Nat.le_refl _
      | muteAndDisconnect =>
        simp only [GraphHistory.begin]
        split
        · exact Nat.le_refl _
        · exact Nat.le_refl _
      | reclaim => exact Nat.le_refl _
      | unmute => exact Nat.le_refl _
    · exact Nat.le_refl _
  | proceed =>
    show _ ≤ h.proceed.connected.length
    unfold GraphHistory.proceed
    split
    · exact Nat.le_refl _
    · split
      · exact Nat.le_refl _
      · exact Nat.le_refl _
    · exact Nat.le_refl _
    · exact Nat.le_refl _
    · exact Nat.le_refl _
  | cycle world => exact Nat.le_refl _

theorem connected_le_run (play : Playing σ ω) (h : GraphHistory σ) (steps : List (GraphStep σ ω)) :
    h.connected.length ≤ (h.run play steps).connected.length := by
  induction steps generalizing h with
  | nil => exact Nat.le_refl _
  | cons s rest ih => exact Nat.le_trans (connected_le_step play h s) (ih (h.step play s))

section
variable {play : Playing σ ω} {mark : σ → τ}
  (hmark : ∀ source world pool, mark (play source world pool).2.1 = mark source)
include hmark

theorem Kept.step {h : GraphHistory σ} (hk : Kept mark h) (s : GraphStep σ ω)
    (hfew : (h.step play s).connected.length < 2 ^ 32 - 1) : Kept mark (h.step play s) := by
  cases s with
  | call call =>
    unfold GraphHistory.step at hfew ⊢
    dsimp only at hfew ⊢
    cases hphase : h.phase with
    | idle =>
      rw [hphase] at hfew
      exact hk.begin hphase call hfew
    | sending strike => exact hk
    | striking strike => exact hk
    | enlisting id => exact hk
    | collecting => exact hk
  | proceed => exact hk.proceed
  | cycle world => exact hk.cycle hmark world

theorem Kept.run {h : GraphHistory σ} (hk : Kept mark h) (steps : List (GraphStep σ ω))
    (hfew : (h.run play steps).connected.length < 2 ^ 32 - 1) : Kept mark (h.run play steps) := by
  induction steps generalizing h with
  | nil => exact hk
  | cons s rest ih =>
    -- Connections only become more, so their number is bounded all along the run.
    have hle := connected_le_run play (h.step play s) rest
    exact ih (hk.step hmark s (Nat.lt_of_le_of_lt hle hfew)) hfew

end

/-- The audio graph keeps every source. After any steps of the host and of the audio side,
in any order, and with whatever the sources do while they are played:

* The queued commands lead to the connections on the list.
* Each connection in a queued command finds a slot when its turn comes, and none is rejected
  when the host collects.
* The return ring has refused no source and does not refuse one in the next cycle.
* Every connection that was made is in one place, once: in a queued command, in a slot, in the
  return ring, or among those handed back. It has the source it was made with. -/
theorem sources_kept (play : Playing σ ω) (mark : σ → τ)
    (hmark : ∀ source world pool, mark (play source world pool).2.1 = mark source)
    (pool : Pool) (steps : List (GraphStep σ ω))
    (hfew : ((start pool).run play steps).connected.length < 2 ^ 32 - 1) :
    let h := (start pool).run play steps
    let g := h.graph
    (Slots.ids g.applyCommands.slots).Perm h.listed ∧
    (∀ n connection, g.commands.toList[n]? = some (.connect connection) →
      ∃ slots, Slots.place? connection (g.applyQueued n).slots = some slots) ∧
    (h.phase = .collecting → ∀ id, .sourceRejected id ∉ g.reclaim.notices) ∧
    (g.returned.overruns = 0 ∧ g.applyCommands.returned.overruns = 0) ∧
    ((g.queued ++ (Slots.connections g.slots ++ (g.returned.toList ++ h.collected))).map
      (Connection.key mark)).Perm (h.connected.map (Connection.key mark)) ∧
    (h.connected.map (·.id)).Nodup := by
  intro h g
  have hk : Kept mark h := (kept_start mark pool).run hmark steps hfew
  refine ⟨hk.sound.ids_applyCommands.trans hk.expected, ?_, ?_, ⟨hk.sound.overruns, ?_⟩, ?_,
    hk.nodup_connected⟩
  · -- After `n` commands the graph is as sound as before, and this one is next.
    intro n connection hnext
    obtain ⟨hfollows, hdrop⟩ := hk.sound.follows_applyQueued mark n
    obtain ⟨hlt, hcommand⟩ := List.getElem?_eq_some_iff.mp hnext
    rw [List.drop_eq_getElem_cons hlt, hcommand] at hdrop
    exact hfollows.sound.exists_place? hdrop
  · intro hphase id hrejected
    have hlisted : h.listed = g.live := by rw [listed, hphase]
    obtain ⟨-, hnotices, -⟩ :=
      Graph.collected_reclaim fun connection hmem => hlisted ▸ hk.not_mem_listed hmem
    rw [hnotices] at hrejected
    obtain ⟨connection, -, heq⟩ := List.mem_map.mp hrejected
    nomatch heq
  · exact (hk.sound.follows_applyCommands mark).1.sound.overruns
  · have hheld := hk.held
    unfold Graph.held at hheld
    rw [List.append_assoc, List.append_assoc] at hheld
    exact hheld

/-- A simple signal stays one while it is played. -/
theorem isSignal_play (source : Source) (world : Studio) (pool : Pool) :
    (Source.play source world pool).2.1.isSignal = source.isSignal := by
  cases source with
  | constant level =>
    simp only [Source.play]
    split
    · rfl
    · rfl
  | ramp level =>
    simp only [Source.play]
    split
    · next stale _ _ =>
      generalize stale.fill Source.rampFrame level = filled
      rfl
    · rfl
  | idle => rfl
  | hoarder => rfl
  | engine index =>
    simp only [Source.play]
    split
    · rfl
    · rfl
  | relay index =>
    simp only [Source.play]
    split
    · rfl
    · rfl

/-- A source is connected and removed, with a cycle after each command is sent. -/
theorem removed_source_kept :
    let steps : List (GraphStep Source Studio) :=
      [.call (.connect (.constant 5)), .cycle {}, .proceed, .call .disconnectAll, .proceed,
        .cycle {}, .proceed, .proceed]
    let h := (start (.create 2)).run Source.play steps
    h.connected.map (·.id) = [1] ∧ h.collected.map (·.id) = [1] ∧
      h.graph.returned.overruns = 0 ∧ (h.connected.map (·.id)).Nodup := by
  intro steps h
  have hconnected : h.connected.map (·.id) = [1] := rfl
  have hcollected : h.collected.map (·.id) = [1] := rfl
  have hfew : h.connected.length < 2 ^ 32 - 1 := by
    rw [← List.length_map (f := Connection.id), hconnected]
    decide
  obtain ⟨-, -, -, ⟨hoverruns, -⟩, -, hnodup⟩ :=
    sources_kept Source.play Source.isSignal isSignal_play (.create 2) steps hfew
  exact ⟨hconnected, hcollected, hoverruns, hnodup⟩

end GraphHistory

end Chiptune
