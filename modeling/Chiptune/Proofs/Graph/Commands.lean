import Chiptune.Proofs.Graph.Aside

/-!
# `Chiptune.Proofs.Graph.Commands`: what queued commands do to a graph

`GraphCommand.effect` is what a command means for the names of the connections. A graph is
`Sound` if no queued command can find the slots full and if everything it holds, in queue,
slots and return ring together, fits the return ring.

In a sound graph a connection always finds a slot (`Slots.exists_place?`) and a source always
finds room in the return ring (`Graph.foldl_giveBack`). So carrying out commands moves
connections from the queue to the slots and from the slots to the return ring, and loses none.
`Graph.Follows` says this of two graphs, `follows_applyQueued` of any number of commands and
`follows_nextBlock` of a whole cycle.
-/

set_option autoImplicit false

namespace Chiptune

/-! ### Slots -/

namespace Slots

variable {σ : Type}

/-- Names of the connections, in slot order. -/
def ids (slots : Slots σ) : List ConnectionId := (connections slots).map (·.id)

/-- A connection that is placed is added to the others. -/
theorem place?_perm {connection : Connection σ} {slots slots' : Slots σ}
    (h : place? connection slots = some slots') :
    slots'.length = slots.length ∧
      (connections slots').Perm (connection :: connections slots) := by
  induction slots generalizing slots' with
  | nil => nomatch h
  | cons slot rest ih =>
    cases slot with
    | none =>
      obtain rfl := Option.some.inj h
      exact ⟨rfl, List.Perm.refl _⟩
    | some other =>
      obtain ⟨tail, htail, rfl⟩ := Option.map_eq_some_iff.mp h
      obtain ⟨hlength, hperm⟩ := ih htail
      -- The slot is taken, so the connection goes behind the one that is there.
      refine ⟨congrArg (· + 1) hlength, ?_⟩
      exact (hperm.cons other).trans (List.Perm.swap connection other _)

/-- A connection finds a slot unless all are taken. -/
theorem exists_place? (connection : Connection σ) {slots : Slots σ}
    (h : (connections slots).length < slots.length) :
    ∃ slots', place? connection slots = some slots' := by
  induction slots with
  | nil => exact absurd h (Nat.lt_irrefl 0)
  | cons slot rest ih =>
    cases slot with
    | none => exact ⟨_, rfl⟩
    | some other =>
      obtain ⟨tail, htail⟩ := ih (Nat.lt_of_succ_lt_succ h)
      exact ⟨some other :: tail, by rw [place?, htail]; rfl⟩

/-- What is taken out and what is left are what there was. -/
theorem takeOut_perm (id : ConnectionId) (slots : Slots σ) :
    (takeOut id slots).2.length = slots.length ∧
      ((takeOut id slots).1.toList ++ connections (takeOut id slots).2).Perm
        (connections slots) := by
  induction slots with
  | nil => exact ⟨rfl, List.Perm.refl _⟩
  | cons slot rest ih =>
    obtain ⟨hlength, hperm⟩ := ih
    cases slot with
    | none => exact ⟨congrArg (· + 1) hlength, hperm⟩
    | some other =>
      by_cases hid : other.id = id
      · rw [takeOut, if_pos hid]
        exact ⟨rfl, List.Perm.refl _⟩
      · rw [takeOut, if_neg hid]
        refine ⟨congrArg (· + 1) hlength, ?_⟩
        exact List.perm_middle.trans (hperm.cons other)

theorem ids_takeOut (id : ConnectionId) (slots : Slots σ) :
    ids (takeOut id slots).2 = (ids slots).erase id := by
  induction slots with
  | nil => rfl
  | cons slot rest ih =>
    cases slot with
    | none => exact ih
    | some other =>
      have hids : ids (some other :: rest) = other.id :: ids rest := rfl
      by_cases hid : other.id = id
      · rw [takeOut, if_pos hid, hids, hid, List.erase_cons_head]
        rfl
      · rw [takeOut, if_neg hid, hids, List.erase_cons_tail (by simpa using hid), ← ih]
        rfl

/-- If nothing is taken out then nothing changes. -/
theorem takeOut_none {id : ConnectionId} {slots : Slots σ} (h : (takeOut id slots).1 = none) :
    (takeOut id slots).2 = slots := by
  induction slots with
  | nil => rfl
  | cons slot rest ih =>
    cases slot with
    | none => exact congrArg (none :: ·) (ih h)
    | some other =>
      by_cases hid : other.id = id
      · rw [takeOut, if_pos hid] at h
        nomatch h
      · rw [takeOut, if_neg hid] at h ⊢
        exact congrArg (some other :: ·) (ih h)

@[simp] theorem length_emptied (slots : Slots σ) : (emptied slots).length = slots.length :=
  List.length_map _

@[simp] theorem connections_emptied (slots : Slots σ) : connections (emptied slots) = [] := by
  induction slots with
  | nil => rfl
  | cons slot rest ih => exact ih

end Slots

/-! ### Commands -/

namespace GraphCommand

variable {σ : Type}

/-- What a command means for the names of the connections. -/
def effect (ids : List ConnectionId) : GraphCommand σ → List ConnectionId
  | connect connection => ids ++ [connection.id]
  | disconnect id => ids.erase id
  | disconnectAll => []

/-- The connection that a command carries. -/
def carried : GraphCommand σ → List (Connection σ)
  | connect connection => [connection]
  | disconnect _ => []
  | disconnectAll => []

/-- The order of the names does not matter. -/
theorem effect_perm {ids ids' : List ConnectionId} (h : ids.Perm ids')
    (command : GraphCommand σ) : (effect ids command).Perm (effect ids' command) := by
  cases command with
  | connect connection => exact h.append_right _
  | disconnect id => exact h.erase id
  | disconnectAll => exact List.Perm.refl _

theorem foldl_effect_perm {ids ids' : List ConnectionId} (h : ids.Perm ids')
    (commands : List (GraphCommand σ)) :
    (commands.foldl effect ids).Perm (commands.foldl effect ids') := by
  induction commands generalizing ids ids' with
  | nil => exact h
  | cons command rest ih => exact ih (effect_perm h command)

/-- A name that is left was there or came with a command. -/
theorem mem_foldl_effect {ids : List ConnectionId} {commands : List (GraphCommand σ)}
    {id : ConnectionId} (h : id ∈ commands.foldl effect ids) :
    id ∈ ids ∨ ∃ connection ∈ commands.flatMap carried, connection.id = id := by
  induction commands generalizing ids with
  | nil => exact Or.inl h
  | cons command rest ih =>
    rw [List.flatMap_cons]
    rcases ih h with heffect | ⟨connection, hmem, hid⟩
    · cases command with
      | connect connection =>
        rcases List.mem_append.mp heffect with hold | hnew
        · exact Or.inl hold
        · exact Or.inr ⟨connection, List.mem_cons_self, (List.mem_singleton.mp hnew).symm⟩
      | disconnect gone => exact Or.inl (List.mem_of_mem_erase heffect)
      | disconnectAll => nomatch heffect
    · exact Or.inr ⟨connection, List.mem_append_right _ hmem, hid⟩

/-- Names stay apart if those that come with commands are new. -/
theorem nodup_foldl_effect {ids : List ConnectionId} {commands : List (GraphCommand σ)}
    (h : (ids ++ (commands.flatMap carried).map (·.id)).Nodup) :
    (commands.foldl effect ids).Nodup := by
  induction commands generalizing ids with
  | nil => exact (List.append_nil ids) ▸ h
  | cons command rest ih =>
    refine ih ?_
    cases command with
    | connect connection =>
      rw [effect, List.append_assoc]
      exact h
    | disconnect id => exact h.sublist (List.erase_sublist.append_right _)
    | disconnectAll => exact h.sublist (List.sublist_append_right _ _)

/-- A command carries one connection at most. -/
theorem length_flatMap_carried (commands : List (GraphCommand σ)) :
    (commands.flatMap carried).length ≤ commands.length := by
  induction commands with
  | nil => exact Nat.le_refl _
  | cons command rest ih =>
    rw [List.flatMap_cons, List.length_append, List.length_cons]
    cases command with
    | connect connection => show 1 + _ ≤ _; omega
    | disconnect id => show 0 + _ ≤ _; omega
    | disconnectAll => show 0 + _ ≤ _; omega

/-- None of the commands ever leaves more names than there are slots. -/
def Room (ids : List ConnectionId) : List (GraphCommand σ) → Prop
  | [] => ids.length ≤ maxConnections
  | command :: rest => ids.length ≤ maxConnections ∧ Room (effect ids command) rest

theorem Room.here {ids : List ConnectionId} {commands : List (GraphCommand σ)}
    (h : Room ids commands) : ids.length ≤ maxConnections := by
  cases commands with
  | nil => exact h
  | cons command rest => exact h.1

theorem Room.last {ids : List ConnectionId} {commands : List (GraphCommand σ)}
    (h : Room ids commands) : (commands.foldl effect ids).length ≤ maxConnections := by
  induction commands generalizing ids with
  | nil => exact h
  | cons command rest ih => exact ih h.2

theorem Room.perm {ids ids' : List ConnectionId} {commands : List (GraphCommand σ)}
    (h : Room ids commands) (hp : ids.Perm ids') : Room ids' commands := by
  induction commands generalizing ids ids' with
  | nil => exact Nat.le_trans (Nat.le_of_eq hp.length_eq.symm) h
  | cons command rest ih =>
    exact ⟨Nat.le_trans (Nat.le_of_eq hp.length_eq.symm) h.1, ih h.2 (effect_perm hp command)⟩

/-- A further command has room if there is room for what it leaves. -/
theorem Room.append {ids : List ConnectionId} {commands : List (GraphCommand σ)}
    (h : Room ids commands) {command : GraphCommand σ}
    (hroom : (effect (commands.foldl effect ids) command).length ≤ maxConnections) :
    Room ids (commands ++ [command]) := by
  induction commands generalizing ids with
  | nil => exact ⟨h, hroom⟩
  | cons first rest ih => exact ⟨h.1, ih h.2 hroom⟩

end GraphCommand

/-! ### Graphs -/

/-- What tells a connection apart: its name and a mark of its source. -/
def Connection.key {σ τ : Type} (mark : σ → τ) (connection : Connection σ) :
    ConnectionId × τ := (connection.id, mark connection.source)

namespace Graph

variable {σ τ : Type}

/-- Connections in queued commands. -/
def queued (g : Graph σ) : List (Connection σ) := g.commands.toList.flatMap GraphCommand.carried

/-- Connections in the graph: in queued commands, in slots, and on their way back. -/
def held (g : Graph σ) : List (Connection σ) :=
  g.queued ++ (Slots.connections g.slots ++ g.returned.toList)

/-- Names of the connections in slots once the queued commands are carried out. -/
def expected (g : Graph σ) : List ConnectionId :=
  g.commands.toList.foldl GraphCommand.effect (Slots.ids g.slots)

/-- Neither slots nor return ring can run full by carrying out the queued commands, and the
return ring has not. -/
structure Sound (g : Graph σ) : Prop where
  slots : g.slots.length = maxConnections
  commandLimit : g.commands.limit = commandRingCapacity - 1
  commands_le : g.commands.toList.length ≤ commandRingCapacity - 1
  limit : g.returned.limit = returnRingCapacity - 1
  overruns : g.returned.overruns = 0
  room : GraphCommand.Room (Slots.ids g.slots) g.commands.toList
  held_le : g.held.length ≤ returnRingCapacity - 1

/-- What carrying out commands keeps: the connections in the graph and those to be expected,
with the host's side unchanged. -/
structure Follows (mark : σ → τ) (g g' : Graph σ) : Prop where
  sound : g'.Sound
  held : (g'.held.map (Connection.key mark)).Perm (g.held.map (Connection.key mark))
  expected : g'.expected.Perm g.expected
  live : g'.live = g.live
  nextId : g'.nextId = g.nextId

theorem Follows.refl (mark : σ → τ) {g : Graph σ} (h : g.Sound) : Follows mark g g :=
  ⟨h, List.Perm.refl _, List.Perm.refl _, rfl, rfl⟩

theorem Follows.trans {mark : σ → τ} {g g' g'' : Graph σ} (h : Follows mark g g')
    (h' : Follows mark g' g'') : Follows mark g g'' :=
  ⟨h'.sound, h'.held.trans h.held, h'.expected.trans h.expected, h'.live.trans h.live,
    h'.nextId.trans h.nextId⟩

/-- Disconnecting sends back what is taken out, if anything is. -/
theorem applyCommand_disconnect (g : Graph σ) (id : ConnectionId) :
    g.applyCommand (.disconnect id)
      = (Slots.takeOut id g.slots).1.toList.foldl giveBack
          { g with slots := (Slots.takeOut id g.slots).2 } := by
  unfold applyCommand
  cases h : (Slots.takeOut id g.slots).1 with
  | none =>
    dsimp only
    rw [h, Slots.takeOut_none h]
    rfl
  | some connection =>
    dsimp only
    rw [h]
    rfl

theorem slots_foldl_giveBack (connections : List (Connection σ)) (g : Graph σ) :
    (connections.foldl giveBack g).slots = g.slots := by
  induction connections generalizing g with
  | nil => rfl
  | cons connection rest ih => exact ih (g.giveBack connection)

theorem length_slots_applyCommand (g : Graph σ) (command : GraphCommand σ) :
    (g.applyCommand command).slots.length = g.slots.length := by
  cases command with
  | connect connection =>
    simp only [applyCommand]
    cases hplace : Slots.place? connection g.slots with
    | some slots => exact (Slots.place?_perm hplace).1
    | none => rfl
  | disconnect id =>
    rw [applyCommand_disconnect, slots_foldl_giveBack]
    exact (Slots.takeOut_perm id g.slots).1
  | disconnectAll =>
    unfold applyCommand
    rw [slots_foldl_giveBack]
    exact Slots.length_emptied g.slots

/-- Commands fill slots and empty them, and there are as many as before. -/
theorem length_slots_applyCommands (g : Graph σ) :
    g.applyCommands.slots.length = g.slots.length := by
  unfold applyCommands
  generalize g.commands.available = fuel
  induction fuel generalizing g with
  | zero => rfl
  | succ fuel ih =>
    unfold applyQueued
    cases g.commands.queue.pop? with
    | none => rfl
    | some popped =>
      obtain ⟨command, queue⟩ := popped
      dsimp only
      rw [ih, length_slots_applyCommand]

/-- Sources that fit the return ring are sent back one behind the other, without an
overrun. -/
theorem foldl_giveBack (connections : List (Connection σ)) (g : Graph σ)
    (h : g.returned.toList.length + connections.length ≤ g.returned.limit) :
    ∃ queue, connections.foldl giveBack g
        = { g with returned := { g.returned with queue := queue } } ∧
      queue.toList = g.returned.toList ++ connections := by
  induction connections generalizing g with
  | nil => exact ⟨g.returned.queue, rfl, (List.append_nil _).symm⟩
  | cons connection rest ih =>
    rw [List.length_cons] at h
    have hspace : g.returned.isFull = false := by
      rw [Ring.isFull_eq_false_iff]
      omega
    -- With space the ring takes the source, and the rest has the room that is left.
    have hstep : g.giveBack connection
        = { g with
            returned := { g.returned with queue := g.returned.queue.push connection } } := by
      rw [giveBack, Ring.push_of_space _ _ hspace]
    have hpushed := g.returned.queue.toList_push connection
    have hlength : (g.returned.queue.push connection).toList.length
        = g.returned.toList.length + 1 := by
      rw [hpushed, List.length_append]
      rfl
    obtain ⟨queue, heq, hqueue⟩ := ih
      { g with returned := { g.returned with queue := g.returned.queue.push connection } }
      (by
        show (g.returned.queue.push connection).toList.length + rest.length ≤ g.returned.limit
        omega)
    refine ⟨queue, ?_, ?_⟩
    · rw [List.foldl_cons, hstep, heq]
    · rw [hqueue]
      show (g.returned.queue.push connection).toList ++ rest = _
      rw [hpushed, List.append_assoc]
      rfl

section
variable {g g' : Graph σ} {command : GraphCommand σ} {rest : List (GraphCommand σ)}

open scoped List in
/-- A command that moves `out` to the return ring, and what it carries to the slots, keeps the
graph sound. -/
theorem Sound.follows_of_moved (mark : σ → τ) (h : g.Sound)
    (hcommands : g.commands.toList = command :: rest) (hrest : g'.commands.toList = rest)
    (hsame : g'.commands.limit = g.commands.limit) (hslots : g'.slots.length = g.slots.length)
    (hids : (Slots.ids g'.slots).Perm (GraphCommand.effect (Slots.ids g.slots) command))
    (out : List (Connection σ))
    (hmoved : (out ++ Slots.connections g'.slots).Perm
      (command.carried ++ Slots.connections g.slots))
    (hlimit : g'.returned.limit = g.returned.limit)
    (hoverruns : g'.returned.overruns = g.returned.overruns)
    (hreturned : g'.returned.toList = g.returned.toList ++ out)
    (hlive : g'.live = g.live) (hnext : g'.nextId = g.nextId) : Follows mark g g' := by
  have hroom := h.room
  rw [hcommands] at hroom
  have hheld : g'.held.Perm g.held := by
    have hqueued : g.queued = command.carried ++ g'.queued := by
      rw [queued, hcommands, queued, hrest, List.flatMap_cons]
    -- The command leaves the queue with what it carries, and `out` leaves the slots.
    unfold held
    rw [hreturned, hqueued]
    calc g'.queued ++ (Slots.connections g'.slots ++ (g.returned.toList ++ out))
        = g'.queued ++ ((Slots.connections g'.slots ++ g.returned.toList) ++ out) := by
          rw [List.append_assoc (Slots.connections g'.slots)]
      _ ~ g'.queued ++ (out ++ (Slots.connections g'.slots ++ g.returned.toList)) :=
          List.perm_append_comm.append_left _
      _ = g'.queued ++ ((out ++ Slots.connections g'.slots) ++ g.returned.toList) := by
          rw [List.append_assoc out]
      _ ~ g'.queued ++ ((command.carried ++ Slots.connections g.slots)
            ++ g.returned.toList) := (hmoved.append_right _).append_left _
      _ = (g'.queued ++ command.carried) ++ (Slots.connections g.slots ++ g.returned.toList) := by
          rw [List.append_assoc, List.append_assoc]
      _ ~ (command.carried ++ g'.queued)
            ++ (Slots.connections g.slots ++ g.returned.toList) :=
          List.perm_append_comm.append_right _
  refine ⟨⟨?_, ?_, ?_, ?_, ?_, ?_, ?_⟩, hheld.map _, ?_, hlive, hnext⟩
  · exact hslots.trans h.slots
  · exact hsame.trans h.commandLimit
  · have hle := h.commands_le
    rw [hcommands, List.length_cons] at hle
    rw [hrest]
    omega
  · exact hlimit.trans h.limit
  · exact hoverruns.trans h.overruns
  · rw [hrest]
    exact hroom.2.perm hids.symm
  · rw [hheld.length_eq]
    exact h.held_le
  · rw [expected, expected, hrest, hcommands]
    exact GraphCommand.foldl_effect_perm hids rest

/-- A connection that is carried out next finds a slot. -/
theorem Sound.exists_place? (h : g.Sound) {connection : Connection σ}
    (hcommands : g.commands.toList = .connect connection :: rest) :
    ∃ slots, Slots.place? connection g.slots = some slots := by
  have hroom := h.room
  rw [hcommands] at hroom
  have hleft : (Slots.ids g.slots ++ [connection.id]).length ≤ maxConnections := hroom.2.here
  -- The name is counted among those the command leaves, so one slot is free before.
  refine Slots.exists_place? connection ?_
  rw [List.length_append, Slots.ids, List.length_map] at hleft
  rw [h.slots]
  exact hleft

/-- A connection is placed if there is a slot for it. -/
theorem applyCommand_connect {connection : Connection σ} {slots : Slots σ}
    (h : Slots.place? connection g.slots = some slots) :
    g.applyCommand (.connect connection) = { g with slots := slots } := by
  simp only [applyCommand, h]

/-- Sending back what a command takes out of the slots. -/
theorem Sound.follows_release (mark : σ → τ) (h : g.Sound)
    (hcommands : g.commands.toList = command :: rest) {queue : Queue (GraphCommand σ)}
    (hqueue : queue.toList = rest) (hcarried : command.carried = []) {slots : Slots σ}
    (hslots : slots.length = g.slots.length)
    (hids : (Slots.ids slots).Perm (GraphCommand.effect (Slots.ids g.slots) command))
    {out : List (Connection σ)}
    (hmoved : (out ++ Slots.connections slots).Perm (Slots.connections g.slots)) :
    Follows mark g (out.foldl giveBack { g.dequeued queue with slots := slots }) ∧
      (out.foldl giveBack { g.dequeued queue with slots := slots }).commands.toList = rest := by
  -- What comes back is in the graph already, so it fits the return ring.
  have hfits : g.returned.toList.length + out.length ≤ g.returned.limit := by
    have hheld := h.held_le
    have hlength := hmoved.length_eq
    unfold held at hheld
    rw [List.length_append, List.length_append] at hheld
    rw [List.length_append] at hlength
    rw [h.limit]
    omega
  obtain ⟨returned, hstate, hreturned⟩ :=
    foldl_giveBack out { g.dequeued queue with slots := slots } hfits
  rw [hstate]
  refine ⟨h.follows_of_moved mark hcommands hqueue rfl hslots hids out ?_ rfl rfl hreturned rfl rfl,
    hqueue⟩
  -- Such a command carries nothing, so what moves was in the slots.
  rw [hcarried]
  exact hmoved

/-- Carrying out the oldest command. -/
theorem Sound.follows_applyCommand (mark : σ → τ) (h : g.Sound)
    (hcommands : g.commands.toList = command :: rest) {queue : Queue (GraphCommand σ)}
    (hqueue : queue.toList = rest) :
    Follows mark g ((g.dequeued queue).applyCommand command) ∧
      ((g.dequeued queue).applyCommand command).commands.toList = rest := by
  cases command with
  | connect connection =>
    obtain ⟨slots, hplace⟩ := h.exists_place? hcommands
    obtain ⟨hlength, hperm⟩ := Slots.place?_perm hplace
    rw [applyCommand_connect (g := g.dequeued queue) hplace]
    refine ⟨h.follows_of_moved mark hcommands hqueue rfl hlength ?_ [] hperm rfl rfl
      (List.append_nil _).symm rfl rfl, hqueue⟩
    exact (hperm.map _).trans (List.perm_append_singleton _ _).symm
  | disconnect id =>
    obtain ⟨hlength, hperm⟩ := Slots.takeOut_perm id g.slots
    rw [applyCommand_disconnect]
    refine h.follows_release mark hcommands hqueue rfl hlength ?_ hperm
    show (Slots.ids (Slots.takeOut id g.slots).2).Perm ((Slots.ids g.slots).erase id)
    rw [Slots.ids_takeOut]
  | disconnectAll =>
    refine h.follows_release mark hcommands hqueue rfl (Slots.length_emptied _) ?_ ?_
    · show (Slots.ids (Slots.emptied g.slots)).Perm []
      rw [Slots.ids, Slots.connections_emptied]
      exact List.Perm.refl _
    · rw [Slots.connections_emptied, List.append_nil]
      exact List.Perm.refl _

end

/-- Carrying out the oldest `n` commands. -/
theorem Sound.follows_applyQueued (mark : σ → τ) (n : Nat) {g : Graph σ} (h : g.Sound) :
    Follows mark g (g.applyQueued n) ∧
      (g.applyQueued n).commands.toList = g.commands.toList.drop n := by
  induction n generalizing g with
  | zero => exact ⟨.refl mark h, rfl⟩
  | succ n ih =>
    unfold applyQueued
    cases hpop : g.commands.queue.pop? with
    | none =>
      have hnil : g.commands.toList = [] := g.commands.queue.pop?_eq_none_iff.mp hpop
      refine ⟨.refl mark h, ?_⟩
      rw [hnil]
      rfl
    | some popped =>
      obtain ⟨command, queue⟩ := popped
      have hcommands : g.commands.toList = command :: queue.toList := Queue.pop?_eq_some hpop
      obtain ⟨hfirst, hrest⟩ := h.follows_applyCommand mark hcommands (Eq.refl queue.toList)
      obtain ⟨hnext, hdrop⟩ := ih hfirst.sound
      refine ⟨hfirst.trans hnext, ?_⟩
      rw [hcommands, List.drop_succ_cons, ← hrest]
      exact hdrop

/-- A cycle leaves no command behind. -/
theorem Sound.follows_applyCommands (mark : σ → τ) {g : Graph σ} (h : g.Sound) :
    Follows mark g g.applyCommands ∧ g.applyCommands.commands.toList = [] := by
  obtain ⟨hfollows, hdrop⟩ := h.follows_applyQueued mark g.commands.available
  have hall : g.commands.toList.drop g.commands.available = [] := by
    rw [Ring.available_eq_length, List.drop_length]
  exact ⟨hfollows, hdrop.trans hall⟩

/-- Once they are carried out, the connections in slots are those to be expected. -/
theorem Sound.ids_applyCommands {g : Graph σ} (h : g.Sound) :
    (Slots.ids g.applyCommands.slots).Perm g.expected := by
  obtain ⟨hfollows, hnil⟩ := h.follows_applyCommands id
  have hexpected := hfollows.expected
  rw [expected, hnil] at hexpected
  exact hexpected

/-! ### Cycles -/

section
variable {ω : Type} {mark : σ → τ} {play : Playing σ ω}
  (hmark : ∀ source world pool, mark (play source world pool).2.1 = mark source)

include hmark in
/-- Playing changes the sources, but not which they are. -/
theorem keys_playSlots (slots : Slots σ) (m : Mixing ω) :
    (playSlots play slots m).1.length = slots.length ∧
      (Slots.connections (playSlots play slots m).1).map (Connection.key mark)
        = (Slots.connections slots).map (Connection.key mark) := by
  induction slots generalizing m with
  | nil => exact ⟨rfl, rfl⟩
  | cons slot rest ih =>
    cases slot with
    | none =>
      obtain ⟨hlength, hkeys⟩ := ih m
      exact ⟨congrArg (· + 1) hlength, hkeys⟩
    | some connection =>
      generalize hplayed : play connection.source m.world m.pool = played
      obtain ⟨delivered, source, world, pool⟩ := played
      -- A source may change while it is played, but the mark tells it apart all the same.
      have hsource : mark source = mark connection.source := by
        rw [← hmark connection.source m.world m.pool, hplayed]
      obtain ⟨hlength, hkeys⟩ :=
        ih ({ m with world := world, pool := pool }.collect delivered)
      simp only [playSlots, hplayed]
      refine ⟨congrArg (· + 1) hlength, ?_⟩
      show (connection.id, mark source) :: _ = (connection.id, mark connection.source) :: _
      rw [hsource]
      exact congrArg (_ :: ·) hkeys

include hmark in
/-- A cycle moves connections but loses none. -/
theorem Sound.follows_nextBlock {g : Graph σ} (h : g.Sound) (world : ω) :
    Follows mark g (g.nextBlock play world).2.1 := by
  obtain ⟨hfollows, hnil⟩ := h.follows_applyCommands mark
  refine hfollows.trans ?_
  -- Once the commands are carried out, a cycle only plays what is in the slots.
  obtain ⟨hlength, hkeys⟩ :=
    keys_playSlots hmark g.applyCommands.slots { pool := g.applyCommands.pool, world := world }
  have hs := hfollows.sound
  have hslots : (g.nextBlock play world).2.1.slots
      = (playSlots play g.applyCommands.slots
          { pool := g.applyCommands.pool, world := world }).1 := rfl
  have hcommands : (g.nextBlock play world).2.1.commands = g.applyCommands.commands := rfl
  have hreturned : (g.nextBlock play world).2.1.returned = g.applyCommands.returned := rfl
  have hids : Slots.ids (g.nextBlock play world).2.1.slots = Slots.ids g.applyCommands.slots := by
    have hnames := congrArg (List.map Prod.fst) hkeys
    rw [List.map_map, List.map_map] at hnames
    rw [hslots]
    exact hnames
  have hheld : (g.nextBlock play world).2.1.held.map (Connection.key mark)
      = g.applyCommands.held.map (Connection.key mark) := by
    unfold held queued
    rw [hcommands, hreturned, hslots, List.map_append, List.map_append, hkeys,
      ← List.map_append, ← List.map_append]
  refine ⟨⟨?_, hs.commandLimit, hs.commands_le, ?_, ?_, ?_, ?_⟩, ?_, ?_, rfl, rfl⟩
  · rw [hslots]
    exact hlength.trans hs.slots
  · exact hs.limit
  · exact hs.overruns
  · rw [hids]
    exact hs.room
  · have hequal := congrArg List.length hheld
    rw [List.length_map, List.length_map] at hequal
    rw [hequal]
    exact hs.held_le
  · rw [hheld]
  · rw [expected, hids]
    exact List.Perm.refl _

end

end Graph

end Chiptune
