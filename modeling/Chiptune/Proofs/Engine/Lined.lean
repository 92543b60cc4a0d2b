import Chiptune.Proofs.Engine.Ticks

/-!
# `Chiptune.Proofs.Engine.Lined`: what is still to be done, in order

Ticks and commands reach the audio side on two ways, a counter and a queue. `Lined p queue rest`
joins them again: `rest`, in the order of issue, is what is still to be done. Its ticks are those
that wait in `p` and its commands are those in `queue`.

Applying due commands takes commands from the front of `rest` (`Lined.due`). If no more command
is due, the next in `rest` is the tick that `p` releases next (`Lined.release`). So the frames
of a block take `rest` from its front, and leave no command that does not wait for a tick
(`Engine.lined_afterFrames`).
-/

set_option autoImplicit false

namespace Chiptune

namespace Issue

/-- One can be issued before the other. A command comes after the ticks below its stamp and
before the others. -/
def Before : Issue → Issue → Prop
  | tick n, tick m => n < m
  | tick n, command stamp _ => n < stamp
  | command stamp _, tick n => stamp ≤ n
  | command stamp _, command later _ => stamp ≤ later

/-- Whether it is one of the ticks with the numbers given. -/
def isAmong (lost : List Nat) : Issue → Bool
  | tick n => lost.contains n
  | command _ _ => false

theorem isAmong_append (lost more : List Nat) (issue : Issue) :
    issue.isAmong (lost ++ more) = (issue.isAmong lost || issue.isAmong more) := by
  cases issue with
  | tick n => exact List.contains_append ..
  | command stamp asked => rfl

/-- Ticks can be left out one list after the other. -/
theorem filter_append (lost more : List Nat) (rest : List Issue) :
    (rest.filter fun issue => !issue.isAmong (lost ++ more))
      = (rest.filter fun issue => !issue.isAmong lost).filter
          fun issue => !issue.isAmong more := by
  rw [List.filter_filter]
  refine congrArg (rest.filter ·) (funext fun issue => ?_)
  rw [isAmong_append, Bool.not_or, Bool.and_comm]

/-- Leaving out ticks leaves out their numbers. -/
theorem ticks_filter (lost : List Nat) (rest : List Issue) :
    (rest.filter fun issue => !issue.isAmong lost).filterMap tick?
      = (rest.filterMap tick?).filter fun n => !lost.contains n := by
  rw [List.filterMap_filter, List.filter_filterMap]
  refine congrArg (rest.filterMap ·) (funext fun issue => ?_)
  cases issue with
  | tick n =>
    show (if (!lost.contains n) = true then some n else none) = (some n).filter _
    rw [Option.filter_some]
  | command stamp asked => rfl

/-- Leaving out ticks leaves the commands. -/
theorem queued_filter (lost : List Nat) (rest : List Issue) :
    (rest.filter fun issue => !issue.isAmong lost).filterMap queued?
      = rest.filterMap queued? := by
  rw [List.filterMap_filter]
  refine congrArg (rest.filterMap ·) (funext fun issue => ?_)
  cases issue with
  | tick n => exact ite_self _
  | command stamp asked => rfl

end Issue

/-- A range without its beginning. -/
theorem range'_filter_not_contains (start dropped kept : Nat) :
    ((List.range' start (dropped + kept)).filter fun n =>
        !(List.range' start dropped).contains n)
      = List.range' (start + dropped) kept := by
  have hsplit : List.range' start (dropped + kept)
      = List.range' start dropped ++ List.range' (start + dropped) kept := by
    rw [← List.range'_append, Nat.one_mul]
  have hdropped : (List.range' start dropped).filter (fun n =>
      !(List.range' start dropped).contains n) = [] := by
    rw [List.filter_eq_nil_iff]
    intro n hn
    rw [List.contains_iff_mem.mpr hn]
    exact Bool.false_ne_true
  have hkept : (List.range' (start + dropped) kept).filter (fun n =>
      !(List.range' start dropped).contains n) = List.range' (start + dropped) kept := by
    rw [List.filter_eq_self]
    intro n hn
    rw [Bool.not_eq_true', ← Bool.not_eq_true, List.contains_iff_mem, List.mem_range'_1]
    rw [List.mem_range'_1] at hn
    omega
  rw [hsplit, List.filter_append, hdropped, hkept]
  rfl

/-- `rest` is what is still to be done, in the order it was issued: its ticks are those that
wait in the pacer, its commands are those in the queue. Every stamp is near enough to the ticks
done to be compared with them. -/
structure Lined (p : Pacer) (queue : List QueuedCommand) (rest : List Issue) : Prop where
  ordered : rest.Pairwise Issue.Before
  ticks : rest.filterMap Issue.tick? = List.range' p.done p.pending
  queue : rest.filterMap Issue.queued? = queue
  near : ∀ stamp command, .command stamp command ∈ rest →
    stamp ≤ p.done + p.pending ∧ p.done < stamp + 2 ^ 31

/-- Every command still waits for a tick. -/
def Settled (p : Pacer) (rest : List Issue) : Prop :=
  ∀ stamp command, .command stamp command ∈ rest → p.done < stamp

/-- `now` is what is due of the queue, and `later` is what is left. -/
structure Due (p : Pacer) (queue : List QueuedCommand) (now later : List Issue) : Prop where
  ops : now.map Issue.op
    = (queue.takeWhile fun queued => p.hasReached queued.tick).map (·.command.op)
  lined : Lined p (queue.dropWhile fun queued => p.hasReached queued.tick) later
  settled : Settled p later

namespace Lined

variable {p : Pacer} {count : Nat} {queue : List QueuedCommand} {rest : List Issue}

/-- The queue holds the commands of `rest`. -/
theorem exists_of_mem (h : Lined p queue rest) {queued : QueuedCommand} (hq : queued ∈ queue) :
    ∃ stamp, queued.tick = UInt32.ofNat stamp ∧ .command stamp queued.command ∈ rest := by
  -- Only commands are queued, each under its own stamp.
  rw [← h.queue, List.mem_filterMap] at hq
  obtain ⟨issue, hmem, heq⟩ := hq
  cases issue with
  | tick n => nomatch heq
  | command stamp asked =>
    obtain rfl := Option.some.inj heq
    exact ⟨stamp, rfl, hmem⟩

theorem hasReached_iff (h : Lined p queue rest) (ht : p.Tracks count) {stamp : Nat}
    {command : Command} (hmem : .command stamp command ∈ rest) :
    p.hasReached (UInt32.ofNat stamp) = true ↔ stamp ≤ p.done := by
  obtain ⟨hahead, hbehind⟩ := h.near stamp command hmem
  exact ht.hasReached_iff (ht.total ▸ hahead) hbehind

/-- If every command waits for a tick, none is due. -/
theorem due_nil (h : Lined p queue rest) (ht : p.Tracks count) (hs : Settled p rest) :
    Due p queue [] rest := by
  have hwaits : ∀ queued ∈ queue, p.hasReached queued.tick = false := by
    intro queued hq
    obtain ⟨stamp, htick, hmem⟩ := h.exists_of_mem hq
    have hlt := hs stamp _ hmem
    rw [← Bool.not_eq_true, htick, h.hasReached_iff ht hmem]
    omega
  -- Nothing is taken and nothing dropped if already the first of the queue waits.
  cases queue with
  | nil => exact ⟨rfl, h, hs⟩
  | cons queued tail =>
    have hhead := hwaits queued List.mem_cons_self
    refine ⟨?_, ?_, hs⟩
    · rw [List.takeWhile_cons, hhead]
      rfl
    · rw [List.dropWhile_cons, hhead]
      exact h

/-- What follows a command is lined up behind it. -/
theorem tail_of_command {stamp : Nat} {command : Command}
    (h : Lined p queue (.command stamp command :: rest)) :
    Lined p (rest.filterMap Issue.queued?) rest where
  ordered := h.ordered.of_cons
  ticks := h.ticks
  queue := rfl
  near := fun s c hmem => h.near s c (List.mem_cons_of_mem _ hmem)

/-- The number of the first tick is that of the ticks done. -/
theorem head_tick {n : Nat} (h : Lined p queue (.tick n :: rest)) :
    n = p.done ∧ 0 < p.pending ∧
      rest.filterMap Issue.tick? = List.range' (p.done + 1) (p.pending - 1) := by
  have hticks : n :: rest.filterMap Issue.tick? = List.range' p.done p.pending := h.ticks
  cases hp : p.pending with
  | zero => rw [hp] at hticks; nomatch hticks
  | succ pending =>
    rw [hp, List.range'_succ] at hticks
    obtain ⟨hn, htail⟩ := List.cons.inj hticks
    exact ⟨hn, Nat.succ_pos _, htail⟩

/-- A command that is due goes ahead of what is due after it. -/
theorem due_cons {stamp : Nat} {command : Command} {now later : List Issue}
    (h : Lined p queue (.command stamp command :: rest))
    (hreached : p.hasReached (UInt32.ofNat stamp) = true)
    (hdue : Due p (rest.filterMap Issue.queued?) now later) :
    Due p queue (.command stamp command :: now) later := by
  have hqueue : queue
      = { tick := .ofNat stamp, command := command } :: rest.filterMap Issue.queued? :=
    h.queue.symm
  refine ⟨?_, ?_, hdue.settled⟩
  · rw [hqueue, List.takeWhile_cons, if_pos hreached, List.map_cons, List.map_cons, hdue.ops]
    rfl
  · rw [hqueue, List.dropWhile_cons, if_pos hreached]
    exact hdue.lined

/-- Due commands are the first of `rest`. Once they are applied, every command that is left
waits for a tick. -/
theorem due (h : Lined p queue rest) (ht : p.Tracks count) :
    ∃ now later, rest = now ++ later ∧ Due p queue now later := by
  -- By induction on what is still to be done: the queue shrinks with its commands.
  induction rest generalizing queue with
  | nil => exact ⟨[], [], rfl, h.due_nil ht (fun _ _ hmem => nomatch hmem)⟩
  | cons issue tail ih =>
    obtain ⟨hafter, -⟩ := List.pairwise_cons.mp h.ordered
    cases issue with
    | tick n =>
      -- A tick that waits ends the due commands: those behind it wait for it.
      refine ⟨[], _, rfl, h.due_nil ht ?_⟩
      intro stamp command hmem
      rcases List.mem_cons.mp hmem with heq | htail
      · nomatch heq
      · exact h.head_tick.1 ▸ hafter _ htail
    | command stamp asked =>
      have hreached := h.hasReached_iff ht List.mem_cons_self
      by_cases hdone : stamp ≤ p.done
      · obtain ⟨now, later, rfl, hdue⟩ := ih h.tail_of_command
        exact ⟨_, later, rfl, h.due_cons (hreached.mpr hdone) hdue⟩
      · -- So does a command that waits: those behind it have stamps as high.
        have hlt : p.done < stamp := Nat.lt_of_not_le hdone
        refine ⟨[], _, rfl, h.due_nil ht ?_⟩
        intro later command hmem
        rcases List.mem_cons.mp hmem with heq | htail
        · obtain ⟨rfl, rfl⟩ := Issue.command.inj heq
          exact hlt
        · exact Nat.lt_of_lt_of_le hlt (hafter _ htail)

/-- If every command waits for a tick, the next thing to do is the tick that is released
next. -/
theorem release (h : Lined p queue rest) (hs : Settled p rest) (p' : Pacer)
    (hwaits : 0 < p.pending) (hdone : p'.done = p.done + 1)
    (hpending : p'.pending = p.pending - 1) :
    ∃ later, rest = .tick p.done :: later ∧ Lined p' queue later := by
  have hticks := h.ticks
  obtain ⟨pending, hp⟩ := Nat.exists_eq_add_of_lt hwaits
  rw [Nat.zero_add] at hp
  rw [hp, List.range'_succ] at hticks
  cases rest with
  | nil => nomatch hticks
  | cons issue tail =>
    cases issue with
    | tick n =>
      obtain ⟨rfl, -, htail⟩ := h.head_tick
      obtain ⟨hafter, hordered⟩ := List.pairwise_cons.mp h.ordered
      refine ⟨tail, rfl, hordered, ?_, h.queue, ?_⟩
      · rw [hdone, hpending]
        exact htail
      · intro stamp command hmem
        have hnear := h.near stamp command (List.mem_cons_of_mem _ hmem)
        have hlt := hs stamp command (List.mem_cons_of_mem _ hmem)
        omega
    | command stamp asked =>
      -- The tick would stand behind the command, but the command waits for it.
      have hmem : p.done ∈ tail.filterMap Issue.tick? := by
        have htail : tail.filterMap Issue.tick? = p.done :: List.range' (p.done + 1) pending :=
          hticks
        rw [htail]
        exact List.mem_cons_self
      obtain ⟨issue, hissue, heq⟩ := List.mem_filterMap.mp hmem
      cases issue with
      | command later other => nomatch heq
      | tick n =>
        obtain rfl := Option.some.inj heq
        have hle : stamp ≤ p.done := (List.pairwise_cons.mp h.ordered).1 _ hissue
        have hlt := hs stamp asked List.mem_cons_self
        omega

end Lined

namespace Engine

/-! ### Frames -/

/-- `rest` is what is still to be done on the engine. -/
def Lined (e : Engine) (rest : List Issue) : Prop :=
  Chiptune.Lined e.pacer e.commands.toList rest

/-- The engine after `now` has been done by `ops`, with `later` still to be done. -/
structure Advanced (e : Engine) (ops : List ChipOp) (now later : List Issue) : Prop where
  ops : now.map Issue.op = ops
  lined : e.Lined later
  settled : Settled e.pacer later

theorem lined_applyCommands {count : Nat} {e : Engine} {rest : List Issue} (h : e.Lined rest)
    (ht : e.pacer.Tracks count) :
    ∃ now later, rest = now ++ later ∧
      Advanced e.applyCommands (e.dueCommands.map (·.command.op)) now later := by
  obtain ⟨now, later, hrest, hdue⟩ := Chiptune.Lined.due h ht
  refine ⟨now, later, hrest, hdue.ops, ?_, hdue.settled⟩
  show Chiptune.Lined e.pacer e.applyCommands.commands.toList later
  rw [commands_applyCommands]
  exact hdue.lined

/-- Ahead of a sample, the first of what is still to be done is done. -/
theorem lined_beforeSample {count : Nat} {e : Engine} {rest : List Issue} (h : e.Lined rest)
    (ht : e.pacer.Tracks count) :
    ∃ now later, rest = now ++ later ∧
      Advanced e.beforeSample e.beforeSampleOps now later := by
  obtain ⟨now, later, rfl, hops, hlined, hs⟩ := lined_applyCommands h ht
  -- Without a tick, the stamps are compared with the same count as before.
  rcases e.pacer.advance_cases with ⟨phase, heq⟩ | ⟨phase, hwaits, heq⟩
  · have hidle : e.pacer.advance.1 = false := by rw [heq]
    obtain ⟨hstate, hdone⟩ := beforeSample_of_idle hidle
    rw [hstate, hdone, heq]
    exact ⟨now, later, rfl, hops, ⟨hlined.ordered, hlined.ticks, hlined.queue, hlined.near⟩, hs⟩
  · have hrelease : e.pacer.advance.1 = true := by rw [heq]
    have hreleased : e.applyCommands.released.pacer = e.pacer.advance.2 := rfl
    have htracks : e.applyCommands.released.pacer.Tracks count := ht.advance
    -- The tick is next, and after it the commands that waited for it.
    obtain ⟨later, rfl, hbehind⟩ :=
      Chiptune.Lined.release hlined hs e.applyCommands.released.pacer hwaits
        (by rw [hreleased, heq]; exact Nat.add_right_comm ..) (by rw [hreleased, heq]; rfl)
    obtain ⟨waited, later, rfl, hwaited, hlined', hs'⟩ := lined_applyCommands hbehind htracks
    obtain ⟨hstate, hdone⟩ := beforeSample_of_release hrelease
    rw [hstate, hdone]
    refine ⟨now ++ .tick e.pacer.done :: waited, later, ?_, ?_, hlined', hs'⟩
    · rw [List.append_assoc]
      rfl
    · rw [List.map_append, List.map_cons, hops, hwaited]
      rfl

theorem lined_nextFrame {count : Nat} {e : Engine} {rest : List Issue} (h : e.Lined rest)
    (ht : e.pacer.Tracks count) :
    ∃ now later, rest = now ++ later ∧
      Advanced e.nextFrame.2 e.beforeSampleOps now later := by
  rw [nextFrame_eq]
  obtain ⟨now, later, hrest, hnext⟩ := lined_beforeSample h ht
  exact ⟨now, later, hrest, hnext.ops, hnext.lined, hnext.settled⟩

theorem events_framesOps (n : Nat) {e : Engine} {now : List Issue}
    (h : now.map Issue.op = e.beforeSampleOps) :
    (framesOps (n + 1) e).filter ChipOp.isEvent
      = now.map Issue.op ++ (framesOps n e.nextFrame.2).filter ChipOp.isEvent := by
  have hsample : ¬ (ChipOp.sample e.options).isEvent = true := nofun
  -- All that commands and ticks ask for is an event; the sample between them is none.
  have hall : (now.map Issue.op).filter ChipOp.isEvent = now.map Issue.op := by
    rw [List.filter_eq_self]
    intro op hop
    obtain ⟨issue, -, rfl⟩ := List.mem_map.mp hop
    exact issue.isEvent_op
  rw [framesOps, ← h, List.filter_append, hall, List.filter_cons_of_neg hsample]

/-- Frames do the first of what is still to be done. -/
theorem lined_afterFrames {count : Nat} (n : Nat) {e : Engine} {rest : List Issue}
    (h : e.Lined rest) (ht : e.pacer.Tracks count) :
    ∃ now later, rest = now ++ later ∧
      Advanced (e.afterFrames (n + 1)) ((framesOps (n + 1) e).filter ChipOp.isEvent)
        now later := by
  induction n generalizing e rest with
  | zero =>
    obtain ⟨now, later, hrest, hops, hlined, hs⟩ := lined_nextFrame h ht
    rw [events_framesOps 0 hops]
    exact ⟨now, later, hrest, (List.append_nil _).symm, hlined, hs⟩
  | succ n ih =>
    obtain ⟨now, middle, rfl, hops, hlined, -⟩ := lined_nextFrame h ht
    have htracks : e.nextFrame.2.pacer.Tracks count := by
      rw [pacer_nextFrame]
      exact ht.advance
    obtain ⟨next, later, rfl, hnext, hlined', hs⟩ := ih hlined htracks
    rw [afterFrames_succ, events_framesOps (n + 1) hops, ← hnext]
    exact ⟨now ++ next, later, (List.append_assoc ..).symm, List.map_append, hlined', hs⟩

end Engine

end Chiptune
