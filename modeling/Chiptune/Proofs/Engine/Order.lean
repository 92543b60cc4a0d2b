import Chiptune.Proofs.Engine.Lined

/-!
# `Chiptune.Proofs.Engine.Order`: commands and ticks keep their order

The stamps of the queued commands are all that is left of the order in which ticks and commands
were issued. The chip nevertheless gets them in that order, less the ticks that were dropped.

`History.Ordered` splits what has been issued into what has been done and what is still to be
done. A step that issues something puts it behind all else (`Ordered.issue`). A block first drops
its excess of ticks, which are the oldest (`lost_block`), and then does the first of the rest
(`Ordered.block`).

`History.events_in_order` is the main statement.
-/

set_option autoImplicit false

namespace Chiptune

namespace History

/-! ### The order of a history -/

/-- What has been issued, without the ticks that were dropped. -/
def kept (h : History) : List Issue := h.issued.filter fun issue => !issue.isAmong h.lost

/-- What the chip has been asked for by commands and ticks. -/
def events (h : History) : List ChipOp := h.performed.filter ChipOp.isEvent

/-- What has been issued, in order: ticks by number, commands by stamp. -/
structure Numbered (h : History) : Prop where
  ordered : h.issued.Pairwise Issue.Before
  ticks : h.issued.filterMap Issue.tick? = List.range h.ticks
  stamps : ∀ stamp command, .command stamp command ∈ h.issued → stamp ≤ h.ticks

/-- Which ticks have been dropped: as many as the pacer counts, all of them among the ticks
done. -/
structure Lost (h : History) : Prop where
  length : h.lost.length = h.engine.pacer.dropped
  nodup : h.lost.Nodup
  done : ∀ n ∈ h.lost, n < h.engine.pacer.done

/-- What has been kept falls into what has been done, `settled`, and what is still to be done,
`waiting`. -/
structure Ordered (h : History) (settled waiting : List Issue) : Prop where
  kept : h.kept = settled ++ waiting
  events : h.events = settled.map Issue.op
  ticks : waiting.filterMap Issue.tick?
    = List.range' h.engine.pacer.done (h.engine.pacer.pending + h.fresh)
  queue : waiting.filterMap Issue.queued? = h.engine.commands.toList
  stamps : ∀ stamp command, .command stamp command ∈ waiting →
    h.engine.pacer.done ≤ stamp ∧ stamp ≤ h.ticks

/-! ### What has been issued -/

section
variable {h : History}

/-- Everything issued so far comes before what is issued now. -/
theorem Numbered.before_now (hn : Numbered h) {issue : Issue} (hmem : issue ∈ h.issued)
    (command : Command) :
    issue.Before (.tick h.ticks) ∧ issue.Before (.command h.ticks command) := by
  cases issue with
  | tick n =>
    have htick : n ∈ h.issued.filterMap Issue.tick? := List.mem_filterMap.mpr ⟨_, hmem, rfl⟩
    rw [hn.ticks, List.mem_range] at htick
    exact ⟨htick, htick⟩
  | command stamp asked =>
    have hle := hn.stamps stamp asked hmem
    exact ⟨hle, hle⟩

theorem Numbered.of_none (hn : Numbered h) {s : EngineStep}
    (hissues : s.issues h.engine h.ticks = []) : Numbered (h.step s) := by
  have hissued : (h.step s).issued = h.issued := by
    show h.issued ++ s.issues h.engine h.ticks = h.issued
    rw [hissues, List.append_nil]
  have hticks : (h.step s).ticks = h.ticks := by
    rw [ticks_step, hissues]
    rfl
  refine ⟨?_, ?_, ?_⟩
  · rw [hissued]
    exact hn.ordered
  · rw [hissued, hticks]
    exact hn.ticks
  · rw [hissued, hticks]
    exact hn.stamps

theorem Numbered.step (hn : Numbered h) (s : EngineStep) : Numbered (h.step s) := by
  have hordered : ∀ issue, (∀ x ∈ h.issued, x.Before issue) →
      (h.issued ++ [issue]).Pairwise Issue.Before := by
    intro issue hbefore
    rw [List.pairwise_append]
    refine ⟨hn.ordered, List.pairwise_singleton _ _, ?_⟩
    intro x hx y hy
    rw [List.mem_singleton.mp hy]
    exact hbefore x hx
  have hissued : (h.step s).issued = h.issued ++ s.issues h.engine h.ticks := rfl
  -- What is new is behind everything, by `before_now`. Only a tick moves the numbers on.
  cases s.effect h.engine with
  | quiet _ _ issues _ _ => exact hn.of_none (issues h.ticks)
  | block _ issues _ _ => exact hn.of_none (issues h.ticks)
  | queues command _ _ issues _ renders =>
    obtain ⟨hticks, -⟩ := ticks_of_none (by rw [issues]; rfl) renders
    rw [issues] at hissued
    refine ⟨?_, ?_, ?_⟩
    · rw [hissued]
      exact hordered _ fun x hx => (hn.before_now hx command).2
    · rw [hissued, hticks, List.filterMap_append, hn.ticks]
      exact List.append_nil _
    · rw [hissued, hticks]
      intro stamp asked hmem
      rcases List.mem_append.mp hmem with hold | hnew
      · exact hn.stamps stamp asked hold
      · obtain ⟨rfl, -⟩ := Issue.command.inj (List.mem_singleton.mp hnew)
        exact Nat.le_refl _
  | ticks _ issues _ _ =>
    have hticks : (h.step s).ticks = h.ticks + 1 := by
      rw [ticks_step, issues]
      rfl
    rw [issues] at hissued
    refine ⟨?_, ?_, ?_⟩
    · rw [hissued]
      exact hordered _ fun x hx => (hn.before_now hx .reset).1
    · rw [hissued, hticks, List.filterMap_append, hn.ticks, List.range_succ]
      rfl
    · rw [hissued, hticks]
      intro stamp asked hmem
      rcases List.mem_append.mp hmem with hold | hnew
      · exact Nat.le_succ_of_le (hn.stamps stamp asked hold)
      · nomatch List.mem_singleton.mp hnew

end

/-! ### Steps other than blocks -/

section
variable {h : History} {s : EngineStep} {settled waiting : List Issue}

/-- The ticks done, those that wait and the new ones are all the ticks. -/
theorem Counted.total (hc : Counted h) :
    h.engine.pacer.done + (h.engine.pacer.pending + h.fresh) = h.ticks := by
  have htotal := hc.tracks.total
  have hle := hc.fresh_le
  unfold observed at htotal
  omega

/-- A step that issues nothing or one thing. -/
def IssuesNow (h : History) (issues : List Issue) : Prop :=
  issues = [] ∨ issues = [.tick h.ticks] ∨ ∃ command, issues = [.command h.ticks command]

/-- Nothing that is issued now has been dropped. -/
theorem IssuesNow.kept {issues : List Issue} (hi : IssuesNow h issues) (hl : Lost h)
    (hc : Counted h) : issues.filter (fun issue => !issue.isAmong h.lost) = issues := by
  rcases hi with rfl | rfl | ⟨command, rfl⟩
  · rfl
  · -- Dropped ticks are among those done, and the new tick is numbered after all of them.
    have hnew : h.lost.contains h.ticks = false := by
      rw [← Bool.not_eq_true, List.contains_iff_mem]
      intro hmem
      have hlt := hl.done _ hmem
      have htotal := hc.total
      omega
    rw [List.filter_cons_of_pos (by rw [Issue.isAmong, hnew]; rfl), List.filter_nil]
  · rfl

/-- Ticks that are issued now are the next by number. -/
theorem IssuesNow.ticks {issues : List Issue} (hi : IssuesNow h issues) :
    issues.filterMap Issue.tick? = List.range' h.ticks (issues.filterMap Issue.tick?).length := by
  rcases hi with rfl | rfl | ⟨command, rfl⟩
  · rfl
  · rfl
  · rfl

theorem IssuesNow.stamps {issues : List Issue} (hi : IssuesNow h issues) {stamp : Nat}
    {command : Command} (hmem : .command stamp command ∈ issues) : stamp = h.ticks := by
  rcases hi with rfl | rfl | ⟨asked, rfl⟩
  · nomatch hmem
  · nomatch List.mem_singleton.mp hmem
  · exact (Issue.command.inj (List.mem_singleton.mp hmem)).1

/-- A step that does not drop ticks. -/
theorem lost_step (hpacer : (s.run h.engine).pacer = h.engine.pacer) :
    (h.step s).lost = h.lost := by
  show h.lost ++ List.range' _ ((s.run h.engine).pacer.dropped - _) = h.lost
  rw [hpacer, Nat.sub_self]
  exact List.append_nil _

theorem Lost.same (hl : Lost h) (hpacer : (s.run h.engine).pacer = h.engine.pacer) :
    Lost (h.step s) := by
  have hengine : (h.step s).engine.pacer = h.engine.pacer := hpacer
  refine ⟨?_, ?_, ?_⟩
  · rw [lost_step hpacer, hengine]
    exact hl.length
  · rw [lost_step hpacer]
    exact hl.nodup
  · rw [lost_step hpacer, hengine]
    exact hl.done

/-- Without a block, what is issued is still to be done, behind all else. -/
theorem Ordered.issue (ho : Ordered h settled waiting) (hl : Lost h) (hc : Counted h)
    (hpacer : (s.run h.engine).pacer = h.engine.pacer)
    (hevents : (s.ops h.engine).filter ChipOp.isEvent = [])
    (hrenders : s.renders h.engine = false) {issues : List Issue}
    (hissues : s.issues h.engine h.ticks = issues) (hi : IssuesNow h issues)
    (hqueue : (s.run h.engine).commands.toList
      = h.engine.commands.toList ++ issues.filterMap Issue.queued?) :
    Ordered (h.step s) settled (waiting ++ issues) := by
  have hengine : (h.step s).engine.pacer = h.engine.pacer := hpacer
  have hfresh : (h.step s).fresh = h.fresh + (issues.filterMap Issue.tick?).length := by
    show (if s.renders h.engine then 0 else _) = _
    rw [hrenders, hissues]
    rfl
  have hle : h.ticks ≤ (h.step s).ticks := by
    rw [ticks_step]
    exact Nat.le_add_right _ _
  refine ⟨?_, ?_, ?_, ?_, ?_⟩
  · show (h.issued ++ s.issues h.engine h.ticks).filter
      (fun issue => !issue.isAmong (h.step s).lost) = _
    rw [lost_step hpacer, List.filter_append, hissues, hi.kept hl hc, ← List.append_assoc,
      ← ho.kept, History.kept]
  · show (h.performed ++ s.ops h.engine).filter ChipOp.isEvent = _
    rw [List.filter_append, hevents, List.append_nil]
    exact ho.events
  · rw [List.filterMap_append, ho.ticks, hi.ticks, hengine, hfresh, ← hc.total,
      List.range'_append_1, Nat.add_assoc]
  · rw [List.filterMap_append, ho.queue]
    exact hqueue.symm
  · intro stamp command hmem
    rw [hengine]
    rcases List.mem_append.mp hmem with hold | hnew
    · obtain ⟨hdone, hticks⟩ := ho.stamps stamp command hold
      exact ⟨hdone, Nat.le_trans hticks hle⟩
    · obtain rfl := hi.stamps hnew
      have htotal := hc.total
      exact ⟨by omega, hle⟩

end

/-! ### Blocks -/

/-- With fewer than `2 ^ 31` new ticks, backlog and new ticks fit a word. -/
theorem paced_of_lt {h : History} (hfresh : h.fresh < 2 ^ 31) :
    h.fresh < 2 ^ 32 - Pacer.maxBacklog := by
  have hbacklog : Pacer.maxBacklog = 240 := rfl
  omega

/-- Ticks that a block drops at its start. -/
def excess (h : History) : Nat := h.engine.pacer.pending + h.fresh - Pacer.maxBacklog

/-- Frames put no tick back. -/
theorem done_le_afterFrames (n : Nat) (e : Engine) :
    e.pacer.done ≤ (e.afterFrames n).pacer.done := by
  have happlied := Engine.count_framesOps n e
  have hdropped := Engine.dropped_afterFrames n e
  unfold Pacer.done
  omega

section
variable {h : History} {settled waiting : List Issue} (hc : Counted h) (hn : Numbered h)
  (ho : Ordered h settled waiting) (hfresh : h.fresh < 2 ^ 31)

include hc in
/-- The ticks done at the start of a block. -/
theorem done_beginBlock (hpaced : h.fresh < 2 ^ 32 - Pacer.maxBacklog) :
    h.engine.beginBlock.pacer.done = h.engine.pacer.done + h.excess := by
  obtain ⟨-, happlied, hdropped⟩ := hc.beginBlock hpaced
  rw [Pacer.done, happlied, hdropped, ← Nat.add_assoc]
  rfl

include hn ho in
/-- What has been kept is in order. -/
theorem Ordered.pairwise : (settled ++ waiting).Pairwise Issue.Before := by
  rw [← ho.kept]
  exact hn.ordered.sublist List.filter_sublist

include hn ho in
/-- Nothing that has been done is dropped afterwards. -/
theorem settled_filter :
    settled.filter (fun issue => !issue.isAmong (List.range' h.engine.pacer.done h.excess))
      = settled := by
  rw [List.filter_eq_self]
  intro issue hmem
  cases issue with
  | command stamp asked => rfl
  | tick n =>
    rw [Bool.not_eq_true', ← Bool.not_eq_true, Issue.isAmong, List.contains_iff_mem,
      List.mem_range'_1]
    rintro ⟨hdone, hexcess⟩
    -- If ticks are dropped then ticks wait, and those done come before them.
    have hwaits : h.engine.pacer.done ∈ waiting.filterMap Issue.tick? := by
      rw [ho.ticks, List.mem_range'_1]
      unfold excess at hexcess
      omega
    obtain ⟨next, hnext, heq⟩ := List.mem_filterMap.mp hwaits
    have hbefore := (List.pairwise_append.mp (Ordered.pairwise hn ho)).2.2 _ hmem _ hnext
    cases next with
    | command stamp asked => nomatch heq
    | tick m =>
      obtain rfl := Option.some.inj heq
      have hlt : n < h.engine.pacer.done := hbefore
      omega

include hc hn ho hfresh in
/-- What waits at the start of a block, once ticks have been dropped. -/
theorem lined_beginBlock :
    h.engine.beginBlock.Lined
      (waiting.filter fun issue =>
        !issue.isAmong (List.range' h.engine.pacer.done h.excess)) := by
  have hbacklog : Pacer.maxBacklog = 240 := rfl
  have hpaced := paced_of_lt hfresh
  obtain ⟨htracks, -, -⟩ := hc.beginBlock hpaced
  have hbegin := done_beginBlock hc hpaced
  have htotal := hc.total
  have hpending := htracks.total
  have hle := hc.tracks.pending_le
  have hexcess : h.excess ≤ h.engine.pacer.pending + h.fresh := Nat.sub_le ..
  have hnew : h.excess ≤ h.fresh := by
    unfold excess
    omega
  refine ⟨?_, ?_, ?_, ?_⟩
  · have hwaiting := (List.pairwise_append.mp (Ordered.pairwise hn ho)).2.1
    exact hwaiting.sublist List.filter_sublist
  · have hsplit : h.engine.pacer.pending + h.fresh
        = h.excess + h.engine.beginBlock.pacer.pending := by omega
    rw [Issue.ticks_filter, ho.ticks, hsplit, range'_filter_not_contains, hbegin]
  · rw [Issue.queued_filter]
    exact ho.queue
  · intro stamp command hmem
    obtain ⟨hdone, hticks⟩ := ho.stamps stamp command (List.mem_filter.mp hmem).1
    omega

variable {s : EngineStep}
  (hstate : s.run h.engine = (h.engine.beginBlock.afterFrames blockSize).publish)

include hc hfresh hstate in
/-- A block drops its excess, the oldest of the ticks that wait. -/
theorem lost_block :
    (h.step s).lost = h.lost ++ List.range' h.engine.pacer.done h.excess ∧
      (h.step s).engine.pacer.dropped = h.engine.pacer.dropped + h.excess ∧
      h.engine.pacer.done + h.excess ≤ (h.step s).engine.pacer.done := by
  have hpaced := paced_of_lt hfresh
  obtain ⟨-, -, hdropped⟩ := hc.beginBlock hpaced
  have hframes := Engine.dropped_afterFrames blockSize h.engine.beginBlock
  -- Frames release ticks but drop none, so the excess is all that is lost.
  have hdone := done_le_afterFrames blockSize h.engine.beginBlock
  rw [done_beginBlock hc hpaced] at hdone
  have hnext : (s.run h.engine).pacer.dropped = h.engine.pacer.dropped + h.excess := by
    rw [hstate, Engine.pacer_publish, hframes]
    exact hdropped
  refine ⟨?_, hnext, ?_⟩
  · show h.lost ++ List.range' _ ((s.run h.engine).pacer.dropped - _) = _
    rw [hnext, Nat.add_sub_cancel_left]
  · show _ ≤ (s.run h.engine).pacer.done
    rw [hstate, Engine.pacer_publish]
    exact hdone

include hc hfresh hstate in
theorem Lost.block (hl : Lost h) : Lost (h.step s) := by
  obtain ⟨hlost, hdropped, hdone⟩ := lost_block hc hfresh hstate
  refine ⟨?_, ?_, ?_⟩
  · rw [hlost, hdropped, List.length_append, List.length_range', hl.length]
  · rw [hlost, List.nodup_append]
    -- Those lost before were done before, and the excess starts where those done end.
    refine ⟨hl.nodup, List.nodup_range', ?_⟩
    intro n hn m hm
    have hlt := hl.done n hn
    rw [List.mem_range'_1] at hm
    omega
  · rw [hlost]
    intro n hmem
    rcases List.mem_append.mp hmem with hold | hnew
    · have hlt := hl.done n hold
      omega
    · rw [List.mem_range'_1] at hnew
      omega

include hc hn ho hfresh hstate in
/-- A block does the first of what waits. What still waits then waits for a tick. -/
theorem Ordered.block (hissues : s.issues h.engine h.ticks = [])
    (hops : s.ops h.engine = Engine.framesOps blockSize h.engine.beginBlock)
    (hrenders : s.renders h.engine = true) :
    ∃ now later, Ordered (h.step s) (settled ++ now) later ∧
      (h.step s).engine.Lined later ∧ Settled (h.step s).engine.pacer later := by
  have hsize : blockSize = 127 + 1 := rfl
  have hpaced := paced_of_lt hfresh
  obtain ⟨htracks, -, -⟩ := hc.beginBlock hpaced
  have hnext := (hc.block hpaced hstate hissues hops hrenders).1
  obtain ⟨hlost, -, -⟩ := lost_block hc hfresh hstate
  -- A block has at least one frame, which is what leaves every command waiting.
  rw [hsize] at hops hstate
  obtain ⟨now, later, hrest, hnow, hlined, hs⟩ :=
    Engine.lined_afterFrames 127 (lined_beginBlock hc hn ho hfresh) htracks
  have hengine : (h.step s).engine
      = (h.engine.beginBlock.afterFrames (127 + 1)).publish := hstate
  have hnone : (h.step s).fresh = 0 := if_pos hrenders
  have hl : (h.step s).engine.Lined later := by
    rw [Engine.Lined, hengine, Engine.pacer_publish, Engine.commands_publish]
    exact hlined
  have hwait : Settled (h.step s).engine.pacer later := by
    rw [hengine, Engine.pacer_publish]
    exact hs
  refine ⟨now, later, ⟨?_, ?_, ?_, hl.queue, ?_⟩, hl, hwait⟩
  · show (h.issued ++ s.issues h.engine h.ticks).filter
      (fun issue => !issue.isAmong (h.step s).lost) = _
    rw [hissues, List.append_nil, hlost, Issue.filter_append, ← History.kept, ho.kept,
      List.filter_append, settled_filter hn ho, hrest, List.append_assoc]
  · show (h.performed ++ s.ops h.engine).filter ChipOp.isEvent = _
    rw [List.filter_append, hops, ← hnow, List.map_append]
    exact congrArg (· ++ _) ho.events
  · rw [hnone]
    exact hl.ticks
  · intro stamp command hmem
    have hlt := hwait stamp command hmem
    have hle := (hl.near stamp command hmem).1
    have htotal := hnext.total
    omega

end

/-! ### Runs -/

/-- What every paced run keeps. -/
structure InOrder (h : History) : Prop where
  counted : Counted h
  numbered : Numbered h
  lost : Lost h
  ordered : ∃ settled waiting, Ordered h settled waiting

theorem inOrder_start {settings : Settings} {e : Engine}
    (he : Engine.create settings = .ok e) : InOrder (start e) := by
  have hcounted := counted_start he
  rw [Engine.create_eq_ok he] at hcounted ⊢
  refine ⟨hcounted, ⟨List.Pairwise.nil, rfl, fun _ _ hmem => nomatch hmem⟩,
    ⟨rfl, List.nodup_nil, fun _ hmem => nomatch hmem⟩,
    [], [], rfl, rfl, rfl, rfl, fun _ _ hmem => nomatch hmem⟩

theorem InOrder.step {h : History} (hi : InOrder h) (s : EngineStep)
    (hfresh : s.renders h.engine = true → h.fresh < 2 ^ 31) : InOrder (h.step s) := by
  obtain ⟨hc, hn, hl, settled, waiting, ho⟩ := hi
  have hcounted := hc.step s fun hr => paced_of_lt (hfresh hr)
  cases s.effect h.engine with
  | quiet same commands issues events renders =>
    refine ⟨hcounted, hn.step s, hl.same same.pacer, settled, _,
      ho.issue hl hc same.pacer events renders (issues h.ticks) (Or.inl rfl) ?_⟩
    rw [commands]
    exact (List.append_nil _).symm
  | queues command same commands issues ops renders =>
    refine ⟨hcounted, hn.step s, hl.same same.pacer, settled, _,
      ho.issue hl hc same.pacer (by rw [ops]; rfl) renders (issues h.ticks)
        (Or.inr (Or.inr ⟨command, rfl⟩)) ?_⟩
    rw [commands, hc.word]
    rfl
  | ticks state issues ops renders =>
    have hpacer : (s.run h.engine).pacer = h.engine.pacer := by rw [state]
    refine ⟨hcounted, hn.step s, hl.same hpacer, settled, _,
      ho.issue hl hc hpacer (by rw [ops]; rfl) renders (issues h.ticks)
        (Or.inr (Or.inl rfl)) ?_⟩
    rw [state]
    exact (List.append_nil _).symm
  | block state issues ops renders =>
    obtain ⟨now, later, hordered, -, -⟩ :=
      ho.block hc hn (hfresh renders) state (issues h.ticks) ops renders
    exact ⟨hcounted, hn.step s, hl.block hc (hfresh renders) state, _, _, hordered⟩

theorem inOrder_run {settings : Settings} {e : Engine} (he : Engine.create settings = .ok e)
    {steps : List EngineStep} (hp : Paced (2 ^ 31) (start e) steps) :
    InOrder ((start e).run steps) :=
  run_induction (fun _ s hi hfresh => hi.step s hfresh) (inOrder_start he) hp

/-- The stamps of commands that wait for a tick lie among the ticks that wait. -/
theorem stamp_pending {e : Engine} {count : Nat} {waiting : List Issue} (hl : e.Lined waiting)
    (ht : e.pacer.Tracks count) (hs : Settled e.pacer waiting) {queued : QueuedCommand}
    (hq : queued ∈ e.commands.toList) :
    0 < (queued.tick - e.pacer.consumed).toNat ∧
      (queued.tick - e.pacer.consumed).toNat ≤ e.pacer.pending := by
  obtain ⟨stamp, htick, hmem⟩ := Lined.exists_of_mem hl hq
  obtain ⟨hle, -⟩ := hl.near stamp _ hmem
  have hlt := hs stamp _ hmem
  have hpending := ht.pending_le
  have hbacklog : Pacer.maxBacklog = 240 := rfl
  obtain ⟨ahead, rfl⟩ := Nat.exists_eq_add_of_lt hlt
  -- Stamp and count wrap, but they are no more than a backlog apart.
  rw [htick, ht.consumed, Nat.add_assoc, toNat_ofNat_add_sub _ (by omega)]
  omega

/-- Commands and ticks keep their order on the way to the chip. What the chip has been asked
for is the beginning of what has been issued, in the order of issue and without the ticks that
were dropped; the dropped ticks are as many as the counter says. The rest, commands in the queue
and ticks, is still to be done. After an update that gives a block, the stamp of every command
in the queue is that of a tick that waits, so the queue is empty if no tick waits. -/
theorem events_in_order {settings : Settings} {e : Engine}
    (he : Engine.create settings = .ok e) (steps : List EngineStep)
    (hp : Paced (2 ^ 31) (start e) steps) :
    let h := (start e).run steps
    h.engine.chip = e.chip.after h.performed ∧
    h.events <+: h.kept.map Issue.op ∧
    (∃ settled waiting, h.kept = settled ++ waiting ∧ h.events = settled.map Issue.op ∧
      h.engine.commands.toList = waiting.filterMap Issue.queued?) ∧
    (h.issued.filterMap Issue.tick? = List.range h.ticks ∧ h.lost.Nodup ∧
      (∀ n ∈ h.lost, n < h.ticks) ∧ h.lost.length = h.engine.published.ticksDropped) ∧
    ∀ pool : Pool, (h.engine.update pool).1.isSome = true → h.fresh < 2 ^ 31 →
      let next := (h.engine.update pool).2.1
      (∀ queued ∈ next.commands.toList,
        0 < (queued.tick - next.pacer.consumed).toNat ∧
        (queued.tick - next.pacer.consumed).toNat ≤ next.pacer.pending) ∧
      (next.pacer.pending = 0 → next.commands.toList = []) := by
  intro h
  have hi : InOrder h := inOrder_run he hp
  -- The split that the run keeps gives the prefix; one more block gives the stamps.
  obtain ⟨hc, hn, hl, settled, waiting, ho⟩ := hi
  refine ⟨chip_run rfl steps, ?_, ⟨settled, waiting, ho.kept, ho.events, ho.queue.symm⟩,
    ⟨hn.ticks, hl.nodup, ?_, ?_⟩, ?_⟩
  · rw [ho.kept, ho.events, List.map_append]
    exact List.prefix_append _ _
  · intro n hmem
    have hlt := hl.done n hmem
    have htotal := hc.total
    omega
  · rw [hc.known.dropped]
    exact hl.length
  · intro pool hsome hfresh next
    have hstate := Engine.update_of_some hsome
    have hops : (EngineStep.update pool).ops h.engine
        = Engine.framesOps blockSize h.engine.beginBlock := if_pos hsome
    obtain ⟨now, later, -, hlined, hs⟩ :=
      ho.block hc hn (s := .update pool) hfresh hstate rfl hops hsome
    obtain ⟨htracks, -⟩ :=
      hc.block (s := .update pool) (paced_of_lt hfresh) hstate rfl hops hsome
    have hstamps : ∀ queued ∈ next.commands.toList,
        0 < (queued.tick - next.pacer.consumed).toNat ∧
        (queued.tick - next.pacer.consumed).toNat ≤ next.pacer.pending :=
      fun queued hq => stamp_pending hlined htracks.tracks hs hq
    refine ⟨hstamps, ?_⟩
    intro hnone
    rw [List.eq_nil_iff_forall_not_mem]
    intro queued hq
    obtain ⟨hpos, hle⟩ := hstamps queued hq
    omega

/-- A tick and then a reset are issued ahead of the first block. After the block, the reset is
in the queue only if the tick still waits. -/
theorem tick_then_reset_in_order :
    ∃ e : Engine, Engine.create {} = .ok e ∧
      Paced (2 ^ 31) (start e) [.startTimer, .tick, .reset] ∧
      let h := (start e).run [.startTimer, .tick, .reset]
      let next := (h.engine.update (.create 2)).2.1
      h.kept.map Issue.op = [.frameTick, .reset] ∧
      h.engine.commands.toList = [{ tick := 1, command := .reset }] ∧
      (h.engine.update (.create 2)).1.isSome = true ∧ h.fresh < 2 ^ 31 ∧
      (next.pacer.pending = 0 → next.commands.toList = []) := by
  obtain ⟨e, he⟩ : ∃ e : Engine, Engine.create {} = .ok e := ⟨_, rfl⟩
  have hstart := Engine.create_eq_ok he
  have hp : Paced (2 ^ 31) (start e) [.startTimer, .tick, .reset] :=
    ⟨nofun, nofun, nofun, trivial⟩
  obtain ⟨-, -, -, -, hupdate⟩ := events_in_order he [.startTimer, .tick, .reset] hp
  have hkept : ((start e).run [.startTimer, .tick, .reset]).kept.map Issue.op
      = [.frameTick, .reset] := by
    rw [hstart]
    rfl
  have hqueue : ((start e).run [.startTimer, .tick, .reset]).engine.commands.toList
      = [{ tick := 1, command := .reset }] := by
    rw [hstart]
    rfl
  have hsome : (((start e).run [.startTimer, .tick, .reset]).engine.update
      (.create 2)).1.isSome = true := by
    rw [hstart]
    rfl
  have hfresh : ((start e).run [.startTimer, .tick, .reset]).fresh < 2 ^ 31 := by
    rw [hstart]
    decide
  exact ⟨e, he, hp, hkept, hqueue, hsome, hfresh, (hupdate (.create 2) hsome hfresh).2⟩

end History

end Chiptune
