import Chiptune.Proofs.Engine.Run

/-!
# `Chiptune.Proofs.Engine.Ticks`: no frame tick goes missing

Every tick that has been issued is released, dropped, waiting, or newer than the last update
that gave a block. `History.Counted` states this for the numbers and says which words hold
them. Each step keeps it: the frames of a block move ticks from the backlog to the chip one by
one (`Engine.count_framesOps`), whatever the phase of the pacer does, and its start moves the
new ticks to the backlog and drops what is too much (`Pacer.Tracks.observe`).

`History.ticks_conserved` is the main statement: the counters that an update makes known add
up to the count of ticks that it read, and it drops what the backlog is too long by.
-/

set_option autoImplicit false

namespace Chiptune

namespace Engine

/-! ### Frames -/

@[simp] theorem pacer_beforeSample (e : Engine) : e.beforeSample.pacer = e.pacer.advance.2 := by
  cases h : e.pacer.advance.1 with
  | false => rw [(beforeSample_of_idle h).1]
  | true => rw [(beforeSample_of_release h).1]; rfl

@[simp] theorem pacer_nextFrame (e : Engine) : e.nextFrame.2.pacer = e.pacer.advance.2 := by
  rw [nextFrame_eq]
  exact pacer_beforeSample e

theorem tracks_afterFrames {count : Nat} (n : Nat) {e : Engine} (h : e.pacer.Tracks count) :
    (e.afterFrames n).pacer.Tracks count := by
  induction n generalizing e with
  | zero => exact h
  | succ n ih =>
    rw [afterFrames_succ]
    refine ih ?_
    rw [pacer_nextFrame]
    exact h.advance

theorem ticksIssued_afterFrames (n : Nat) (e : Engine) :
    (e.afterFrames n).ticksIssued = e.ticksIssued := by
  obtain ⟨_, _, _, hparts⟩ := e.afterFrames_parts n
  rw [hparts]

/-- Frames drop no ticks. -/
theorem dropped_afterFrames (n : Nat) (e : Engine) :
    (e.afterFrames n).pacer.dropped = e.pacer.dropped := by
  induction n generalizing e with
  | zero => rfl
  | succ n ih =>
    rw [afterFrames_succ, ih, pacer_nextFrame]
    rcases e.pacer.advance_cases with ⟨phase, heq⟩ | ⟨phase, -, heq⟩
    · rw [heq]
    · rw [heq]

theorem count_commands (queued : List QueuedCommand) :
    (queued.map (·.command.op)).count .frameTick = 0 := by
  rw [List.count_eq_zero, List.mem_map]
  rintro ⟨q, -, heq⟩
  cases hc : q.command with
  | write register value => rw [hc] at heq; nomatch heq
  | reset => rw [hc] at heq; nomatch heq

/-- The ticks that a sample releases are the ticks that the chip gets ahead of it. -/
theorem count_beforeSampleOps (e : Engine) :
    e.pacer.applied + e.beforeSampleOps.count .frameTick = e.pacer.advance.2.applied := by
  rcases e.pacer.advance_cases with ⟨phase, heq⟩ | ⟨phase, -, heq⟩
  · have hidle : e.pacer.advance.1 = false := by rw [heq]
    rw [(beforeSample_of_idle hidle).2, count_commands, heq]
    rfl
  · have hrelease : e.pacer.advance.1 = true := by rw [heq]
    rw [(beforeSample_of_release hrelease).2, List.count_append, List.count_cons_self,
      count_commands, count_commands, heq]

theorem count_framesOps (n : Nat) (e : Engine) :
    e.pacer.applied + (framesOps n e).count .frameTick = (e.afterFrames n).pacer.applied := by
  induction n generalizing e with
  | zero => rfl
  | succ n ih =>
    -- A frame is what comes ahead of a sample and then the sample, which is no tick.
    have hsample : ChipOp.sample e.options ≠ .frameTick := nofun
    rw [framesOps, afterFrames_succ, List.count_append, List.count_cons_of_ne hsample,
      ← Nat.add_assoc, count_beforeSampleOps, ← pacer_nextFrame]
    exact ih e.nextFrame.2

end Engine

namespace History

/-! ### The ticks of a history -/

/-- Ticks issued before the last update that gave a block. -/
def observed (h : History) : Nat := h.ticks - h.fresh

/-- The counters of a pacer as they are made known. -/
structure Known (p : Pacer) (published : Published) : Prop where
  applied : published.ticksApplied = p.applied
  dropped : published.ticksDropped = p.dropped
  pending : published.ticksPending = p.pending

/-- Where the ticks of a history are. The pacer has taken in those that were issued before the
last block, the others are new. The chip has had those that were released. -/
structure Counted (h : History) : Prop where
  fresh_le : h.fresh ≤ h.ticks
  tracks : h.engine.pacer.Tracks h.observed
  word : h.engine.ticksIssued = UInt32.ofNat h.ticks
  applied : h.engine.pacer.applied = h.performed.count .frameTick
  known : Known h.engine.pacer h.engine.published

theorem counted_start {settings : Settings} {e : Engine} (he : Engine.create settings = .ok e) :
    Counted (start e) := by
  rw [Engine.create_eq_ok he]
  exact ⟨Nat.le_refl 0, Pacer.tracks_create _, rfl, rfl, rfl, rfl, rfl⟩

theorem ticks_step (h : History) (s : EngineStep) :
    (h.step s).ticks
      = h.ticks + ((s.issues h.engine h.ticks).filterMap Issue.tick?).length := by
  show ((h.issued ++ s.issues h.engine h.ticks).filterMap Issue.tick?).length = _
  rw [List.filterMap_append, List.length_append]
  rfl

/-- A step that issues no tick and renders nothing leaves the new ticks as they were. -/
theorem ticks_of_none {h : History} {s : EngineStep}
    (hissues : (s.issues h.engine h.ticks).filterMap Issue.tick? = [])
    (hrenders : s.renders h.engine = false) :
    (h.step s).ticks = h.ticks ∧ (h.step s).fresh = h.fresh := by
  constructor
  · rw [ticks_step, hissues]
    rfl
  · show (if s.renders h.engine then 0 else h.fresh + _) = h.fresh
    rw [hrenders, hissues]
    rfl

/-- A step that changes neither the pacer nor the ticks keeps the count. -/
theorem Counted.same {h : History} (hc : Counted h) {s : EngineStep}
    (same : EngineStep.SameTicks h.engine (s.run h.engine))
    (hissues : (s.issues h.engine h.ticks).filterMap Issue.tick? = [])
    (hrenders : s.renders h.engine = false)
    (hevents : (s.ops h.engine).filter ChipOp.isEvent = []) : Counted (h.step s) := by
  obtain ⟨hticks, hfresh⟩ := ticks_of_none hissues hrenders
  have hobserved : (h.step s).observed = h.observed := by rw [observed, hticks, hfresh, observed]
  have hcount : (s.ops h.engine).count .frameTick = 0 := by
    rw [← List.count_filter (p := ChipOp.isEvent) rfl, hevents]
    rfl
  refine ⟨?_, ?_, ?_, ?_, ?_⟩
  · rw [hticks, hfresh]
    exact hc.fresh_le
  · rw [hobserved]
    show (s.run h.engine).pacer.Tracks h.observed
    rw [same.pacer]
    exact hc.tracks
  · rw [hticks]
    exact same.ticksIssued.trans hc.word
  · show (s.run h.engine).pacer.applied = (h.performed ++ s.ops h.engine).count .frameTick
    rw [same.pacer, hc.applied, List.count_append, hcount]
    rfl
  · show Known (s.run h.engine).pacer (s.run h.engine).published
    rw [same.pacer, same.published]
    exact hc.known

/-- A tick of the timer is new until the next block. -/
theorem Counted.tick {h : History} (hc : Counted h) {s : EngineStep}
    (hstate : s.run h.engine = { h.engine with ticksIssued := h.engine.ticksIssued + 1 })
    (hissues : s.issues h.engine h.ticks = [.tick h.ticks]) (hops : s.ops h.engine = [])
    (hrenders : s.renders h.engine = false) : Counted (h.step s) := by
  have hticks : (h.step s).ticks = h.ticks + 1 := by
    rw [ticks_step, hissues]
    rfl
  have hfresh : (h.step s).fresh = h.fresh + 1 := by
    show (if s.renders h.engine then 0 else h.fresh + _) = h.fresh + 1
    rw [hrenders, hissues]
    rfl
  -- One more tick and one more new tick: what the pacer has seen is the same.
  have hobserved : (h.step s).observed = h.observed := by
    have hle := hc.fresh_le
    unfold observed
    omega
  refine ⟨?_, ?_, ?_, ?_, ?_⟩
  · rw [hticks, hfresh]
    exact Nat.succ_le_succ hc.fresh_le
  · rw [hobserved]
    show (s.run h.engine).pacer.Tracks h.observed
    rw [hstate]
    exact hc.tracks
  · rw [hticks, UInt32.ofNat_add, ← hc.word]
    show (s.run h.engine).ticksIssued = _
    rw [hstate]
    rfl
  · show (s.run h.engine).pacer.applied = (h.performed ++ s.ops h.engine).count .frameTick
    rw [hstate, hops, List.append_nil]
    exact hc.applied
  · show Known (s.run h.engine).pacer (s.run h.engine).published
    rw [hstate]
    exact hc.known

section
variable {h : History} (hc : Counted h) (hfresh : h.fresh < 2 ^ 32 - Pacer.maxBacklog)
include hc hfresh

/-- The start of a block takes in the new ticks and drops what is too much. -/
theorem Counted.beginBlock :
    h.engine.beginBlock.pacer.Tracks h.ticks ∧
      h.engine.beginBlock.pacer.applied = h.engine.pacer.applied ∧
      h.engine.beginBlock.pacer.dropped
        = h.engine.pacer.dropped + (h.engine.pacer.pending + h.fresh - Pacer.maxBacklog) := by
  have hticks : h.observed + h.fresh = h.ticks := Nat.sub_add_cancel hc.fresh_le
  have htracks := hc.tracks.retune h.engine.chip.sampleRate
  have hpacer : h.engine.beginBlock.pacer
      = (h.engine.pacer.retune h.engine.chip.sampleRate).observe
          (UInt32.ofNat (h.observed + h.fresh)) := by
    rw [hticks, ← hc.word]
    rfl
  rw [hpacer]
  refine ⟨?_, ?_, ?_⟩
  · rw [← hticks]
    exact htracks.observe hfresh
  · rw [htracks.observe_eq hfresh]
    rfl
  · rw [htracks.observe_eq hfresh]
    rfl

/-- A block leaves the ticks counted, and drops what the backlog is too long by. -/
theorem Counted.block {s : EngineStep}
    (hstate : s.run h.engine = (h.engine.beginBlock.afterFrames blockSize).publish)
    (hissues : s.issues h.engine h.ticks = [])
    (hops : s.ops h.engine = Engine.framesOps blockSize h.engine.beginBlock)
    (hrenders : s.renders h.engine = true) :
    Counted (h.step s) ∧ (h.step s).observed = h.ticks ∧
      (h.step s).engine.pacer.dropped
        = h.engine.pacer.dropped + (h.engine.pacer.pending + h.fresh - Pacer.maxBacklog) := by
  obtain ⟨htracks, happlied, hdropped⟩ := hc.beginBlock hfresh
  have hcount := Engine.count_framesOps blockSize h.engine.beginBlock
  have hkeeps := Engine.dropped_afterFrames blockSize h.engine.beginBlock
  have hafter := Engine.tracks_afterFrames blockSize htracks
  have hword := Engine.ticksIssued_afterFrames blockSize h.engine.beginBlock
  have hticks : (h.step s).ticks = h.ticks := by
    rw [ticks_step, hissues]
    rfl
  have hnone : (h.step s).fresh = 0 := if_pos hrenders
  have hengine : (h.step s).engine = (h.engine.beginBlock.afterFrames blockSize).publish := hstate
  have hperformed : (h.step s).performed
      = h.performed ++ Engine.framesOps blockSize h.engine.beginBlock := by rw [← hops]; rfl
  have hobserved : (h.step s).observed = h.ticks := by rw [observed, hnone, hticks, Nat.sub_zero]
  generalize Engine.framesOps blockSize h.engine.beginBlock = ops at hcount hperformed
  generalize h.engine.beginBlock.afterFrames blockSize = e at *
  refine ⟨⟨?_, ?_, ?_, ?_, ?_⟩, hobserved, ?_⟩
  · rw [hnone]
    exact Nat.zero_le _
  · rw [hobserved, hengine]
    exact hafter
  · rw [hengine, hticks, ← hc.word]
    exact hword
  · rw [hengine, hperformed, List.count_append, ← hc.applied, ← happlied]
    exact hcount.symm
  · rw [hengine]
    exact ⟨rfl, rfl, rfl⟩
  · rw [hengine, ← hdropped]
    exact hkeeps

end

/-- Every step that is paced keeps the count. -/
theorem Counted.step {h : History} (hc : Counted h) (s : EngineStep)
    (hfresh : s.renders h.engine = true → h.fresh < 2 ^ 32 - Pacer.maxBacklog) :
    Counted (h.step s) := by
  cases s.effect h.engine with
  | quiet same _ issues events renders =>
    exact hc.same same (by rw [issues]; rfl) renders events
  | queues command same _ issues ops renders =>
    exact hc.same same (by rw [issues]; rfl) renders (by rw [ops]; rfl)
  | ticks state issues ops renders => exact hc.tick state (issues h.ticks) ops renders
  | block state issues ops renders =>
    exact (hc.block (hfresh renders) state (issues h.ticks) ops renders).1

theorem counted_run {settings : Settings} {e : Engine} (he : Engine.create settings = .ok e)
    {steps : List EngineStep} (hp : Paced (2 ^ 32 - Pacer.maxBacklog) (start e) steps) :
    Counted ((start e).run steps) :=
  run_induction (fun _ s hc hfresh => hc.step s hfresh) (counted_start he) hp

/-- No frame tick goes missing. At any time the ticks known to be applied are those that the
chip has had, and no more than a second of ticks waits. After an update that gives a block, the
ticks known to be applied, dropped and pending add up to the ticks issued, and so to the count
that the update read. It drops ticks only if old backlog and new ticks together are more than
240, and then the excess. An update that gives no block changes nothing. -/
theorem ticks_conserved {settings : Settings} {e : Engine}
    (he : Engine.create settings = .ok e) (steps : List EngineStep)
    (hp : Paced (2 ^ 32 - 240) (start e) steps) :
    let h := (start e).run steps
    let known := h.engine.published
    h.engine.chip = e.chip.after h.performed ∧
    known.ticksApplied = h.performed.count .frameTick ∧
    known.ticksPending ≤ 240 ∧
    ∀ pool : Pool,
      let known' := (h.step (.update pool)).engine.published
      ((h.engine.update pool).1.isSome = false → known' = known) ∧
      ((h.engine.update pool).1.isSome = true → h.fresh < 2 ^ 32 - 240 →
        known'.ticksApplied + known'.ticksDropped + known'.ticksPending = h.ticks ∧
        h.engine.ticksIssued
          = UInt32.ofNat
              (known'.ticksApplied + known'.ticksDropped + known'.ticksPending) ∧
        known'.ticksDropped = known.ticksDropped + (known.ticksPending + h.fresh - 240)) := by
  intro h known
  have hc : Counted h := counted_run he hp
  refine ⟨chip_run rfl steps, ?_, ?_, ?_⟩
  · exact hc.known.applied.trans hc.applied
  · exact hc.known.pending.symm ▸ hc.tracks.pending_le
  · intro pool known'
    constructor
    · intro hskipped
      obtain ⟨skipped, hstate⟩ := Engine.update_of_none hskipped
      show (h.engine.update pool).2.1.published = known
      rw [hstate]
    · intro hsome hfresh
      obtain ⟨hnext, hobserved, hdropped⟩ :=
        hc.block (s := .update pool) hfresh (Engine.update_of_some hsome) rfl (if_pos hsome) hsome
      have htotal : known'.ticksApplied + known'.ticksDropped + known'.ticksPending = h.ticks := by
        rw [hnext.known.applied, hnext.known.dropped, hnext.known.pending]
        exact hnext.tracks.total.trans hobserved
      refine ⟨htotal, ?_, ?_⟩
      · rw [htotal]
        exact hc.word
      · rw [hnext.known.dropped, hdropped, hc.known.dropped, hc.known.pending]
        rfl

/-- Two ticks are issued ahead of the first block. It makes two known and drops none. -/
theorem two_ticks_conserved :
    ∃ e : Engine, Engine.create {} = .ok e ∧
      Paced (2 ^ 32 - 240) (start e) [.startTimer, .tick, .tick] ∧
      let h := (start e).run [.startTimer, .tick, .tick]
      let known := (h.step (.update (.create 2))).engine.published
      (h.engine.update (.create 2)).1.isSome = true ∧ h.fresh = 2 ∧
      known.ticksApplied + known.ticksDropped + known.ticksPending = 2 ∧
      known.ticksDropped = 0 := by
  obtain ⟨e, he⟩ : ∃ e : Engine, Engine.create {} = .ok e := ⟨_, rfl⟩
  have hstart := Engine.create_eq_ok he
  have hp : Paced (2 ^ 32 - 240) (start e) [.startTimer, .tick, .tick] :=
    ⟨nofun, nofun, nofun, trivial⟩
  obtain ⟨-, -, -, hupdate⟩ := ticks_conserved he [.startTimer, .tick, .tick] hp
  have hsome : (((start e).run [.startTimer, .tick, .tick]).engine.update
      (.create 2)).1.isSome = true := by
    rw [hstart]
    rfl
  have hfresh : ((start e).run [.startTimer, .tick, .tick]).fresh = 2 := by
    rw [hstart]
    rfl
  have hticks : ((start e).run [.startTimer, .tick, .tick]).ticks = 2 := by
    rw [hstart]
    rfl
  have hknown : ((start e).run [.startTimer, .tick, .tick]).engine.published = {} := by
    rw [hstart]
    rfl
  obtain ⟨htotal, -, hdropped⟩ :=
    (hupdate (.create 2)).2 hsome (by rw [hfresh]; decide)
  rw [hknown, hfresh] at hdropped
  exact ⟨e, he, hp, hsome, hfresh, htotal.trans hticks, hdropped⟩

end History

end Chiptune
