import Chiptune.Proofs.Engine.Run
import Chiptune.Proofs.Pool

/-!
# `Chiptune.Proofs.Engine.Skips`: skipped blocks leave no trace

An update gives no block while playback is being stopped, and none when the pool has no pair.
Nothing but two counts tells afterwards that it was asked for: the engine's count of skipped
blocks and the pool's count of failures.

A `Playback` is an engine with the pool it shares and the blocks it has rendered. That the
counts do not matter is a statement about two runs: `Playback.uncounted` leaves them out, and
`Playback.uncounted_step` says that a step does the same with and without them. Skipped updates
leave the uncounted playback as it is, and a whole pause of a running timer even the counted one
(`Playback.run_pause`).

* `Engine.update_of_stopping`, `Engine.update_of_few`: what an update leaves that gives no block.
* `Playback.Sound`: no run overfills the pool or has the timer running while playback is being
  stopped.
* `Playback.Abridged`: a list of steps without some skipped updates and some pauses.
* `Playback.skips_invisible`: the main statement, over every run.
-/

set_option autoImplicit false

namespace Chiptune

namespace Engine

/-- The engine without its count of skipped blocks. -/
def uncounted (e : Engine) : Engine := { e with blocksSkipped := 0 }

/-- Playback is not being stopped while the timer runs. -/
def Steady (e : Engine) : Prop := e.timerRunning = true → e.stopping = false

section
variable {e : Engine} {pool : Pool}

/-! ### Updates that give no block -/

/-- While playback is being stopped, an update does nothing at all. -/
theorem update_of_stopping (h : e.stopping = true) (pool : Pool) :
    e.update pool = (none, e, pool) := if_pos h

/-- An update that finds fewer than two blocks counts that, and does nothing else. -/
theorem update_of_few (hgoes : e.stopping = false) (hfits : pool.Fits)
    (hfew : pool.available < 2) :
    e.update pool
      = (none, { e with blocksSkipped := e.blocksSkipped + 1 },
        { pool with failures := pool.failures + 1 }) := by
  rw [update, if_neg (by simp [hgoes]),
    Pool.allocateStereo_of_few hfits hfew]

/-- Any other update fills the pair that it is handed. -/
theorem update_of_taken (hgoes : e.stopping = false) {stale : StereoBlock} {left : Pool}
    (htaken : pool.allocateStereo = (some stale, left)) :
    e.update pool
      = (some (stale.fill nextFrame e.beginBlock).1,
        (stale.fill nextFrame e.beginBlock).2.publish, left) := by
  rw [update, if_neg (by simp [hgoes]), htaken]

theorem update_eq_none_iff (hfits : pool.Fits) :
    (e.update pool).1 = none ↔ e.stopping = true ∨ pool.available < 2 := by
  constructor
  · intro hnone
    cases hstop : e.stopping with
    | true => exact Or.inl rfl
    | false =>
      rcases Nat.lt_or_ge pool.available 2 with hfew | hmany
      · exact Or.inr hfew
      · obtain ⟨left, right, rest, -, htaken⟩ := Pool.allocateStereo_of_many hmany
        rw [update_of_taken hstop htaken] at hnone
        nomatch hnone
  · intro hskips
    cases hstop : e.stopping with
    | true => rw [update_of_stopping hstop]
    | false =>
      have hfew : pool.available < 2 := by simpa [hstop] using hskips
      rw [update_of_few hstop hfits hfew]

theorem fits_update (e : Engine) (hfits : pool.Fits) : (e.update pool).2.2.Fits := by
  cases hstop : e.stopping with
  | true =>
    rw [update_of_stopping hstop]
    exact hfits
  | false =>
    have hleft := hfits.allocateStereo
    cases htaken : pool.allocateStereo with
    | mk pair left =>
      rw [htaken] at hleft
      cases pair with
      | none =>
        rw [update, if_neg (by simp [hstop]), htaken]
        exact hleft
      | some stale =>
        rw [update_of_taken hstop htaken]
        exact hleft

/-! ### The count of skipped blocks -/

theorem beforeSample_uncounted (e : Engine) :
    e.uncounted.beforeSample = e.beforeSample.uncounted :=
  beforeSample_of_semiconj (f := uncounted) (fun _ => rfl) (fun _ => rfl) (fun _ => rfl)
    (fun _ => rfl) e

theorem nextFrame_uncounted (e : Engine) :
    e.uncounted.nextFrame = (e.nextFrame.1, e.nextFrame.2.uncounted) := by
  unfold nextFrame
  rw [beforeSample_uncounted]
  rfl

/-- What an update gives does not depend on the counts, and it leaves the same but for them. -/
theorem update_uncounted (e : Engine) (hfits : pool.Fits) :
    (e.uncounted.update pool.uncounted).1 = (e.update pool).1 ∧
      (e.uncounted.update pool.uncounted).2.1.uncounted = (e.update pool).2.1.uncounted ∧
      (e.uncounted.update pool.uncounted).2.2.uncounted = (e.update pool).2.2.uncounted := by
  cases hstop : e.stopping with
  | true =>
    rw [update_of_stopping hstop, update_of_stopping (e := e.uncounted) hstop]
    exact ⟨rfl, rfl, rfl⟩
  | false =>
    -- Both pools hand out the same pair or none.
    obtain ⟨hpair, hleft⟩ := Pool.uncounted_allocateStereo hfits
    rcases Nat.lt_or_ge pool.available 2 with hfew | hmany
    · rw [update_of_few hstop hfits hfew,
        update_of_few (e := e.uncounted) hstop hfits.uncounted hfew]
      exact ⟨rfl, rfl, rfl⟩
    · obtain ⟨left, right, rest, -, htaken⟩ := Pool.allocateStereo_of_many hmany
      rw [htaken] at hpair hleft
      have htaken' : pool.uncounted.allocateStereo
          = (some ⟨left, right⟩, pool.uncounted.allocateStereo.2) := Prod.ext hpair rfl
      have hfill := StereoBlock.fill_of_semiconj nextFrame_uncounted ⟨left, right⟩ e.beginBlock
      rw [update_of_taken hstop htaken, update_of_taken (e := e.uncounted) hstop htaken',
        show e.uncounted.beginBlock = e.beginBlock.uncounted from rfl, hfill]
      generalize StereoBlock.fill nextFrame ⟨left, right⟩ e.beginBlock = filled
      exact ⟨rfl, rfl, hleft⟩

/-! ### Running timers -/

theorem Steady.afterFrames (n : Nat) (h : e.Steady) : (e.afterFrames n).Steady := by
  obtain ⟨_, _, _, hparts⟩ := e.afterFrames_parts n
  rw [hparts]
  exact h

theorem Steady.publish (h : e.Steady) : e.publish.Steady := h

theorem Steady.update (h : e.Steady) (pool : Pool) : (e.update pool).2.1.Steady := by
  cases hgives : (e.update pool).1.isSome with
  | true =>
    rw [update_of_some hgives]
    exact (Steady.afterFrames (e := e.beginBlock) blockSize h).publish
  | false =>
    obtain ⟨skipped, hstate⟩ := update_of_none hgives
    rw [hstate]
    exact h

theorem Steady.push (h : e.Steady) (command : Command) : (e.push command).state.Steady := by
  obtain ⟨dropped, hstate⟩ := e.push_state command
  rw [hstate]
  exact h

end

end Engine

namespace EngineStep

/-- Whether the step asks for a block. -/
def isUpdate : EngineStep → Bool
  | update _ => true
  | _ => false

/-- No step leaves the timer running while playback is being stopped. -/
theorem steady_run {e : Engine} (h : e.Steady) (s : EngineStep) : (s.run e).Steady := by
  cases s with
  | write address value =>
    show (e.write address value).state.Steady
    unfold Engine.write
    split
    · exact h.push _
    · exact h
  | reset => exact h.push .reset
  | tick =>
    show e.tick.Steady
    unfold Engine.tick
    split
    · exact h
    · exact h
  | startTimer =>
    show e.startTimer.state.Steady
    rw [e.startTimer_state]
    exact fun _ => rfl
  | stopTimer => exact nofun
  | load data offset => exact h
  | setRate sampleRate => exact h
  | setOptions options => exact h
  | update pool => exact h.update pool

theorem push_uncounted (e : Engine) (command : Command) :
    (e.uncounted.push command).state = (e.push command).state.uncounted := by
  cases h : e.commands.isFull with
  | true => rw [Engine.push_of_full h, Engine.push_of_full (e := e.uncounted) h]; rfl
  | false => rw [Engine.push_of_space h, Engine.push_of_space (e := e.uncounted) h]; rfl

/-- What the host does, it does in the same way whatever has been skipped before. -/
theorem run_uncounted (s : EngineStep) (h : s.isUpdate = false) (e : Engine) :
    s.run e.uncounted = (s.run e).uncounted := by
  cases s with
  | write address value =>
    show (e.uncounted.write address value).state = (e.write address value).state.uncounted
    unfold Engine.write
    split
    · exact push_uncounted e _
    · rfl
  | reset => exact push_uncounted e .reset
  | tick =>
    show e.uncounted.tick = e.tick.uncounted
    by_cases hstop : e.stopping = true
    · simp [Engine.tick, Engine.uncounted, hstop]
    · simp [Engine.tick, Engine.uncounted, hstop]
  | startTimer =>
    show e.uncounted.startTimer.state = e.startTimer.state.uncounted
    rw [e.startTimer_state, e.uncounted.startTimer_state]
    rfl
  | stopTimer => rfl
  | load data offset => rfl
  | setRate sampleRate => rfl
  | setOptions options => rfl
  | update pool => nomatch h

end EngineStep

/-! ### Playbacks -/

/-- An engine that shares a pool with other users, and the blocks that it has rendered. -/
structure Playback where
  engine : Engine
  pool : Pool
  /-- Blocks given to the audio graph, in order. -/
  rendered : List StereoBlock := []

/-- Something that happens to a playback. -/
inductive PlaybackStep where
  /-- The host asks something of the engine, or its timer fires. -/
  | host (step : EngineStep) (notUpdate : step.isUpdate = false := by rfl)
  /-- Another user of the pool takes blocks or gives blocks back. -/
  | pool (op : PoolOp)
  /-- The audio graph asks the engine for a block. -/
  | update

namespace PlaybackStep

/-- Whether the step is by another user of the pool. -/
def isPool : PlaybackStep → Bool
  | pool _ => true
  | host _ _ | update => false

/-- Whether the host is not the one who acts: the timer fires, or the audio side does
something. -/
def isPassive : PlaybackStep → Bool
  | host .tick _ | pool _ | update => true
  | host _ _ => false

end PlaybackStep

namespace Playback

/-- The playback after a step. -/
def step (p : Playback) : PlaybackStep → Playback
  | .host step _ => { p with engine := step.run p.engine }
  | .pool op => { p with pool := op.run p.pool }
  | .update =>
    let (block, engine, pool) := p.engine.update p.pool
    { engine := engine, pool := pool, rendered := p.rendered ++ block.toList }

/-- The playback after a list of steps. -/
def run (p : Playback) (steps : List PlaybackStep) : Playback := steps.foldl step p

/-- A new playback. -/
def start (e : Engine) (blocks : Nat) : Playback := { engine := e, pool := .create blocks }

/-- The playback without the counts of what has been skipped. -/
def uncounted (p : Playback) : Playback :=
  { p with engine := p.engine.uncounted, pool := p.pool.uncounted }

theorem run_append (p : Playback) (steps more : List PlaybackStep) :
    p.run (steps ++ more) = (p.run steps).run more := List.foldl_append

/-- What every run keeps: the pool is not overfull, and a running timer is not being stopped. -/
structure Sound (p : Playback) : Prop where
  fits : p.pool.Fits
  steady : p.engine.Steady

section
variable {p q : Playback}

theorem sound_start {settings : Settings} {e : Engine} (he : Engine.create settings = .ok e)
    (blocks : Nat) : (start e blocks).Sound where
  fits := Pool.fits_create blocks
  steady := by
    rw [Engine.create_eq_ok he]
    exact nofun

theorem Sound.step (h : p.Sound) (s : PlaybackStep) : (p.step s).Sound := by
  cases s with
  | host step notUpdate => exact ⟨h.fits, step.steady_run h.steady⟩
  | pool op => exact ⟨h.fits.run op, h.steady⟩
  | update => exact ⟨p.engine.fits_update h.fits, h.steady.update p.pool⟩

theorem Sound.run (h : p.Sound) (steps : List PlaybackStep) : (p.run steps).Sound := by
  induction steps generalizing p with
  | nil => exact h
  | cons s rest ih => exact ih (h.step s)

/-! ### Skipped updates and pauses -/

/-- An update that gives no block leaves nothing but counts. -/
theorem uncounted_step_of_skipped (h : p.Sound) (hnone : (p.engine.update p.pool).1 = none) :
    (p.step .update).uncounted = p.uncounted := by
  have hempty : p.rendered ++ (none : Option StereoBlock).toList = p.rendered :=
    List.append_nil _
  unfold Playback.step
  cases hstop : p.engine.stopping with
  | true =>
    rw [Engine.update_of_stopping hstop]
    dsimp only
    rw [hempty]
  | false =>
    have hfew : p.pool.available < 2 := by
      simpa [hstop] using (Engine.update_eq_none_iff h.fits).mp hnone
    rw [Engine.update_of_few hstop h.fits hfew]
    dsimp only
    rw [hempty]
    rfl

/-- While playback is being stopped, only the other users of the pool change anything. The
engine is named because the playback goes on with another one. -/
theorem run_of_stopping {e : Engine} (hstop : e.stopping = true) (p : Playback)
    {during : List PlaybackStep} (hpassive : ∀ s ∈ during, s.isPassive = true) :
    { p with engine := e }.run during
      = { p.run (during.filter PlaybackStep.isPool) with engine := e } := by
  -- The engine stands still from step to step, while the pool may be another one each time.
  induction during generalizing p with
  | nil => rfl
  | cons s rest ih =>
    obtain ⟨hs, hrest⟩ := List.forall_mem_cons.mp hpassive
    cases s with
    | pool op => exact ih { p with pool := op.run p.pool } hrest
    | update =>
      have hsame : { p with engine := e }.step .update = { p with engine := e } := by
        simp [Playback.step, Engine.update_of_stopping hstop]
      show ({ p with engine := e }.step .update).run rest = _
      rw [hsame]
      exact ih p hrest
    | host step notUpdate =>
      cases step with
      | tick =>
        have hsame : { p with engine := e }.step (.host .tick) = { p with engine := e } := by
          simp [Playback.step, EngineStep.run, Engine.tick, hstop]
        show ({ p with engine := e }.step (.host .tick)).run rest = _
        rw [hsame]
        exact ih p hrest
      | _ => exact absurd hs Bool.false_ne_true

/-- Other users of the pool leave the engine alone. -/
theorem engine_run_pool (p : Playback) (steps : List PlaybackStep) :
    (p.run (steps.filter PlaybackStep.isPool)).engine = p.engine := by
  induction steps generalizing p with
  | nil => rfl
  | cons s rest ih =>
    cases s with
    | pool op => exact ih { p with pool := op.run p.pool }
    | host step notUpdate => exact ih p
    | update => exact ih p

/-- A pause of a running timer is as good as none. -/
theorem run_pause (h : p.Sound) (hruns : p.engine.timerRunning = true)
    {during : List PlaybackStep} (hpassive : ∀ s ∈ during, s.isPassive = true) :
    p.run (.host .stopTimer :: during ++ [.host .startTimer])
      = p.run (during.filter PlaybackStep.isPool) := by
  have hgoes : p.engine.stopping = false := h.steady hruns
  let paused : Engine := { p.engine with stopping := true, timerRunning := false }
  have hpaused : p.run (.host .stopTimer :: during)
      = { p.run (during.filter PlaybackStep.isPool) with engine := paused } :=
    run_of_stopping (e := paused) rfl p hpassive
  -- Starting the timer again undoes the two flags that stopping it has set.
  have hagain : paused.startTimer.state = p.engine := by
    rw [paused.startTimer_state]
    show { p.engine with stopping := false, timerRunning := true } = p.engine
    rw [← hgoes, ← hruns]
  rw [run_append, hpaused]
  show { p.run (during.filter PlaybackStep.isPool) with engine := paused.startTimer.state } = _
  rw [hagain, ← engine_run_pool p during]

/-! ### Two runs side by side -/

theorem uncounted_step (h : p.Sound) (s : PlaybackStep) :
    (p.uncounted.step s).uncounted = (p.step s).uncounted := by
  cases s with
  | host step notUpdate =>
    have hengine := step.run_uncounted notUpdate p.engine
    show { p.uncounted with engine := (step.run p.engine.uncounted).uncounted } = _
    rw [hengine]
    rfl
  | pool op =>
    have hpool := Pool.uncounted_run h.fits op
    show { p.uncounted with pool := (op.run p.pool.uncounted).uncounted } = _
    rw [hpool]
    rfl
  | update =>
    obtain ⟨hblock, hengine, hpool⟩ := Engine.update_uncounted p.engine h.fits
    have hrendered : (p.uncounted.step .update).rendered = (p.step .update).rendered := by
      show p.rendered ++ (p.engine.uncounted.update p.pool.uncounted).1.toList
        = p.rendered ++ (p.engine.update p.pool).1.toList
      rw [hblock]
    -- Engine and pool are compared without their counts, the blocks as they are.
    show Playback.mk _ _ _ = Playback.mk _ _ _
    rw [Playback.mk.injEq]
    exact ⟨hengine, hpool, hrendered⟩

theorem step_congr (hp : p.Sound) (hq : q.Sound) (h : p.uncounted = q.uncounted)
    (s : PlaybackStep) : (p.step s).uncounted = (q.step s).uncounted := by
  rw [← uncounted_step hp, h, uncounted_step hq]

theorem run_congr (hp : p.Sound) (hq : q.Sound) (h : p.uncounted = q.uncounted)
    (steps : List PlaybackStep) : (p.run steps).uncounted = (q.run steps).uncounted := by
  induction steps generalizing p q with
  | nil => exact h
  | cons s rest ih => exact ih (hp.step s) (hq.step s) (step_congr hp hq h s)

/-- `fewer` is what is left of `steps`, done to `p`, without some of the updates that give no
block and some of the pauses. During a pause the host does nothing, and what others do to the
pool stays. -/
inductive Abridged : Playback → List PlaybackStep → List PlaybackStep → Prop where
  | nil {p : Playback} : Abridged p [] []
  | keep {p : Playback} (s : PlaybackStep) {steps fewer : List PlaybackStep}
      (rest : Abridged (p.step s) steps fewer) : Abridged p (s :: steps) (s :: fewer)
  | skip {p : Playback} {steps fewer : List PlaybackStep}
      (none : (p.engine.update p.pool).1 = none)
      (rest : Abridged (p.step .update) steps fewer) : Abridged p (.update :: steps) fewer
  | pause {p : Playback} {during steps fewer : List PlaybackStep}
      (runs : p.engine.timerRunning = true)
      (passive : ∀ s ∈ during, s.isPassive = true)
      (rest : Abridged (p.run (.host .stopTimer :: during ++ [.host .startTimer])) steps fewer) :
      Abridged p (.host .stopTimer :: during ++ .host .startTimer :: steps)
        (during.filter PlaybackStep.isPool ++ fewer)

/-- What has been left out shows in the counts only. -/
theorem Abridged.uncounted_run {steps fewer : List PlaybackStep} (hab : Abridged p steps fewer)
    (hp : p.Sound) (hq : q.Sound) (h : p.uncounted = q.uncounted) :
    (p.run steps).uncounted = (q.run fewer).uncounted := by
  -- Both runs go on in step: a step that is kept is done in both, one that is left out only
  -- changes counts.
  induction hab generalizing q with
  | nil => exact h
  | keep s _ ih => exact ih (hp.step s) (hq.step s) (step_congr hp hq h s)
  | skip hnone _ ih =>
    exact ih (hp.step .update) hq ((uncounted_step_of_skipped hp hnone).trans h)
  | @pause p during steps fewer hruns hpassive _ ih =>
    have hsame := run_pause hp hruns hpassive
    have hpools := run_congr hp hq h (during.filter PlaybackStep.isPool)
    have hsplit : PlaybackStep.host .stopTimer :: during ++ .host .startTimer :: steps
        = (.host .stopTimer :: during ++ [.host .startTimer]) ++ steps := by simp
    rw [hsplit, run_append _ _ steps, run_append q]
    exact ih (hp.run _) (hq.run _) (by rw [hsame, hpools])

end

/-- A skipped block is invisible. An update gives none exactly if playback is being stopped or
the pool holds fewer than two blocks. In the first case it does nothing, in the second it adds
one to either count, so chip, commands, pacer and free blocks stay as they are. Over every run
with any number of blocks, leaving out such updates and pauses of a running timer leaves the
same rendered blocks, the same chip and, but for those counts, the same engine and pool. -/
theorem skips_invisible {settings : Settings} {e : Engine}
    (he : Engine.create settings = .ok e) :
    (∀ (e : Engine) (pool : Pool), pool.available ≤ pool.capacity →
      ((e.update pool).1 = none ↔ e.stopping = true ∨ pool.available < 2) ∧
      (e.stopping = true → e.update pool = (none, e, pool)) ∧
      (e.stopping = false → pool.available < 2 →
        e.update pool
          = (none, { e with blocksSkipped := e.blocksSkipped + 1 },
            { pool with failures := pool.failures + 1 }))) ∧
    ∀ (blocks : Nat) (steps fewer : List PlaybackStep),
      let p := (start e blocks).run steps
      let q := (start e blocks).run fewer
      p.pool.available ≤ p.pool.capacity ∧
      (Abridged (start e blocks) steps fewer →
        q.rendered = p.rendered ∧ q.engine.chip = p.engine.chip ∧
          q.pool.free = p.pool.free ∧ q.uncounted = p.uncounted) := by
  constructor
  · intro e pool hfits
    refine ⟨Engine.update_eq_none_iff hfits, ?_, ?_⟩
    · intro hstop
      exact Engine.update_of_stopping hstop pool
    · intro hgoes hfew
      exact Engine.update_of_few hgoes hfits hfew
  · intro blocks steps fewer p q
    have hsound : (start e blocks).Sound := sound_start he blocks
    refine ⟨(hsound.run steps).fits, ?_⟩
    intro hab
    have hsame : q.uncounted = p.uncounted := (hab.uncounted_run hsound hsound rfl).symm
    refine ⟨?_, ?_, ?_, hsame⟩
    · show q.uncounted.rendered = p.uncounted.rendered
      rw [hsame]
    · show q.uncounted.engine.chip = p.uncounted.engine.chip
      rw [hsame]
    · show q.uncounted.pool.free = p.uncounted.pool.free
      rw [hsame]

/-- A pause in which another user takes a block, and an update that finds only one left, leave
the one block that is rendered afterwards as it is. -/
theorem pause_and_shortage_invisible :
    ∃ e : Engine, Engine.create {} = .ok e ∧
      let steps : List PlaybackStep :=
        [.host .startTimer, .host (.write 0x15 0x01), .host .stopTimer, .update, .pool .allocate,
          .host .tick, .host .startTimer, .update, .pool (.release (.filled 0)), .update]
      let fewer : List PlaybackStep :=
        [.host .startTimer, .host (.write 0x15 0x01), .pool .allocate,
          .pool (.release (.filled 0)), .update]
      Abridged (start e 2) steps fewer ∧
        ((start e 2).run fewer).rendered = ((start e 2).run steps).rendered ∧
        ((start e 2).run steps).rendered.length = 1 := by
  obtain ⟨e, he⟩ : ∃ e : Engine, Engine.create {} = .ok e := ⟨_, rfl⟩
  have hstart := Engine.create_eq_ok he
  refine ⟨e, he, ?_⟩
  intro steps fewer
  have hab : Abridged (start e 2) steps fewer := by
    have hpassive : ∀ s ∈ [.update, .pool .allocate, .host .tick],
        PlaybackStep.isPassive s = true := by decide
    rw [hstart]
    exact .keep _ (.keep _ (.pause rfl hpassive (.skip rfl (.keep _ (.keep _ .nil)))))
  obtain ⟨-, hruns⟩ := skips_invisible he
  refine ⟨hab, ((hruns 2 steps fewer).2 hab).1, ?_⟩
  rw [hstart]
  rfl

end Playback

end Chiptune
