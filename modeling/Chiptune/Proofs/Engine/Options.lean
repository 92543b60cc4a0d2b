import Chiptune.Proofs.Engine.Skips

/-!
# `Chiptune.Proofs.Engine.Options`: output options do not reach the emulation

The options say how samples are mixed, and mixing writes to the memories of the filters and to the
count of samples that are not silent. `Chip.unheard` and `Engine.unheard` leave out all of that.
What happens to an unheard chip is what happens to the chip: each operation commutes with leaving
out, and a sample amounts to its clocks alone (`Chip.unheard_nextSample`), whatever the options.

Two playbacks run the same if their engines are the same unheard, their pools match and they have
rendered equally many blocks (`Playback.SameUnheard`). One step of both keeps that, and a change of
the options of one of them does. Rendered blocks go back to the pool with other samples, so the
blocks that other users give back need only correspond.

* `Playback.SameButOptions`: two lists of steps that differ by changes of options, and by what is in
  the blocks that come back.
* `Playback.options_unheard`: the main statement, over every run.
-/

set_option autoImplicit false

namespace Chiptune

namespace Chip

/-- The chip without what only the output path uses: the memories of the filters and the count of
samples that are not silent. -/
def unheard (c : Chip) : Chip :=
  { c with monoFilter := {}, leftFilter := {}, rightFilter := {}, nonSilentSamples := 0 }

/-! ### Operations on unheard chips -/

theorem dispatch_unheard (c : Chip) (register : Register) (value : UInt8) :
    c.unheard.dispatch register value = (c.dispatch register value).unheard := by
  cases register with
  | pulseControl id | pulseSweep id | pulseTimerLow id | pulseTimerHigh id => cases id <;> rfl
  | frameCounter =>
    show c.unheard.writeFrameCounter value = (c.writeFrameCounter value).unheard
    unfold writeFrameCounter
    dsimp only
    show (if (c.sequencer.write value).fiveStep then _ else _) = unheard (if _ then _ else _)
    split
    · rfl
    · rfl
  | _ => rfl

theorem write_unheard (c : Chip) (register : Register) (value : UInt8) :
    c.unheard.write register value = (c.write register value).unheard := by
  unfold write
  rw [← dispatch_unheard]
  unfold remember
  split
  · rfl
  · rfl

theorem frameTick_unheard (c : Chip) : c.unheard.frameTick = c.frameTick.unheard := by
  have hevents (c : Chip) (events : FrameEvents) :
      c.unheard.clockEvents events = (c.clockEvents events).unheard := by
    obtain ⟨_ | _, _ | _⟩ := events <;> rfl
  show { c.clockLinear.unheard.clockEvents c.sequencer.events with
    sequencer := (c.clockLinear.unheard.clockEvents c.sequencer.events).sequencer.advance } = _
  rw [hevents]
  rfl

theorem clock_unheard (c : Chip) : c.unheard.clock = c.clock.unheard := by
  unfold clock
  show (if c.evenClock then _ else _) = unheard (if _ then _ else _)
  split
  · rfl
  · rfl

theorem drain_unheard (fuel : Nat) (c : Chip) (accumulator : Float32) :
    drain fuel c.unheard accumulator = (drain fuel c accumulator).unheard := by
  induction fuel generalizing c accumulator with
  | zero => rfl
  | succ fuel ih =>
    unfold drain
    split
    · rw [clock_unheard]
      exact ih c.clock _
    · rfl

theorem runSampleClocks_unheard (c : Chip) :
    c.unheard.runSampleClocks = c.runSampleClocks.unheard := drain_unheard _ c _

/-- A sample amounts to its clocks, whatever the options are. -/
theorem unheard_nextSample (c : Chip) (options : RenderOptions) :
    (c.nextSample options).2.unheard = c.unheard.runSampleClocks := by
  obtain ⟨_, _, _, _, hemit⟩ := c.runSampleClocks.emit_eq options
  rw [runSampleClocks_unheard, nextSample, hemit]
  rfl

/-- In mono both sides of a frame are the same sample. -/
theorem sides_nextSample {options : RenderOptions} (hmono : options.stereo = false) (c : Chip) :
    (c.nextSample options).1.1 = (c.nextSample options).1.2 := by
  unfold nextSample emit mix
  rw [hmono]
  cases options.filters with
  | true => rfl
  | false => rfl

end Chip

theorem Command.apply_unheard (command : Command) (c : Chip) :
    command.apply c.unheard = (command.apply c).unheard := by
  cases command with
  | write register value => exact c.write_unheard register value
  | reset => rfl

/-- A block that is filled with frames of equal sides has equal sides. -/
theorem StereoBlock.sides_fill {σ : Type} {next : σ → Frame × σ} {s : σ} (stale : StereoBlock)
    (h : (produce next blockSize s).1.map Prod.fst = (produce next blockSize s).1.map Prod.snd) :
    (stale.fill next s).1.left = (stale.fill next s).1.right := by
  rw [fill_eq]
  simp only [ofSides, h]

namespace Engine

/-- The engine without its options and without what they reach. -/
def unheard (e : Engine) : Engine :=
  { e with
    chip := e.chip.unheard
    options := {}
    published := { e.published with nonSilentSamples := 0 } }

/-! ### Frames of unheard engines -/

theorem applyDue_unheard (p : Pacer) (fuel : Nat) (commands : Ring QueuedCommand) (chip : Chip) :
    applyDue p fuel commands chip.unheard
      = ((applyDue p fuel commands chip).1, (applyDue p fuel commands chip).2.unheard) := by
  induction fuel generalizing commands chip with
  | zero => rfl
  | succ fuel ih =>
    unfold applyDue
    split
    · rfl
    · split
      · rw [Command.apply_unheard]
        exact ih _ _
      · rfl

theorem applyCommands_unheard (e : Engine) :
    e.unheard.applyCommands = e.applyCommands.unheard := by
  have hdue := applyDue_unheard e.pacer e.commands.available e.commands e.chip
  show { e.unheard with
    commands := (applyDue e.pacer e.commands.available e.commands e.chip.unheard).1
    chip := (applyDue e.pacer e.commands.available e.commands e.chip.unheard).2 } = _
  rw [hdue]
  rfl

theorem released_unheard (e : Engine) : e.unheard.released = e.released.unheard := by
  show { e.unheard with pacer := e.pacer.advance.2, chip := e.chip.unheard.frameTick } = _
  rw [Chip.frameTick_unheard]
  rfl

theorem beforeSample_unheard (e : Engine) : e.unheard.beforeSample = e.beforeSample.unheard :=
  beforeSample_of_semiconj (f := unheard) (fun _ => rfl) (fun _ => rfl) applyCommands_unheard
    released_unheard e

/-- An unheard frame is the work ahead of it and the clocks of its sample. -/
theorem unheard_nextFrame (e : Engine) :
    e.nextFrame.2.unheard
      = { e.unheard.beforeSample with chip := e.unheard.beforeSample.chip.runSampleClocks } := by
  have hsample := e.beforeSample.chip.unheard_nextSample e.options
  -- Ahead of the sample nothing asks for the options. At the sample, the chip is left unheard.
  rw [nextFrame_eq, beforeSample_unheard]
  show { e.beforeSample.unheard with
    chip := (e.beforeSample.chip.nextSample e.options).2.unheard } = _
  rw [hsample]
  rfl

section
variable {e e' : Engine} {pool pool' : Pool}

theorem unheard_afterFrames_congr (n : Nat) (h : e.unheard = e'.unheard) :
    (e.afterFrames n).unheard = (e'.afterFrames n).unheard := by
  -- The frames that the two engines give may differ from the first one on. What carries the
  -- induction is that the engines are the same unheard.
  induction n generalizing e e' with
  | zero => exact h
  | succ n ih =>
    rw [afterFrames_succ, afterFrames_succ]
    exact ih (by rw [unheard_nextFrame, unheard_nextFrame, h])

theorem unheard_publish (e : Engine) : e.publish.unheard = e.unheard.publish.unheard := rfl

/-- An update gives a block from both engines or from neither, and leaves the same. -/
theorem unheard_update_congr {R : Block → Block → Prop} (h : e.unheard = e'.unheard)
    (hpool : pool.Matches R pool') :
    (e.update pool).1.isSome = (e'.update pool').1.isSome ∧
      (e.update pool).2.1.unheard = (e'.update pool').2.1.unheard ∧
      (e.update pool).2.2.Matches R (e'.update pool').2.2 := by
  have hstopping : e.unheard.stopping = e'.unheard.stopping := by rw [h]
  change e.stopping = e'.stopping at hstopping
  cases hstop : e.stopping with
  | true =>
    rw [hstop] at hstopping
    rw [update_of_stopping hstop, update_of_stopping hstopping.symm]
    exact ⟨rfl, h, hpool⟩
  | false =>
    rw [hstop] at hstopping
    obtain ⟨hgives, hleft⟩ := hpool.allocateStereo
    unfold update
    rw [if_neg (by simp [hstop]), if_neg (by simp [← hstopping])]
    -- The pools hand out a pair both or neither, and the engines fill it or count a skip.
    generalize pool.allocateStereo = r, pool'.allocateStereo = r' at hgives hleft
    obtain ⟨_ | stale, left⟩ := r <;> obtain ⟨_ | stale', left'⟩ := r'
    · refine ⟨rfl, ?_, hleft⟩
      exact congrArg (fun e => { e with blocksSkipped := e.blocksSkipped + 1 }) h
    · nomatch hgives
    · nomatch hgives
    · refine ⟨rfl, ?_, hleft⟩
      have hbegin : e.beginBlock.unheard = e'.beginBlock.unheard := congrArg beginBlock h
      have hframes := unheard_afterFrames_congr blockSize hbegin
      show (stale.fill nextFrame e.beginBlock).2.publish.unheard
        = (stale'.fill nextFrame e'.beginBlock).2.publish.unheard
      rw [StereoBlock.fill_snd, StereoBlock.fill_snd]
      show (e.beginBlock.afterFrames blockSize).publish.unheard
        = (e'.beginBlock.afterFrames blockSize).publish.unheard
      rw [unheard_publish, hframes, ← unheard_publish]

/-! ### Mono -/

@[simp] theorem options_nextFrame (e : Engine) : e.nextFrame.2.options = e.options := by
  rw [nextFrame_eq]
  exact e.options_beforeSample

theorem sides_produce (hmono : e.options.stereo = false) (n : Nat) :
    (produce nextFrame n e).1.map Prod.fst = (produce nextFrame n e).1.map Prod.snd := by
  induction n generalizing e with
  | zero => rfl
  | succ n ih =>
    -- No command that is carried out in between touches the options, so mono stays mono.
    have hframe : e.nextFrame.1.1 = e.nextFrame.1.2 :=
      Chip.sides_nextSample (by rw [options_beforeSample, hmono]) e.beforeSample.chip
    have hrest := ih (e := e.nextFrame.2) (by rw [options_nextFrame, hmono])
    rw [produce_succ, List.map_cons, List.map_cons, hframe, hrest]

/-- In mono both sides of a block are the same. -/
theorem sides_update (hmono : e.options.stereo = false) {block : StereoBlock}
    (hgives : (e.update pool).1 = some block) : block.left = block.right := by
  cases hstop : e.stopping with
  | true =>
    rw [update_of_stopping hstop] at hgives
    cases hgives
  | false =>
    cases htaken : pool.allocateStereo with
    | mk pair left =>
      cases pair with
      | none =>
        rw [update, if_neg (by simp [hstop]), htaken] at hgives
        cases hgives
      | some stale =>
        rw [update_of_taken hstop htaken] at hgives
        rw [← Option.some.inj hgives]
        exact stale.sides_fill (sides_produce (e := e.beginBlock) hmono blockSize)

end

end Engine

/-! ### Steps of unheard engines -/

namespace EngineStep

theorem push_unheard (e : Engine) (command : Command) :
    (e.unheard.push command).state = (e.push command).state.unheard := by
  cases h : e.commands.isFull with
  | true => rw [Engine.push_of_full h, Engine.push_of_full (e := e.unheard) h]; rfl
  | false => rw [Engine.push_of_space h, Engine.push_of_space (e := e.unheard) h]; rfl

/-- What the host does, it does in the same way whatever the options are. -/
theorem run_unheard (s : EngineStep) (h : s.isUpdate = false) (e : Engine) :
    (s.run e.unheard).unheard = (s.run e).unheard := by
  cases s with
  | write address value =>
    show (e.unheard.write address value).state.unheard = (e.write address value).state.unheard
    unfold Engine.write
    split
    · rw [push_unheard]
      rfl
    · rfl
  | reset =>
    show (e.unheard.push .reset).state.unheard = (e.push .reset).state.unheard
    rw [push_unheard]
    rfl
  | tick =>
    show (if e.stopping then e.unheard else _).unheard = (if e.stopping then e else _).unheard
    split
    · rfl
    · rfl
  | startTimer =>
    show e.unheard.startTimer.state.unheard = e.startTimer.state.unheard
    rw [e.startTimer_state, e.unheard.startTimer_state]
    rfl
  | stopTimer => rfl
  | load data offset => rfl
  | setRate sampleRate => rfl
  | setOptions options => rfl
  | update pool => nomatch h

end EngineStep

/-! ### Two playbacks side by side -/

/-- The same happens to two playbacks. Blocks that come back to the pools correspond. -/
inductive PlaybackStep.Matches (R : Block → Block → Prop) : PlaybackStep → PlaybackStep → Prop where
  | host (step : EngineStep) (notUpdate : step.isUpdate = false) :
      Matches R (.host step notUpdate) (.host step notUpdate)
  | pool {op op' : PoolOp} (same : op.Matches R op') : Matches R (.pool op) (.pool op')
  | update : Matches R .update .update

namespace Playback

/-- The same steps, but for changes of the options that one of the two playbacks sees and the other
does not. -/
inductive SameButOptions (R : Block → Block → Prop) :
    List PlaybackStep → List PlaybackStep → Prop where
  | nil : SameButOptions R [] []
  | cons {s s' : PlaybackStep} {steps steps' : List PlaybackStep} (same : s.Matches R s')
      (rest : SameButOptions R steps steps') : SameButOptions R (s :: steps) (s' :: steps')
  | left (options : RenderOptions) {steps steps' : List PlaybackStep}
      (rest : SameButOptions R steps steps') :
      SameButOptions R (.host (.setOptions options) :: steps) steps'
  | right (options : RenderOptions) {steps steps' : List PlaybackStep}
      (rest : SameButOptions R steps steps') :
      SameButOptions R steps (.host (.setOptions options) :: steps')

/-- The playbacks cannot be told apart but by what is heard. -/
structure SameUnheard (R : Block → Block → Prop) (p q : Playback) : Prop where
  engine : p.engine.unheard = q.engine.unheard
  pool : p.pool.Matches R q.pool
  rendered : p.rendered.length = q.rendered.length

namespace SameUnheard

variable {R : Block → Block → Prop} {p q : Playback}

theorem step (h : p.SameUnheard R q) {s s' : PlaybackStep} (hs : s.Matches R s') :
    (p.step s).SameUnheard R (q.step s') := by
  cases hs with
  | host step notUpdate =>
    refine ⟨?_, h.pool, h.rendered⟩
    show (step.run p.engine).unheard = (step.run q.engine).unheard
    rw [← step.run_unheard notUpdate, h.engine, step.run_unheard notUpdate]
  | pool same => exact ⟨h.engine, h.pool.run same, h.rendered⟩
  | update =>
    obtain ⟨hgives, hengine, hpool⟩ := Engine.unheard_update_congr h.engine h.pool
    refine ⟨hengine, hpool, ?_⟩
    show (p.rendered ++ (p.engine.update p.pool).1.toList).length
      = (q.rendered ++ (q.engine.update q.pool).1.toList).length
    rw [List.length_append, List.length_append, Option.length_toList, Option.length_toList, hgives,
      h.rendered]

/-- Whatever options each of them sees, and when. -/
theorem run (h : p.SameUnheard R q) {steps steps' : List PlaybackStep}
    (hsame : SameButOptions R steps steps') : (p.run steps).SameUnheard R (q.run steps') := by
  -- A step that only one playback takes changes its options, which an unheard engine is without.
  induction hsame generalizing p q with
  | nil => exact h
  | cons same _ ih => exact ih (h.step same)
  | left options _ ih => exact ih ⟨h.engine, h.pool, h.rendered⟩
  | right options _ ih => exact ih ⟨h.engine, h.pool, h.rendered⟩

end SameUnheard

/-- Output options do not reach the emulation. Two playbacks that are created with any options, and
that see the same but for changes of the options, are the same unheard: only the memories of the
filters, the count of samples that are not silent and the rendered blocks may differ. The steps
are any, so this holds after each of them. With the same blocks given back the pools are equal,
with other ones they correspond. In mono both sides of every rendered block are the same. -/
theorem options_unheard {settings : Settings} {e : Engine} (he : Engine.create settings = .ok e)
    (stereo filters : Bool) :
    (∃ e' : Engine,
      Engine.create { settings with stereo := stereo, filters := filters } = .ok e' ∧
      ∀ (R : Block → Block → Prop), R (.filled 0) (.filled 0) →
      ∀ (blocks : Nat) (steps steps' : List PlaybackStep), SameButOptions R steps steps' →
        let p := (start e blocks).run steps
        let q := (start e' blocks).run steps'
        p.engine.unheard = q.engine.unheard ∧ p.pool.Matches R q.pool ∧
          p.rendered.length = q.rendered.length) ∧
    ∀ (e : Engine) (pool : Pool) (block : StereoBlock), e.options.stereo = false →
      (e.update pool).1 = some block → block.left = block.right := by
  constructor
  · have hring := Engine.ring_of_create he
    obtain ⟨e', he'⟩ : ∃ e', Engine.create
        { settings with stereo := stereo, filters := filters } = .ok e' :=
      ⟨_, Engine.create_of_ring hring⟩
    refine ⟨e', he', ?_⟩
    intro R hsilent blocks steps steps' hsame p q
    have hcreated : (start e blocks).SameUnheard R (start e' blocks) :=
      { engine := by
          show e.unheard = e'.unheard
          rw [Engine.create_eq_ok he, Engine.create_eq_ok he']
          rfl
        pool := Pool.matches_create hsilent blocks
        rendered := rfl }
    have hrun := hcreated.run hsame
    exact ⟨hrun.engine, hrun.pool, hrun.rendered⟩
  · intro e pool block hmono hgives
    exact Engine.sides_update hmono hgives

/-- A playback in stereo that goes over to filtered mono, and one that is filtered mono from the
start and then goes over to stereo, have done the same after two blocks. -/
theorem stereo_and_mono_unheard :
    ∃ e e' : Engine, Engine.create {} = .ok e ∧
      Engine.create { stereo := false, filters := true } = .ok e' ∧
      let steps : List PlaybackStep :=
        [.host .startTimer, .host (.write 0x15 0x01), .host .tick, .update,
          .host (.setOptions { filters := true }), .pool (.release (.filled 7)), .update]
      let steps' : List PlaybackStep :=
        [.host .startTimer, .host (.write 0x15 0x01), .host (.setOptions { stereo := true }),
          .host .tick, .update, .pool (.release (.filled 7)), .update]
      let p := (start e 4).run steps
      let q := (start e' 4).run steps'
      p.engine.unheard = q.engine.unheard ∧ p.pool = q.pool ∧ p.rendered.length = 2 ∧
        q.rendered.length = 2 ∧
        ∃ block, (e'.update (.create 2)).1 = some block ∧ block.left = block.right := by
  obtain ⟨e, he⟩ : ∃ e : Engine, Engine.create {} = .ok e := ⟨_, rfl⟩
  obtain ⟨⟨e', he', hruns⟩, hmono⟩ := options_unheard he false true
  refine ⟨e, e', he, he', ?_⟩
  intro steps steps' p q
  have hsame : SameButOptions Eq steps steps' :=
    .cons (.host _ _) (.cons (.host _ _) (.right _ (.cons (.host _ _) (.cons .update
      (.left _ (.cons (.pool (.release rfl)) (.cons .update .nil)))))))
  obtain ⟨hengine, hpool, hrendered⟩ := hruns Eq rfl 4 steps steps' hsame
  have htwo : p.rendered.length = 2 := by
    simp only [p, Engine.create_eq_ok he]
    decide +kernel
  have hgives : ∃ block, (e'.update (.create 2)).1 = some block := by
    rw [Engine.create_eq_ok he']
    exact ⟨_, rfl⟩
  obtain ⟨block, hblock⟩ := hgives
  refine ⟨hengine, hpool.eq, htwo, hrendered.symm.trans htwo, block, hblock, ?_⟩
  refine hmono e' (.create 2) block ?_ hblock
  rw [Engine.create_eq_ok he']

end Playback

end Chiptune
