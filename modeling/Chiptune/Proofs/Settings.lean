import Chiptune.Proofs.Chip.PowerUp
import Chiptune.Proofs.Engine.Skips
import Chiptune.Proofs.Relay.Run
import Chiptune.Proofs.Ring

/-!
# `Chiptune.Proofs.Settings`: what is accepted can be built and played

The settings are checked before anything is built from them, and the parts are built apart: the
engine with its command queue, the relay with its sample queue and the silence in it, the pool.
`Settings.validate_eq_ok_iff` says what the check asks for, `Settings.ringCapacity_iff` that its
test of a capacity is the one by which a ring can be made or not. Each part then has a lemma on what
is built: `Relay.create_of_ring` and `Relay.toList_prefillSilence`, `Pool.createFor_of_fits`,
`Engine.isSome_update`.

No step of a run changes the sample rate but the one that sets it (`History.retune_performed`), so
the chip keeps the rate of the settings.

`Settings.validated_plays` is the main statement.
-/

set_option autoImplicit false

namespace Chiptune

/-! ### The check -/

namespace Settings

/-- What is asked of settings. -/
structure Accepted (s : Settings) : Prop where
  sampleRate : minSampleRate ≤ s.sampleRate
  commandQueue : ringCapacity s.commandQueueCapacity = true
  dacBuffer : ringCapacity s.dacBufferCapacity = true
  prefill : s.dacPrefillSamples < s.dacBufferCapacity
  blocks : 2 ≤ s.audioMemoryBlocks

theorem ite_some_eq_none_iff {α : Type} {p : Prop} [Decidable p] {a : α} {rest : Option α} :
    (if p then some a else rest) = none ↔ ¬p ∧ rest = none := by
  split
  · next h => simp [h]
  · next h => simp [h]

theorem validate_eq_ok_iff (s : Settings) : s.validate = .ok () ↔ s.Accepted := by
  have hfault : s.validate = .ok () ↔ s.fault? = none := by
    unfold validate
    split
    · next h => simp [h]
    · next h => simp [h]
  rw [hfault]
  simp only [fault?, ite_some_eq_none_iff, UInt32.not_lt, UInt64.not_lt, UInt64.not_le,
    Bool.not_eq_true', Bool.not_eq_false, and_true]
  constructor
  · rintro ⟨hrate, hqueue, hbuffer, hprefill, hblocks⟩
    exact ⟨hrate, hqueue, hbuffer, hprefill, hblocks⟩
  · rintro ⟨hrate, hqueue, hbuffer, hprefill, hblocks⟩
    exact ⟨hrate, hqueue, hbuffer, hprefill, hblocks⟩

theorem ringCapacity_iff {α : Type} (capacity : UInt64) :
    ringCapacity capacity = true ↔ ∃ made : Ring α, Ring.create capacity.toNat = .ok made := by
  rw [Ring.create_eq_ok_iff, ringCapacity, Bool.and_eq_true, decide_eq_true_iff,
    Ring.isPowerOfTwo_iff]

/-- The two queues and the references to the blocks each fit into a piece of memory. -/
structure FitsMemory (s : Settings) : Prop where
  commands : fitsStorage Engine.commandBytes (s.commandQueueCapacity.toNat - 1) = true
  samples : fitsStorage Relay.sampleBytes (s.dacBufferCapacity.toNat - 1) = true
  blocks : fitsStorage Pool.referenceBytes s.audioMemoryBlocks.toNat = true

end Settings

/-! ### The parts -/

namespace Relay

theorem create_of_ring {capacity : Nat} {ring : Ring Int16}
    (h : Ring.createFor sampleBytes capacity = .ok ring) (prefill : Nat) :
    create capacity prefill
      = .ok ((({ ring := ring } : Relay).prefillSilence prefill).map fun _ => ()) := by
  unfold create
  rw [h]
  rfl

/-- Silence that leaves a slot of an empty queue free is queued whole. -/
theorem toList_prefillSilence {capacity prefill : Nat} (h : prefill < capacity) :
    let o := ({ ring := { capacity := capacity } } : Relay).prefillSilence prefill
    o.state.ring.toList = List.replicate prefill 0 ∧ o.notices = [.relayPrefilled prefill] := by
  intro o
  -- The bound is tight: a ring holds one element less than its capacity.
  have hspace : ({ capacity := capacity } : Ring Int16).space = capacity - 1 := rfl
  obtain ⟨hresult, queue, hstate, htoList, -⟩ :=
    prefillSilence_queues { ring := { capacity := capacity } } prefill
  rw [hspace, Nat.min_eq_left (Nat.le_sub_one_of_lt h)] at hresult htoList
  constructor
  · rw [hstate]
    exact htoList
  · show [Notice.relayPrefilled o.result] = _
    rw [hresult]

end Relay

namespace Pool

theorem createFor_of_fits {blocks : Nat} (h : fitsStorage referenceBytes blocks = true) :
    createFor blocks = .ok (create blocks) := if_pos h

theorem allocateStereo_create {blocks : Nat} (h : 2 ≤ blocks) :
    ∃ stale left, (create blocks).allocateStereo = (some stale, left) := by
  have hmany : 2 ≤ (create blocks).available := by
    rw [available, create, Array.size_replicate]
    exact h
  obtain ⟨_, _, _, -, htaken⟩ := allocateStereo_of_many hmany
  exact ⟨_, _, htaken⟩

end Pool

theorem Engine.isSome_update {e : Engine} {pool left : Pool} {stale : StereoBlock}
    (hgoes : e.stopping = false) (htaken : pool.allocateStereo = (some stale, left)) :
    (e.update pool).1.isSome = true := by
  rw [update_of_taken hgoes htaken]
  rfl

/-! ### The sample rate -/

/-- Whether the step sets the sample rate. -/
def EngineStep.setsRate : EngineStep → Bool
  | setRate _ => true
  | _ => false

namespace Engine

theorem retune_due (queued : List QueuedCommand) (rate : UInt32) :
    (queued.map (·.command.op)).foldl ChipOp.retune rate = rate := by
  induction queued with
  | nil => rfl
  | cons first rest ih =>
    -- Neither a register write nor a reset changes the rate.
    obtain ⟨tick, _ | _⟩ := first
    · exact ih
    · exact ih

theorem retune_beforeSampleOps (e : Engine) (rate : UInt32) :
    e.beforeSampleOps.foldl ChipOp.retune rate = rate := by
  cases h : e.pacer.advance.1 with
  | false =>
    rw [(beforeSample_of_idle h).2]
    exact retune_due e.dueCommands rate
  | true =>
    rw [(beforeSample_of_release h).2, List.foldl_append, retune_due]
    exact retune_due e.applyCommands.released.dueCommands rate

theorem retune_framesOps (n : Nat) (e : Engine) (rate : UInt32) :
    (framesOps n e).foldl ChipOp.retune rate = rate := by
  induction n generalizing e with
  | zero => rfl
  | succ n ih =>
    rw [framesOps, List.foldl_append, retune_beforeSampleOps]
    exact ih e.nextFrame.2

end Engine

theorem EngineStep.retune_ops {s : EngineStep} (h : s.setsRate = false) (e : Engine)
    (rate : UInt32) : (s.ops e).foldl ChipOp.retune rate = rate := by
  cases s with
  | setRate sampleRate => nomatch h
  | update pool =>
    show (e.updateOps pool).foldl ChipOp.retune rate = rate
    unfold Engine.updateOps
    split
    · exact Engine.retune_framesOps blockSize e.beginBlock rate
    · rfl
  | _ => rfl

namespace History

/-- A run that does not set the rate does nothing to it. -/
theorem retune_performed {steps : List EngineStep} (hsteps : ∀ s ∈ steps, s.setsRate = false)
    (h : History) (rate : UInt32) :
    (h.run steps).performed.foldl ChipOp.retune rate
      = h.performed.foldl ChipOp.retune rate := by
  induction steps generalizing h with
  | nil => rfl
  | cons s rest ih =>
    obtain ⟨hs, hrest⟩ := List.forall_mem_cons.mp hsteps
    have hstep : (h.step s).performed = h.performed ++ s.ops h.engine := rfl
    show ((h.step s).run rest).performed.foldl ChipOp.retune rate = _
    rw [ih hrest, hstep, List.foldl_append, EngineStep.retune_ops hs]

/-- The chip keeps the rate that it was made with. -/
theorem rate_run {e : Engine} {rate : UInt32} (hchip : e.chip = .powerUp rate)
    {steps : List EngineStep} (hsteps : ∀ s ∈ steps, s.setsRate = false) :
    let c := ((start e).run steps).engine.chip
    c.sampleRate = max rate 1 ∧ c.clocksPerSample = Chip.clocksAt (max rate 1) := by
  intro c
  have hrun : c = e.chip.after ((start e).run steps).performed :=
    chip_run (h := start e) rfl steps
  obtain ⟨htuned, hrate⟩ := (Chip.tuned_powerUp rate).after ((start e).run steps).performed
  rw [retune_performed hsteps] at hrate
  rw [hrun, hchip, htuned.clocksPerSample, hrate]
  exact ⟨rfl, rfl⟩

end History

namespace Settings

/-- A rate that is accepted is played as it is. -/
theorem Accepted.max_sampleRate {s : Settings} (h : s.Accepted) :
    max s.sampleRate 1 = s.sampleRate := by
  have hrate : ¬s.sampleRate ≤ 1 := by
    have hmin := h.sampleRate
    rw [UInt32.not_le]
    exact UInt32.lt_of_lt_of_le (by decide) hmin
  exact if_neg hrate

/-- Settings that are accepted can be built and played, if the parts fit into memory.

* The engine and the relay get their queues. The relay starts with all the silence that is asked
  for, and says so.
* The pool hands out a pair, and playback is not stopped at the start. An engine whose playback is
  not stopped makes a block of the pair.
* The chip runs at the rate of the settings, for as long as no other rate is set.

What is accepted is said by the five conditions of `Accepted`. That on a capacity is the one under
which a ring can be made, whatever it holds: the capacity has to be a power of two of at least two. -/
theorem validated_plays :
    (∀ s : Settings, s.validate = .ok () → s.FitsMemory →
      ∃ (e : Engine) (made : Outcome Relay Unit) (pool : Pool),
        Engine.create s = .ok e ∧
        Relay.create s.dacBufferCapacity.toNat s.dacPrefillSamples.toNat = .ok made ∧
        Pool.createFor s.audioMemoryBlocks.toNat = .ok pool ∧
        made.state.ring.toList = List.replicate s.dacPrefillSamples.toNat 0 ∧
        made.notices = [.relayPrefilled s.dacPrefillSamples.toNat] ∧
        (∃ stale left, pool.allocateStereo = (some stale, left)) ∧ e.stopping = false ∧
        (∀ e' : Engine, e'.stopping = false → (e'.update pool).1.isSome = true) ∧
        ∀ steps : List EngineStep, (∀ step ∈ steps, step.setsRate = false) →
          let c := ((History.start e).run steps).engine.chip
          c.sampleRate = s.sampleRate ∧ c.clocksPerSample = Chip.clocksAt s.sampleRate) ∧
    (∀ s : Settings, s.validate = .ok () ↔ s.Accepted) ∧
    ∀ (α : Type) (capacity : UInt64),
      (ringCapacity capacity = true ↔
        ∃ made : Ring α, Ring.create capacity.toNat = .ok made) ∧
      (ringCapacity capacity = true ↔ 2 ≤ capacity.toNat ∧ ∃ k, capacity.toNat = 2 ^ k) := by
  refine ⟨?_, ?_, ?_⟩
  · intro s hvalid hmemory
    have haccepted := s.validate_eq_ok_iff.mp hvalid
    -- Either queue is made, as its capacity has passed and its elements fit into memory.
    obtain ⟨commands, hcommands⟩ := (ringCapacity_iff s.commandQueueCapacity).mp
      haccepted.commandQueue
    obtain ⟨e, he⟩ : ∃ e, Engine.create s = .ok e :=
      ⟨_, Engine.create_of_ring (Ring.createFor_of_create hcommands hmemory.commands)⟩
    have hstart := Engine.create_eq_ok he
    obtain ⟨samples, hsamples⟩ := (ringCapacity_iff s.dacBufferCapacity).mp haccepted.dacBuffer
    have hrelay := Relay.create_of_ring (Ring.createFor_of_create hsamples hmemory.samples)
      s.dacPrefillSamples.toNat
    rw [Ring.create_eq_ok hsamples] at hrelay
    obtain ⟨hsilence, hnotices⟩ :=
      Relay.toList_prefillSilence (UInt64.lt_iff_toNat_lt.mp haccepted.prefill)
    obtain ⟨stale, left, htaken⟩ :=
      Pool.allocateStereo_create (UInt64.le_iff_toNat_le.mp haccepted.blocks)
    refine ⟨e, _, _, he, hrelay, Pool.createFor_of_fits hmemory.blocks, hsilence, hnotices,
      ⟨stale, left, htaken⟩, ?_, ?_, ?_⟩
    · rw [hstart]
    · intro e' hgoes
      exact Engine.isSome_update hgoes htaken
    · intro steps hsteps
      have hchip : e.chip = .powerUp s.sampleRate := by rw [hstart]
      have hrate := History.rate_run hchip hsteps
      rw [haccepted.max_sampleRate] at hrate
      exact hrate
  · exact validate_eq_ok_iff
  · intro α capacity
    have hring : ringCapacity capacity = true ↔
        ∃ made : Ring α, Ring.create capacity.toNat = .ok made := ringCapacity_iff capacity
    exact ⟨hring, hring.trans Ring.create_eq_ok_iff⟩

/-- The least of everything that is accepted: queues of two slots, one sample of silence, and two
blocks. -/
theorem least_settings_play :
    let s : Settings :=
      { sampleRate := 8000, commandQueueCapacity := 2, dacBufferCapacity := 2
        dacPrefillSamples := 1, audioMemoryBlocks := 2 }
    s.validate = .ok () ∧ s.FitsMemory ∧
      ∃ (e : Engine) (made : Outcome Relay Unit) (pool : Pool),
        Engine.create s = .ok e ∧ Relay.create 2 1 = .ok made ∧ Pool.createFor 2 = .ok pool ∧
        made.state.ring.toList = [0] ∧ e.stopping = false ∧ (e.update pool).1.isSome = true ∧
        ((History.start e).run [.tick, .update pool]).engine.chip.sampleRate = 8000 := by
  intro s
  have hvalid : s.validate = .ok () := by decide
  have hmemory : s.FitsMemory := ⟨by decide, by decide, by decide⟩
  obtain ⟨e, made, pool, he, hmade, hpool, hsilence, -, -, hgoes, hgives, hrate⟩ :=
    validated_plays.1 s hvalid hmemory
  refine ⟨hvalid, hmemory, e, made, pool, he, hmade, hpool, hsilence, hgoes, hgives e hgoes, ?_⟩
  exact (hrate [.tick, .update pool] (by simp [EngineStep.setsRate])).1

end Settings

end Chiptune
