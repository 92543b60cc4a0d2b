import Chiptune.Proofs.Chip.Run

/-!
# `Chiptune.Proofs.Chip.Separation`: the voices do not disturb each other

All voices hang off one dispatcher, one status register, one frame sequencer and one toggle that
halves the clock. `Voice.seen` is what one voice can tell of an operation: writes to its own
registers, its bit of the status register, the frame counter register, ticks, clocks and
resets. `Voice.view` is what its future depends on: its own state, the sequencer and the toggle.

Two facts carry the proof. An operation takes equal views to equal views (`view_run`), and it
changes a view as the part of it does that the voice sees (`view_seen`). The main statement is
`voice_unaffected`: two runs that look the same to a voice leave it in the same state.
-/

set_option autoImplicit false

namespace Chiptune

/-- The voices of the chip. -/
inductive Voice where
  | pulse (id : PulseId)
  | triangle
  | noise
  | dmc
deriving DecidableEq, Repr

/-- A change of each voice by itself. -/
structure VoiceMap where
  pulse1 : Pulse → Pulse := id
  pulse2 : Pulse → Pulse := id
  triangle : Triangle → Triangle := id
  noise : Noise → Noise := id
  dmc : Dmc → Dmc := id

namespace VoiceMap

/-- Changes the voices of a chip and nothing else. -/
def apply (m : VoiceMap) (c : Chip) : Chip :=
  { c with
    pulse1 := m.pulse1 c.pulse1
    pulse2 := m.pulse2 c.pulse2
    triangle := m.triangle c.triangle
    noise := m.noise c.noise
    dmc := m.dmc c.dmc }

/-- The change of one of the pulses. -/
def onPulse (id : PulseId) (f : Pulse → Pulse) : VoiceMap :=
  match id with
  | .one => { pulse1 := f }
  | .two => { pulse2 := f }

end VoiceMap

namespace Voice

/-- What a voice consists of. -/
abbrev State : Voice → Type
  | pulse _ => Pulse
  | triangle => Triangle
  | noise => Noise
  | dmc => Dmc

/-- The voice's state in a chip. -/
def state : (v : Voice) → Chip → v.State
  | pulse .one, c => c.pulse1
  | pulse .two, c => c.pulse2
  | triangle, c => c.triangle
  | noise, c => c.noise
  | dmc, c => c.dmc

/-- The voice's output among the levels of a chip. -/
def level : Voice → Chip → Nat
  | pulse .one, c => c.levels.pulse1
  | pulse .two, c => c.levels.pulse2
  | triangle, c => c.levels.triangle
  | noise, c => c.levels.noise
  | dmc, c => c.levels.dmc

/-- The bit of the status register that switches the voice. -/
def statusBit : Voice → Nat
  | pulse .one => 0
  | pulse .two => 1
  | triangle => 2
  | noise => 3
  | dmc => 4

/-- Whether a register is one of the voice's own. -/
def owns (v : Voice) : Register → Bool
  | .pulseControl id | .pulseSweep id | .pulseTimerLow id | .pulseTimerHigh id => v = pulse id
  | .triangleLinear | .triangleTimerLow | .triangleTimerHigh => v = triangle
  | .noiseControl | .noisePeriod | .noiseLength => v = noise
  | .dmcControl | .dmcDirectLoad | .dmcSampleAddress | .dmcSampleLength => v = dmc
  | .status | .frameCounter | .unused _ | .expansion => false

/-- What a voice's future depends on: its state, the frame sequencer and the toggle that halves
the clock. -/
def view (v : Voice) (c : Chip) : v.State × FrameSequencer × Bool :=
  (v.state c, c.sequencer, c.evenClock)

end Voice

/-! ### Changes of the voices -/

namespace VoiceMap

/-- What a change does to one voice. -/
def on (m : VoiceMap) : (v : Voice) → v.State → v.State
  | .pulse .one => m.pulse1
  | .pulse .two => m.pulse2
  | .triangle => m.triangle
  | .noise => m.noise
  | .dmc => m.dmc

/-- A pulse's change leaves every other voice alone. -/
theorem on_onPulse {v : Voice} {id : PulseId} (hv : v ≠ .pulse id) (f : Pulse → Pulse) :
    (onPulse id f).on v = fun state => state := by
  cases id with
  | one =>
    match v with
    | .pulse .one => exact absurd rfl hv
    | .pulse .two | .triangle | .noise | .dmc => rfl
  | two =>
    match v with
    | .pulse .two => exact absurd rfl hv
    | .pulse .one | .triangle | .noise | .dmc => rfl

theorem on_triangle {v : Voice} (hv : v ≠ .triangle) (f : Triangle → Triangle) :
    on { triangle := f } v = fun state => state := by
  match v with
  | .triangle => exact absurd rfl hv
  | .pulse .one | .pulse .two | .noise | .dmc => rfl

theorem on_noise {v : Voice} (hv : v ≠ .noise) (f : Noise → Noise) :
    on { noise := f } v = fun state => state := by
  match v with
  | .noise => exact absurd rfl hv
  | .pulse .one | .pulse .two | .triangle | .dmc => rfl

theorem on_dmc {v : Voice} (hv : v ≠ .dmc) (f : Dmc → Dmc) :
    on { dmc := f } v = fun state => state := by
  match v with
  | .dmc => exact absurd rfl hv
  | .pulse .one | .pulse .two | .triangle | .noise => rfl

/-- The status register switches each voice by its own bit. -/
def status (value : UInt8) : VoiceMap :=
  { pulse1 := (·.setEnabled (Byte.bit value 0))
    pulse2 := (·.setEnabled (Byte.bit value 1))
    triangle := (·.setEnabled (Byte.bit value 2))
    noise := (·.setEnabled (Byte.bit value 3))
    dmc := (·.setEnabled (Byte.bit value 4)) }

/-- A voice is switched by its own bit of the status register alone. -/
theorem on_status {v : Voice} {value other : UInt8}
    (h : Byte.bit value v.statusBit = Byte.bit other v.statusBit) :
    (status value).on v = (status other).on v := by
  match v with
  | .pulse .one => exact congrArg (fun on (p : Pulse) => p.setEnabled on) h
  | .pulse .two => exact congrArg (fun on (p : Pulse) => p.setEnabled on) h
  | .triangle => exact congrArg (fun on (t : Triangle) => t.setEnabled on) h
  | .noise => exact congrArg (fun on (n : Noise) => n.setEnabled on) h
  | .dmc => exact congrArg (fun on (d : Dmc) => d.setEnabled on) h

end VoiceMap

namespace Voice

variable {v : Voice} {c d : Chip}

theorem state_apply (v : Voice) (m : VoiceMap) (c : Chip) :
    v.state (m.apply c) = m.on v (v.state c) := by
  match v with
  | .pulse .one => rfl
  | .pulse .two => rfl
  | .triangle => rfl
  | .noise => rfl
  | .dmc => rfl

theorem view_eq_iff : v.view c = v.view d ↔
    v.state c = v.state d ∧ c.sequencer = d.sequencer ∧ c.evenClock = d.evenClock := by
  simp [view]

theorem mapPulse_eq (c : Chip) (id : PulseId) (f : Pulse → Pulse) :
    c.mapPulse id f = (VoiceMap.onPulse id f).apply c := by
  cases id with
  | one => rfl
  | two => rfl

/-- What does not belong to a voice's view can be anything. -/
theorem view_congr (h1 : c.pulse1 = d.pulse1) (h2 : c.pulse2 = d.pulse2)
    (ht : c.triangle = d.triangle) (hn : c.noise = d.noise) (hd : c.dmc = d.dmc)
    (hsequencer : c.sequencer = d.sequencer) (heven : c.evenClock = d.evenClock) :
    v.view c = v.view d := by
  refine view_eq_iff.mpr ⟨?_, hsequencer, heven⟩
  match v with
  | .pulse .one => exact h1
  | .pulse .two => exact h2
  | .triangle => exact ht
  | .noise => exact hn
  | .dmc => exact hd

/-- The output of a voice is that of its state. -/
theorem level_congr (h : v.state c = v.state d) : v.level c = v.level d := by
  match v with
  | .pulse .one => exact congrArg Pulse.output h
  | .pulse .two => exact congrArg Pulse.output h
  | .triangle => exact congrArg Triangle.output h
  | .noise => exact congrArg Noise.output h
  | .dmc => exact congrArg Dmc.output h

/-- A change that leaves a voice alone does not show in its view. -/
theorem view_apply_of_id {m : VoiceMap} (hm : m.on v = fun state => state) :
    v.view (m.apply c) = v.view c := by
  rw [view_eq_iff, state_apply, hm]
  exact ⟨rfl, rfl, rfl⟩

/-! ### Equal views stay equal -/

section
variable (h : v.view c = v.view d)
include h

/-- The same change of a voice keeps views equal. -/
theorem view_apply_of_on {m m' : VoiceMap} (hm : m.on v = m'.on v) :
    v.view (m.apply c) = v.view (m'.apply d) := by
  obtain ⟨hstate, hsequencer, heven⟩ := view_eq_iff.mp h
  rw [view_eq_iff, state_apply, state_apply, hm, hstate]
  exact ⟨rfl, hsequencer, heven⟩

theorem view_apply (m : VoiceMap) : v.view (m.apply c) = v.view (m.apply d) :=
  view_apply_of_on h rfl

/-- Sequencer and toggle may be set as long as both chips get the same. -/
theorem view_set {s s' : FrameSequencer} {even even' : Bool} (hs : s = s') (he : even = even') :
    v.view { c with sequencer := s, evenClock := even }
      = v.view { d with sequencer := s', evenClock := even' } := by
  have hstate := (view_eq_iff.mp h).1
  match v with
  | .pulse .one => exact view_eq_iff.mpr ⟨hstate, hs, he⟩
  | .pulse .two => exact view_eq_iff.mpr ⟨hstate, hs, he⟩
  | .triangle => exact view_eq_iff.mpr ⟨hstate, hs, he⟩
  | .noise => exact view_eq_iff.mpr ⟨hstate, hs, he⟩
  | .dmc => exact view_eq_iff.mpr ⟨hstate, hs, he⟩

theorem view_mapPulse (id : PulseId) (f : Pulse → Pulse) :
    v.view (c.mapPulse id f) = v.view (d.mapPulse id f) := by
  rw [mapPulse_eq, mapPulse_eq]
  exact view_apply h (.onPulse id f)

theorem view_clockEnvelopes : v.view c.clockEnvelopes = v.view d.clockEnvelopes :=
  view_apply h
    { pulse1 := Pulse.clockEnvelope
      pulse2 := Pulse.clockEnvelope
      noise := Noise.clockEnvelope }

theorem view_clockHalfFrame : v.view c.clockHalfFrame = v.view d.clockHalfFrame :=
  view_apply h
    { pulse1 := fun p => p.clockLength.clockSweep
      pulse2 := fun p => p.clockLength.clockSweep
      triangle := Triangle.clockLength
      noise := Noise.clockLength }

theorem view_clockLinear : v.view c.clockLinear = v.view d.clockLinear :=
  view_apply h { triangle := Triangle.clockLinear }

/-- The new mode decides alone whether the frame counter register clocks the units. -/
theorem view_writeFrameCounter (value : UInt8) :
    v.view (c.writeFrameCounter value) = v.view (d.writeFrameCounter value) := by
  have hset : v.view { c with sequencer := c.sequencer.write value }
      = v.view { d with sequencer := d.sequencer.write value } :=
    view_set h rfl (view_eq_iff.mp h).2.2
  unfold Chip.writeFrameCounter
  cases hmode : Byte.bit value 7 with
  | false => simpa [FrameSequencer.write, hmode] using hset
  | true =>
    simpa [FrameSequencer.write, hmode] using
      view_clockHalfFrame (view_clockEnvelopes (view_clockLinear hset))

theorem view_clockEvents (events : FrameEvents) :
    v.view (c.clockEvents events) = v.view (d.clockEvents events) := by
  obtain ⟨envelope, halfFrame⟩ := events
  cases halfFrame with
  | false =>
    cases envelope with
    | false => exact h
    | true => exact view_clockEnvelopes h
  | true =>
    cases envelope with
    | false => exact view_clockHalfFrame h
    | true => exact view_clockEnvelopes (view_clockHalfFrame h)

/-- The step of the sequencer, which views share, says what a tick clocks. -/
theorem view_frameTick : v.view c.frameTick = v.view d.frameTick := by
  have hlinear := view_clockLinear h
  have hsequencer : c.clockLinear.sequencer = d.clockLinear.sequencer :=
    (view_eq_iff.mp hlinear).2.1
  have hevents := view_clockEvents hlinear c.clockLinear.sequencer.events
  rw [hsequencer] at hevents
  obtain ⟨-, hsame, heven⟩ := view_eq_iff.mp hevents
  unfold Chip.frameTick
  dsimp only
  rw [hsequencer]
  exact view_set hevents (congrArg FrameSequencer.advance hsame) heven

/-- The toggle, which views share, says which timers a clock reaches. -/
theorem view_clock : v.view c.clock = v.view d.clock := by
  obtain ⟨-, hsequencer, heven⟩ := view_eq_iff.mp h
  unfold Chip.clock
  rw [← heven]
  cases c.evenClock with
  | false =>
    exact view_set
      (view_apply h { triangle := Triangle.clockTimer, dmc := Dmc.clockTimer }) hsequencer rfl
  | true =>
    exact view_set
      (view_apply h
        { triangle := Triangle.clockTimer
          dmc := Dmc.clockTimer
          pulse1 := Pulse.clockTimer
          pulse2 := Pulse.clockTimer
          noise := Noise.clockTimer }) hsequencer rfl

theorem view_dispatch (register : Register) (value : UInt8) :
    v.view (c.dispatch register value) = v.view (d.dispatch register value) := by
  cases register with
  | pulseControl id => exact view_mapPulse h id (·.writeControl value)
  | pulseSweep id => exact view_mapPulse h id (·.writeSweep value)
  | pulseTimerLow id => exact view_mapPulse h id (·.writeTimerLow value)
  | pulseTimerHigh id => exact view_mapPulse h id (·.writeTimerHigh value)
  | triangleLinear => exact view_apply h { triangle := (·.writeLinear value) }
  | triangleTimerLow => exact view_apply h { triangle := (·.writeTimerLow value) }
  | triangleTimerHigh => exact view_apply h { triangle := (·.writeTimerHigh value) }
  | noiseControl => exact view_apply h { noise := (·.writeControl value) }
  | noisePeriod => exact view_apply h { noise := (·.writePeriod value) }
  | noiseLength => exact view_apply h { noise := (·.writeLength value) }
  | dmcControl => exact view_apply h { dmc := (·.writeControl value) }
  | dmcDirectLoad => exact view_apply h { dmc := (·.writeLevel value) }
  | dmcSampleAddress => exact view_apply h { dmc := (·.writeAddress value) }
  | dmcSampleLength => exact view_apply h { dmc := (·.writeLength value) }
  | status => exact view_apply h (.status value)
  | frameCounter => exact view_writeFrameCounter h value
  | unused offset => exact h
  | expansion => exact h

end

/-- The shadow file and the count of writes belong to no voice. -/
theorem view_remember (register : Register) (value : UInt8) :
    v.view ({ c with registerWrites := c.registerWrites + 1 }.remember register value)
      = v.view c := by
  unfold Chip.remember
  split
  · exact view_congr rfl rfl rfl rfl rfl rfl rfl
  · exact view_congr rfl rfl rfl rfl rfl rfl rfl

/-- Equal views stay equal under every operation but the rendering of a sample, whose number
of clocks is not in the view. -/
theorem view_run (h : v.view c = v.view d) {op : ChipOp} (hop : ∀ options, op ≠ .sample options) :
    v.view (op.run c) = v.view (op.run d) := by
  cases op with
  | write register value =>
    have hnoted : v.view ({ c with registerWrites := c.registerWrites + 1 }.remember register value)
        = v.view ({ d with registerWrites := d.registerWrites + 1 }.remember register value) := by
      rw [view_remember, view_remember, h]
    exact view_dispatch hnoted register value
  | load data offset => exact view_apply h { dmc := fun dmc => (dmc.loadSamples data offset).2 }
  | frameTick => exact view_frameTick h
  | clock => exact view_clock h
  | sample options => exact absurd rfl (hop options)
  | reset => exact view_congr rfl rfl rfl rfl rfl rfl rfl
  | setRate sampleRate =>
    have hc : v.view (c.setSampleRate sampleRate) = v.view c :=
      view_congr rfl rfl rfl rfl rfl rfl rfl
    have hd : v.view (d.setSampleRate sampleRate) = v.view d :=
      view_congr rfl rfl rfl rfl rfl rfl rfl
    exact hc.trans (h.trans hd.symm)

/-! ### What does not show -/

theorem view_mapPulse_of_ne {id : PulseId} (hv : v ≠ .pulse id) (f : Pulse → Pulse) :
    v.view (c.mapPulse id f) = v.view c := by
  rw [mapPulse_eq]
  exact view_apply_of_id (VoiceMap.on_onPulse hv f)

theorem view_triangle_of_ne (hv : v ≠ .triangle) (f : Triangle → Triangle) :
    v.view { c with triangle := f c.triangle } = v.view c :=
  view_apply_of_id (VoiceMap.on_triangle hv f)

theorem view_noise_of_ne (hv : v ≠ .noise) (f : Noise → Noise) :
    v.view { c with noise := f c.noise } = v.view c :=
  view_apply_of_id (VoiceMap.on_noise hv f)

theorem view_dmc_of_ne (hv : v ≠ .dmc) (f : Dmc → Dmc) :
    v.view { c with dmc := f c.dmc } = v.view c :=
  view_apply_of_id (VoiceMap.on_dmc hv f)

theorem view_dispatch_of_not_owns {register : Register} (hv : v.owns register = false)
    (hstatus : register ≠ .status) (hframe : register ≠ .frameCounter) (value : UInt8) :
    v.view (c.dispatch register value) = v.view c := by
  cases register with
  | pulseControl id => exact view_mapPulse_of_ne (of_decide_eq_false hv) (·.writeControl value)
  | pulseSweep id => exact view_mapPulse_of_ne (of_decide_eq_false hv) (·.writeSweep value)
  | pulseTimerLow id => exact view_mapPulse_of_ne (of_decide_eq_false hv) (·.writeTimerLow value)
  | pulseTimerHigh id =>
    exact view_mapPulse_of_ne (of_decide_eq_false hv) (·.writeTimerHigh value)
  | triangleLinear => exact view_triangle_of_ne (of_decide_eq_false hv) (·.writeLinear value)
  | triangleTimerLow => exact view_triangle_of_ne (of_decide_eq_false hv) (·.writeTimerLow value)
  | triangleTimerHigh => exact view_triangle_of_ne (of_decide_eq_false hv) (·.writeTimerHigh value)
  | noiseControl => exact view_noise_of_ne (of_decide_eq_false hv) (·.writeControl value)
  | noisePeriod => exact view_noise_of_ne (of_decide_eq_false hv) (·.writePeriod value)
  | noiseLength => exact view_noise_of_ne (of_decide_eq_false hv) (·.writeLength value)
  | dmcControl => exact view_dmc_of_ne (of_decide_eq_false hv) (·.writeControl value)
  | dmcDirectLoad => exact view_dmc_of_ne (of_decide_eq_false hv) (·.writeLevel value)
  | dmcSampleAddress => exact view_dmc_of_ne (of_decide_eq_false hv) (·.writeAddress value)
  | dmcSampleLength => exact view_dmc_of_ne (of_decide_eq_false hv) (·.writeLength value)
  | status => exact absurd rfl hstatus
  | frameCounter => exact absurd rfl hframe
  | unused offset => rfl
  | expansion => rfl

/-- A write to another voice's register, or to a register without effect, does not show. -/
theorem view_write_of_not_owns {register : Register} (hv : v.owns register = false)
    (hstatus : register ≠ .status) (hframe : register ≠ .frameCounter) (value : UInt8) :
    v.view (c.write register value) = v.view c :=
  (view_dispatch_of_not_owns hv hstatus hframe value).trans (view_remember register value)

/-- Only the voice's own bit of a status write shows. -/
theorem view_write_status {value other : UInt8}
    (h : Byte.bit value v.statusBit = Byte.bit other v.statusBit) :
    v.view (c.write .status value) = v.view (c.write .status other) := by
  have hnoted :
      v.view ({ c with registerWrites := c.registerWrites + 1 }.remember .status value)
        = v.view ({ c with registerWrites := c.registerWrites + 1 }.remember .status other) := by
    rw [view_remember, view_remember]
  exact view_apply_of_on hnoted (VoiceMap.on_status h)

/-- Mixing and counting a frame do not show. -/
theorem view_emit (options : RenderOptions) : v.view (c.emit options).2 = v.view c := by
  obtain ⟨_, _, _, _, hemit⟩ := c.emit_eq options
  rw [hemit]
  exact view_congr rfl rfl rfl rfl rfl rfl rfl

end Voice

/-! ### Samples as clocks -/

namespace Chip

/-- The clocks that an accumulator holds, at most `fuel` of them. -/
def clocksIn : Nat → Float32 → Nat
  | 0, _ => 0
  | fuel + 1, accumulator =>
    if 1.0 ≤ accumulator then clocksIn fuel (accumulator - 1.0) + 1 else 0

/-- The clocks that fall into the next sample. -/
def sampleClocks (c : Chip) : Nat :=
  clocksIn maxClocksPerSample (c.accumulator + c.clocksPerSample)

end Chip

namespace Voice

variable {v : Voice} {c d : Chip}

theorem view_drain (fuel : Nat) (c : Chip) (accumulator : Float32) :
    v.view (Chip.drain fuel c accumulator)
      = v.view (c.after (List.replicate (Chip.clocksIn fuel accumulator) .clock)) := by
  induction fuel generalizing c accumulator with
  | zero => exact view_congr rfl rfl rfl rfl rfl rfl rfl
  | succ fuel ih =>
    unfold Chip.drain Chip.clocksIn
    split
    · rw [List.replicate_succ, Chip.after_cons]
      exact ih c.clock _
    · exact view_congr rfl rfl rfl rfl rfl rfl rfl

/-- To a voice a sample is nothing but its clocks. -/
theorem view_nextSample (options : RenderOptions) :
    v.view (c.nextSample options).2
      = v.view (c.after (List.replicate c.sampleClocks .clock)) := by
  rw [Chip.nextSample, view_emit]
  exact view_drain Chip.maxClocksPerSample c _

/-! ### Runs as a voice sees them -/

/-- What a voice sees of a register write. -/
def seenWrite (v : Voice) (register : Register) (value : UInt8) : List ChipOp :=
  match register with
  | .status => [.write .status (if Byte.bit value v.statusBit then 0xFF else 0x00)]
  | .frameCounter => [.write .frameCounter value]
  | register => if v.owns register then [.write register value] else []

/-- What a voice sees of an operation: the whole of it, nothing, of a status write its own bit,
and of a sample the clocks. -/
def seen (v : Voice) (c : Chip) : ChipOp → List ChipOp
  | .write register value => v.seenWrite register value
  | .load data offset => if v = dmc then [.load data offset] else []
  | .frameTick => [.frameTick]
  | .clock => [.clock]
  | .sample _ => List.replicate c.sampleClocks .clock
  | .reset => [.reset]
  | .setRate _ => []

/-- What a voice sees of a run. -/
def seenIn (v : Voice) : Chip → List ChipOp → List ChipOp
  | _, [] => []
  | c, op :: rest => v.seen c op ++ v.seenIn (op.run c) rest

theorem ne_sample_of_mem_seenWrite {register : Register} {value : UInt8} {op : ChipOp}
    (h : op ∈ v.seenWrite register value) (options : RenderOptions) : op ≠ .sample options := by
  rintro rfl
  unfold seenWrite at h
  split at h
  · simp at h
  · simp at h
  · split at h
    · simp at h
    · nomatch h

/-- A sample counts as its clocks, so no voice sees a sample as such. -/
theorem ne_sample_of_mem_seenIn {ops : List ChipOp} {op : ChipOp} (h : op ∈ v.seenIn c ops)
    (options : RenderOptions) : op ≠ .sample options := by
  induction ops generalizing c with
  | nil => nomatch h
  | cons first rest ih =>
    rcases List.mem_append.mp h with hfirst | hrest
    · cases first with
      | write register value => exact ne_sample_of_mem_seenWrite hfirst options
      | load data offset =>
        by_cases hv : v = dmc
        · simp_all [seen]
        · simp [seen, hv] at hfirst
      | sample other => simp_all [seen]
      | frameTick => simp_all [seen]
      | clock => simp_all [seen]
      | reset => simp_all [seen]
      | setRate sampleRate => nomatch hfirst
    · exact ih hrest

/-- Equal views stay equal under a run without samples. -/
theorem view_after {ops : List ChipOp} (hops : ∀ op ∈ ops, ∀ options, op ≠ .sample options)
    (h : v.view c = v.view d) : v.view (c.after ops) = v.view (d.after ops) := by
  induction ops generalizing c d with
  | nil => exact h
  | cons op rest ih =>
    exact ih (fun op hmem => hops op (List.mem_cons_of_mem _ hmem))
      (view_run h (hops op List.mem_cons_self))

/-- A write shows as far as it is seen. -/
theorem view_seenWrite (register : Register) (value : UInt8) :
    v.view (c.write register value) = v.view (c.after (v.seenWrite register value)) := by
  unfold seenWrite
  split
  · -- Of the status value only the voice's own bit is seen.
    have hbit : Byte.bit value v.statusBit
        = Byte.bit (if Byte.bit value v.statusBit then 0xFF else 0x00) v.statusBit := by
      cases Byte.bit value v.statusBit with
      | false => cases v with
        | pulse id => cases id <;> rfl
        | triangle => rfl
        | noise => rfl
        | dmc => rfl
      | true => cases v with
        | pulse id => cases id <;> rfl
        | triangle => rfl
        | noise => rfl
        | dmc => rfl
    exact view_write_status hbit
  · rfl
  · next hstatus hframe =>
    split
    · rfl
    · next hv => exact view_write_of_not_owns (Bool.eq_false_iff.mpr hv) hstatus hframe value

/-- An operation changes a view as the part of it does that the voice sees. -/
theorem view_seen (op : ChipOp) : v.view (op.run c) = v.view (c.after (v.seen c op)) := by
  cases op with
  | write register value => exact view_seenWrite register value
  | load data offset =>
    by_cases hv : v = dmc
    · simp only [seen, if_pos hv]
      rfl
    · simp only [seen, if_neg hv]
      exact view_dmc_of_ne hv fun dmc => (dmc.loadSamples data offset).2
  | frameTick => rfl
  | clock => rfl
  | sample options => exact view_nextSample options
  | reset => rfl
  | setRate sampleRate => exact view_congr rfl rfl rfl rfl rfl rfl rfl

/-- A run changes a view as the part of it does that the voice sees. -/
theorem view_seenIn (ops : List ChipOp) :
    v.view (c.after ops) = v.view (c.after (v.seenIn c ops)) := by
  induction ops generalizing c with
  | nil => rfl
  | cons op rest ih =>
    rw [Chip.after_cons, ih, seenIn, Chip.after_append]
    exact view_after (fun _ hmem => ne_sample_of_mem_seenIn hmem) (view_seen op)

/-- The voices do not disturb each other. Take two runs from power-up, at any sample rates,
that look the same to a voice: the same clocks, on their own or as those of a sample, ticks,
resets, writes to its own registers and to the frame counter register, and for the delta voice
loads, at the same places, and status writes that agree in its bit. Then the whole state of the
voice is the same after both, and so is its output, whatever else has been written.

The beginning of a run is a run, so that they are the same after every event on the way. -/
theorem voice_unaffected (v : Voice) (rate₁ rate₂ : UInt32) (ops₁ ops₂ : List ChipOp)
    (h : v.seenIn (.powerUp rate₁) ops₁ = v.seenIn (.powerUp rate₂) ops₂) :
    v.state ((Chip.powerUp rate₁).after ops₁) = v.state ((Chip.powerUp rate₂).after ops₂) ∧
      v.level ((Chip.powerUp rate₁).after ops₁) = v.level ((Chip.powerUp rate₂).after ops₂) := by
  have hstart : v.view (.powerUp rate₁) = v.view (.powerUp rate₂) :=
    view_congr rfl rfl rfl rfl rfl rfl rfl
  have hseen : v.view ((Chip.powerUp rate₁).after ops₁)
      = v.view ((Chip.powerUp rate₂).after ops₂) := by
    rw [view_seenIn ops₁, view_seenIn ops₂, ← h]
    exact view_after (fun _ hmem => ne_sample_of_mem_seenIn hmem) hstart
  have hstate := (view_eq_iff.mp hseen).1
  exact ⟨hstate, level_congr hstate⟩

/-- The second pulse, an unused register and the other status bits do not disturb the first. -/
theorem first_pulse_unaffected :
    let ops₁ : List ChipOp :=
      [.write .status 0x01, .write (.pulseTimerHigh .one) 0x0F, .frameTick, .clock]
    let ops₂ : List ChipOp :=
      [.write .status 0x1F, .write (.pulseControl .two) 0xFF, .write (.pulseTimerHigh .one) 0x0F,
        .frameTick, .write (.unused 0x09) 0x80, .write .dmcSampleLength 0x10, .clock]
    Voice.seenIn (.pulse .one) (.powerUp 44100) ops₁
        = Voice.seenIn (.pulse .one) (.powerUp 48000) ops₂ ∧
      ((Chip.powerUp 44100).after ops₁).pulse1 = ((Chip.powerUp 48000).after ops₂).pulse1 := by
  intro ops₁ ops₂
  have hseen : Voice.seenIn (.pulse .one) (.powerUp 44100) ops₁
      = Voice.seenIn (.pulse .one) (.powerUp 48000) ops₂ := rfl
  exact ⟨hseen, (voice_unaffected (.pulse .one) 44100 48000 ops₁ ops₂ hseen).1⟩

end Voice

end Chiptune
