import Chiptune.Proofs.Chip.Controls
import Chiptune.Proofs.Chip.Counts

/-!
# `Chiptune.Proofs.Chip.Silence`: a chip that is switched off is silent

Voices that are switched off go on in most respects. Their lengths are loaded, their envelopes and
sweeps are clocked, the noise shifts, and a write of the sample length looks for a sample to start.
Two things keep them from being heard. The flag that enables a voice is set by the status register
alone, and the level of the delta voice, which is heard even when nothing plays, is moved by samples
and direct loads alone.

* `Chip.Off`: no voice is enabled and no sample plays. All that does not switch a voice on keeps it,
  resets included (`Chip.Off.run`).
* `Chip.Hushed`: besides, the delta voice rests at level zero (`Chip.Hushed.run`).
* `Chip.emit_of_hushed`: without filters, such a chip gives a frame of zeros and does not count it.

`Chip.disabled_chip_silent` is the main statement, over every run that follows the writes.
-/

set_option autoImplicit false

namespace Chiptune

namespace Byte

/-- A mask that finds nothing finds no bit. -/
theorem bit_of_and_eq_zero {value mask : UInt8} (h : value &&& mask = 0) {i : Nat}
    (hi : bit mask i = true) : bit value i = false := by
  have hand : bit (value &&& mask) i = false := by
    rw [h]
    exact Nat.zero_testBit i
  rw [bit, UInt8.toNat_and, Nat.testBit_and] at hand
  rw [bit] at hi ⊢
  rw [hi, Bool.and_true] at hand
  exact hand

/-- The low seven bits are a number. -/
theorem field_zero_seven (value : UInt8) : field value 0 7 = (value &&& 0x7F).toNat := by
  have hmask : (0x7F : UInt8).toNat = 2 ^ 7 - 1 := rfl
  rw [field_eq, UInt8.toNat_and, hmask, Nat.and_two_pow_sub_one_eq_mod, Nat.pow_zero, Nat.div_one]

end Byte

namespace ChipOp

/-- Whether the operation switches a voice on: a status write that sets one of the low five bits. -/
def switchesOn : ChipOp → Bool
  | .write .status value => value &&& 0x1F != 0
  | _ => false

/-- Whether the operation sets the delta level to another value than zero. -/
def setsLevel : ChipOp → Bool
  | .write .dmcDirectLoad value => value &&& 0x7F != 0
  | .reset => true
  | _ => false

end ChipOp

/-! ### Voices that are off -/

/-- No voice is enabled. -/
structure ChipControls.Off (k : ChipControls) : Prop where
  pulse1 : k.pulse1.enabled = false
  pulse2 : k.pulse2.enabled = false
  triangle : k.triangle.enabled = false
  noise : k.noise.enabled = false
  dmc : k.dmc.enabled = false

namespace ChipControls

variable {k : ChipControls}

theorem off_switch (k : ChipControls) {value : UInt8} (h : value &&& 0x1F = 0) :
    (k.switch value).Off where
  pulse1 := Byte.bit_of_and_eq_zero h (i := 0) rfl
  pulse2 := Byte.bit_of_and_eq_zero h (i := 1) rfl
  triangle := Byte.bit_of_and_eq_zero h (i := 2) rfl
  noise := Byte.bit_of_and_eq_zero h (i := 3) rfl
  dmc := Byte.bit_of_and_eq_zero h (i := 4) rfl

theorem Off.write (h : k.Off) {register : Register} {value : UInt8}
    (hwrite : (ChipOp.write register value).switchesOn = false) : (k.write register value).Off := by
  cases register with
  | status => exact k.off_switch (bne_eq_false_iff_eq.mp hwrite)
  | pulseControl id | pulseSweep id => cases id <;> exact ⟨h.1, h.2, h.3, h.4, h.5⟩
  | _ => exact ⟨h.1, h.2, h.3, h.4, h.5⟩

theorem Off.controlled (h : k.Off) {op : ChipOp} (hop : op.switchesOn = false) :
    (op.controlled k).Off := by
  cases op with
  | write register value => exact h.write hop
  | reset => exact ⟨rfl, rfl, rfl, rfl, rfl⟩
  | _ => exact h

end ChipControls

/-! ### The delta voice -/

namespace Dmc

variable {d : Dmc}

/-- No operation but a status write starts a sample of a voice that is off. -/
theorem silent_onDelta (henabled : d.enabled = false) (hsilent : d.silent = true) (clocks : Nat)
    {op : ChipOp} (hop : op.switchesOn = false) : (op.onDelta clocks d).silent = true := by
  cases op with
  | write register value =>
    cases register with
    | dmcSampleLength =>
      show (d.writeLength value).silent = true
      simp [writeLength, henabled, hsilent]
    | status =>
      have hbit : Byte.bit value 4 = false :=
        Byte.bit_of_and_eq_zero (bne_eq_false_iff_eq.mp hop) rfl
      show (d.setEnabled (Byte.bit value 4)).silent = true
      rw [hbit]
      rfl
    | _ => exact hsilent
  | load data offset =>
    show (d.loadSamples data offset).2.silent = true
    rcases d.loadSamples_cases data offset with hsame | ⟨memory, hload⟩
    · rw [hsame, hsilent]
    · rw [hload]
      exact hsilent
  | clock =>
    show d.clockTimer.silent = true
    rw [clockTimer_of_silent hsilent, hsilent]
  | sample options =>
    show (d.clocks clocks).silent = true
    rw [clocks_of_silent clocks hsilent, hsilent]
  | reset => rfl
  | frameTick => exact hsilent
  | setRate sampleRate => exact hsilent

theorem level_startSample (d : Dmc) : d.startSample.level = d.level := by
  unfold startSample
  dsimp only
  split
  · rfl
  · rfl

/-- While no sample plays, nothing moves a level of zero but what sets another one. -/
theorem level_onDelta (hsilent : d.silent = true) (hlevel : d.level = 0) (clocks : Nat)
    {op : ChipOp} (hop : op.setsLevel = false) : (op.onDelta clocks d).level = 0 := by
  cases op with
  | write register value =>
    cases register with
    | dmcDirectLoad =>
      have hzero : value &&& 0x7F = 0 := bne_eq_false_iff_eq.mp hop
      show Byte.field value 0 7 = 0
      rw [Byte.field_zero_seven, hzero]
      rfl
    | dmcSampleLength =>
      show (d.writeLength value).level = 0
      unfold writeLength
      dsimp only
      split
      · exact (level_startSample _).trans hlevel
      · exact hlevel
    | status =>
      show (d.setEnabled (Byte.bit value 4)).level = 0
      cases Byte.bit value 4 with
      | true =>
        unfold setEnabled
        dsimp only
        rw [if_pos rfl, if_pos hsilent]
        exact (level_startSample _).trans hlevel
      | false => exact hlevel
    | _ => exact hlevel
  | load data offset =>
    show (d.loadSamples data offset).2.level = 0
    rcases d.loadSamples_cases data offset with hsame | ⟨memory, hload⟩
    · rw [hsame, hlevel]
    · rw [hload]
      exact hlevel
  | clock =>
    show d.clockTimer.level = 0
    rw [clockTimer_of_silent hsilent, hlevel]
  | sample options =>
    show (d.clocks clocks).level = 0
    rw [clocks_of_silent clocks hsilent, hlevel]
  | reset => nomatch hop
  | frameTick => exact hlevel
  | setRate sampleRate => exact hlevel

end Dmc

/-! ### Silent levels -/

/-- With every level at zero both mixes are zero, wherever the noise is panned. -/
theorem Mix.toPcm_silent (noisePeriod : Nat) :
    Mix.toPcm (Mix.mono { noisePeriod := noisePeriod }) = 0 ∧
      Mix.toPcm (Mix.stereo { noisePeriod := noisePeriod }).1 = 0 ∧
      Mix.toPcm (Mix.stereo { noisePeriod := noisePeriod }).2 = 0 := by
  -- The mono mix does not look at the period, the stereo mix takes it modulo 16.
  have hmono : Mix.toPcm (Mix.mono {}) = 0 := by decide +kernel
  have hstereo : ∀ period < 16, Mix.toPcm (Mix.stereo { noisePeriod := period }).1 = 0 ∧
      Mix.toPcm (Mix.stereo { noisePeriod := period }).2 = 0 := by decide +kernel
  have hmod : Mix.stereo { noisePeriod := noisePeriod }
      = Mix.stereo { noisePeriod := noisePeriod % 16 } := by
    unfold Mix.stereo
    rw [Nat.mod_mod]
  rw [hmod]
  exact ⟨hmono, hstereo _ (Nat.mod_lt _ (by decide))⟩

namespace Chip

/-- No voice is enabled and no sample plays. -/
structure Off (c : Chip) : Prop where
  controls : c.controls.Off
  silent : c.dmc.silent = true

/-- Nor does the delta voice hold a level. -/
structure Hushed (c : Chip) : Prop extends c.Off where
  level : c.dmc.level = 0

section
variable {c : Chip}

theorem Off.run (h : c.Off) (op : ChipOp) (hop : op.switchesOn = false) : (op.run c).Off where
  controls := by
    rw [controls_run]
    exact h.controls.controlled hop
  silent := by
    rw [dmc_run]
    exact Dmc.silent_onDelta h.controls.dmc h.silent c.sampleClocks hop

theorem Hushed.run (h : c.Hushed) (op : ChipOp) (hop : op.switchesOn = false)
    (hlevel : op.setsLevel = false) : (op.run c).Hushed where
  toOff := h.toOff.run op hop
  level := by
    rw [dmc_run]
    exact Dmc.level_onDelta h.silent h.level c.sampleClocks hlevel

theorem levels_of_hushed (h : c.Hushed) : c.levels = { noisePeriod := c.noise.periodIndex } := by
  have hpulse1 : c.pulse1.enabled = false := h.controls.pulse1
  have hpulse2 : c.pulse2.enabled = false := h.controls.pulse2
  have htriangle : c.triangle.enabled = false := h.controls.triangle
  have hnoise : c.noise.enabled = false := h.controls.noise
  simp [levels, Pulse.output, Pulse.waveform, Triangle.output, Noise.output, Dmc.output, hpulse1,
    hpulse2, htriangle, hnoise, h.level]

/-- Without filters, silent levels give a frame of zeros, which is not counted. -/
theorem emit_of_hushed (h : c.Hushed) {options : RenderOptions} (hfilters : options.filters = false) :
    c.emit options = ((0, 0), c) := by
  obtain ⟨hmono, hleft, hright⟩ := Mix.toPcm_silent c.noise.periodIndex
  have hlevels := levels_of_hushed h
  cases hstereo : options.stereo with
  | true => simp [emit, mix, hstereo, hfilters, hlevels, hleft, hright]
  | false => simp [emit, mix, hstereo, hfilters, hlevels, hmono]

theorem Hushed.runSampleClocks (h : c.Hushed) : c.runSampleClocks.Hushed :=
  drain_induction (P := Hushed) (fun _ h => h.run .clock rfl rfl)
    (fun _ _ h => ⟨⟨h.controls, h.silent⟩, h.level⟩) maxClocksPerSample _ h

/-- To a hushed chip, a sample without filters is its clocks, and a frame of zeros. -/
theorem nextSample_of_hushed (h : c.Hushed) {options : RenderOptions}
    (hfilters : options.filters = false) :
    c.nextSample options = ((0, 0), c.runSampleClocks) :=
  emit_of_hushed h.runSampleClocks hfilters

theorem Off.after (h : c.Off) {ops : List ChipOp} (hops : ∀ op ∈ ops, op.switchesOn = false) :
    (c.after ops).Off :=
  after_induction_mem (P := Off) (fun _ op hop h => h.run op (hops op hop)) c h

theorem Hushed.after (h : c.Hushed) {ops : List ChipOp}
    (hops : ∀ op ∈ ops, op.switchesOn = false ∧ op.setsLevel = false) : (c.after ops).Hushed :=
  after_induction_mem (P := Hushed) (fun _ op hop h => h.run op (hops op hop).1 (hops op hop).2) c h

/-- A hushed chip counts no sample as not silent, as long as none has filters. -/
theorem nonSilentSamples_of_hushed (h : c.Hushed) {ops : List ChipOp}
    (hops : ∀ op ∈ ops, op.switchesOn = false ∧ op.setsLevel = false)
    (hfilters : ∀ options, .sample options ∈ ops → options.filters = false) :
    (c.after ops).nonSilentSamples = c.nonSilentSamples := by
  have hboth : (c.after ops).Hushed ∧ (c.after ops).nonSilentSamples = c.nonSilentSamples := by
    refine after_induction_mem
      (P := fun d => d.Hushed ∧ d.nonSilentSamples = c.nonSilentSamples) ?_ c ⟨h, rfl⟩
    rintro d op hop ⟨hd, hcount⟩
    obtain ⟨hon, hsets⟩ := hops op hop
    refine ⟨hd.run op hon hsets, ?_⟩
    rw [← hcount]
    cases op with
    | sample options =>
      show (d.nextSample options).2.nonSilentSamples = d.nonSilentSamples
      rw [nextSample_of_hushed hd (hfilters options hop)]
      exact congrArg Counts.nonSilentSamples d.counts_runSampleClocks
    | reset => nomatch hsets
    | _ => exact d.nonSilentSamples_of_quiet rfl
  exact hboth.2

/-! ### The writes that silence a chip -/

/-- A status write that switches no voice on switches all of them off. -/
theorem off_writeStatus (c : Chip) {value : UInt8} (h : value &&& 0x1F = 0) :
    (c.write .status value).Off where
  controls := by
    rw [controls_write]
    exact c.controls.off_switch h
  silent := by
    rw [dmc_write]
    show (c.dmc.setEnabled (Byte.bit value 4)).silent = true
    rw [Byte.bit_of_and_eq_zero h (i := 4) rfl]
    rfl

theorem level_writeLevel (c : Chip) {value : UInt8} (h : value &&& 0x7F = 0) :
    (c.write .dmcDirectLoad value).dmc.level = 0 := by
  rw [dmc_write]
  show Byte.field value 0 7 = 0
  rw [Byte.field_zero_seven, h]
  rfl

/-- A direct load of zero hushes a chip whose voices are off. -/
theorem Off.writeLevel (h : c.Off) {value : UInt8} (hvalue : value &&& 0x7F = 0) :
    (c.write .dmcDirectLoad value).Hushed where
  toOff := h.run (.write .dmcDirectLoad value) rfl
  level := c.level_writeLevel hvalue

/-- So does switching the voices off while the level is zero. -/
theorem hushed_writeStatus (hlevel : c.dmc.level = 0) {value : UInt8} (h : value &&& 0x1F = 0) :
    (c.write .status value).Hushed where
  toOff := c.off_writeStatus h
  level := by
    rw [dmc_write]
    show (c.dmc.setEnabled (Byte.bit value 4)).level = 0
    rw [Byte.bit_of_and_eq_zero h (i := 4) rfl]
    exact hlevel

end

/-- A disabled chip is silent. A status write clears the low five bits, and a direct load sets the
delta level to zero, right before or at any time after as long as no voice is switched on. From
then on, whatever the chip was and whatever happens to it, every sample without filters is a frame
of zeros and is not counted. What ends this is a status write that sets one of the five bits, a
direct load of another level, or a reset. The count of samples that are not silent does not change
at all unless there are samples with filters, whose memories may still ring. -/
theorem disabled_chip_silent (c : Chip) {off zero : UInt8} (hoff : off &&& 0x1F = 0)
    (hzero : zero &&& 0x7F = 0) {between later : List ChipOp}
    (hbetween : ∀ op ∈ between, op.switchesOn = false)
    (hlater : ∀ op ∈ later, op.switchesOn = false ∧ op.setsLevel = false) :
    ∀ hushing ∈ [.write .status off :: between ++ [.write .dmcDirectLoad zero],
        [.write .dmcDirectLoad zero, .write .status off]],
      let start := c.after hushing
      let d := start.after later
      (∀ options : RenderOptions, options.filters = false →
        (d.nextSample options).1 = (0, 0) ∧
          (d.nextSample options).2.nonSilentSamples = d.nonSilentSamples) ∧
      ((∀ options, .sample options ∈ later → options.filters = false) →
        d.nonSilentSamples = start.nonSilentSamples) := by
  intro hushing hmem start d
  have hstart : start.Hushed := by
    have hboth : hushing = .write .status off :: between ++ [.write .dmcDirectLoad zero] ∨
        hushing = [.write .dmcDirectLoad zero, .write .status off] := by simpa using hmem
    rcases hboth with rfl | rfl
    · have hquiet : ((c.write .status off).after between).Off :=
        (c.off_writeStatus hoff).after hbetween
      show ((c.write .status off).after (between ++ [.write .dmcDirectLoad zero])).Hushed
      rw [after_append]
      exact hquiet.writeLevel hzero
    · exact hushed_writeStatus (c.level_writeLevel hzero) hoff
  have hd : d.Hushed := hstart.after hlater
  constructor
  · intro options hfilters
    rw [nextSample_of_hushed hd hfilters]
    exact ⟨rfl, congrArg Counts.nonSilentSamples d.counts_runSampleClocks⟩
  · exact nonSilentSamples_of_hushed hstart hlater

/-- A tone and a looping sample are switched off. Then a length is loaded and a sample length is
written, which wakes neither of them, and the next sample is silent. -/
theorem hushed_tone_silent :
    let ops : List ChipOp :=
      [.load #[0x55] 0, .write .dmcControl 0x4F, .write .dmcSampleAddress 0x00,
        .write .dmcSampleLength 0x00, .write (.pulseControl .one) 0xBF, .write .status 0x1F,
        .write (.pulseTimerLow .one) 0xFD, .write (.pulseTimerHigh .one) 0x08]
    let later : List ChipOp :=
      [.write (.pulseTimerHigh .one) 0x09, .write .dmcSampleLength 0x10, .frameTick, .clock,
        .write .status 0x20, .write .dmcDirectLoad 0x80, .load #[0xFF] 0]
    let c := (powerUp 44100).after ops
    let start := c.after [.write .status 0xE0, .write .dmcDirectLoad 0x00]
    let d := start.after later
    c.status = 17 ∧ c.levels.dmc = 64 ∧
      (∀ op ∈ later, op.switchesOn = false ∧ op.setsLevel = false) ∧
      (d.nextSample { stereo := true }).1 = (0, 0) ∧ (d.nextSample {}).1 = (0, 0) ∧
      d.nonSilentSamples = start.nonSilentSamples := by
  intro ops later c start d
  have hoff : (0xE0 : UInt8) &&& 0x1F = 0 := rfl
  have hzero : (0x00 : UInt8) &&& 0x7F = 0 := rfl
  have hnothing : ∀ op ∈ ([] : List ChipOp), op.switchesOn = false := nofun
  have hlater : ∀ op ∈ later, op.switchesOn = false ∧ op.setsLevel = false := by decide
  obtain ⟨hframes, hcount⟩ :=
    disabled_chip_silent c hoff hzero hnothing hlater _ List.mem_cons_self
  have hnone : ∀ options, .sample options ∈ later → options.filters = false := by
    intro options hop
    simp [later] at hop
  exact ⟨by decide +kernel, by decide +kernel, hlater, (hframes { stereo := true } rfl).1,
    (hframes {} rfl).1, hcount hnone⟩

end Chip

end Chiptune
