import Chiptune.Proofs.Chip.Bounds
import Chiptune.Proofs.Chip.Separation

/-!
# `Chiptune.Proofs.Chip.DeltaReader`: the delta voice reads inside its sample memory

The delta voice consists of what the player has set up, `Dmc.Setup`, and of a reader that walks
through sample memory. Clocks move the reader and leave the set-up alone (`Dmc.setup_clockTimer`),
while writes and loads change the set-up under a reader that may be in the middle of a sample.

`Dmc.Sound` is the invariant that holds both together: what is left to read lies inside the
memory, and while the voice plays, its sample could be started again. So the end of memory is
never met, and at the end of a looping sample there is a byte to go on with.

* `Dmc.refill_restart`: a looping sample starts over with the first byte of the set-up.
* `Dmc.silent_clockTimer_iff`, `Dmc.silent_clocks_iff`: which clocks end a sample.
* `ChipOp.onDelta`, `Chip.dmc_run`: what each operation of the chip does to the voice.
* `Chip.sound_after`: the invariant holds over every run.
* `Chip.delta_reader_safe`: the main statement.
-/

set_option autoImplicit false

namespace Chiptune

theorem SampleMemory.exists_byte (m : SampleMemory) {offset : Nat} (h : offset < sampleCapacity) :
    ∃ byte, m.byte? offset = some byte :=
  ⟨m.bytes[offset], Vector.getElem?_eq_getElem h⟩

/-- A byte that is loaded into memory is read back. -/
theorem SampleMemory.byte?_load (m : SampleMemory) (data : Array UInt8) (offset i : Nat)
    (hdata : i < data.size) (h : offset + i < sampleCapacity) :
    (m.load data offset).byte? (offset + i) = some data[i] := by
  have hoffset : offset + i - offset = i := by omega
  unfold byte? load
  rw [Vector.getElem?_eq_getElem h, Vector.getElem_ofFn, if_pos (Nat.le_add_right _ _), hoffset,
    Array.getElem?_eq_getElem hdata, Option.getD_some]

namespace Dmc

/-- What the player sets up. -/
structure Setup where
  enabled : Bool
  irqEnabled : Bool
  loop : Bool
  rateIndex : Nat
  startAddress : Nat
  configuredLength : Nat
  memory : SampleMemory
  loaded : Bool

/-- The voice without its reader. -/
def setup (d : Dmc) : Setup :=
  { enabled := d.enabled
    irqEnabled := d.irqEnabled
    loop := d.loop
    rateIndex := d.rateIndex
    startAddress := d.startAddress
    configuredLength := d.configuredLength
    memory := d.memory
    loaded := d.loaded }

/-- There is a sample to start. -/
structure Setup.Startable (s : Setup) : Prop where
  loaded : s.loaded = true
  address : sampleBase ≤ s.startAddress
  length : 0 < s.configuredLength

/-- The fields are in range, and a voice that plays has a sample to start over with. -/
structure Sound (d : Dmc) : Prop where
  bounded : d.Bounded
  startable : d.silent = false → d.setup.Startable

/-- The next clock ends the sample: a bit is due, none is left, and the sample does not loop. -/
structure Ends (d : Dmc) : Prop where
  playing : d.silent = false
  due : d.counter ≤ 1
  noBits : d.bitsRemaining = 0
  noBytes : d.bytesRemaining = 0
  once : d.loop = false

/-- The voice after a number of clocks. -/
def clocks : Nat → Dmc → Dmc
  | 0, d => d
  | n + 1, d => clocks n d.clockTimer

/-- What a register write does to the voice. -/
def write (d : Dmc) (register : Register) (value : UInt8) : Dmc :=
  match register with
  | .dmcControl => d.writeControl value
  | .dmcDirectLoad => d.writeLevel value
  | .dmcSampleAddress => d.writeAddress value
  | .dmcSampleLength => d.writeLength value
  | .status => d.setEnabled (Byte.bit value 4)
  | _ => d

section
variable {d : Dmc}

/-! ### The set-up under clocks -/

@[simp] theorem setup_startSample (d : Dmc) : d.startSample.setup = d.setup := by
  unfold startSample
  dsimp only
  split
  · rfl
  · simp [setup]

@[simp] theorem setup_fetch (d : Dmc) : d.fetch.setup = d.setup := by
  unfold fetch
  split
  · rfl
  · rfl

@[simp] theorem setup_refill (d : Dmc) : d.refill.setup = d.setup := by
  unfold refill
  dsimp only
  by_cases hbits : 0 < d.bitsRemaining
  · rw [if_pos hbits]
  · by_cases hbytes : 0 < d.bytesRemaining
    · simp [hbits, hbytes]
    · by_cases hloop : d.loop = true
      · -- A restart, and the fetch behind it if there is one.
        rw [if_neg hbits, if_neg hbytes, if_pos hloop]
        split
        · exact d.setup_startSample
        · rw [setup_fetch, setup_startSample]
      · rw [if_neg hbits, if_neg hbytes, if_neg hloop]
        rfl

@[simp] theorem setup_nextBit (d : Dmc) : d.nextBit.setup = d.setup := by
  unfold nextBit
  dsimp only
  split
  · exact d.setup_refill
  · exact d.setup_refill

@[simp] theorem setup_clockTimer (d : Dmc) : d.clockTimer.setup = d.setup := by
  unfold clockTimer
  split
  · rfl
  · split
    · exact setup_nextBit _
    · rfl

@[simp] theorem setup_clocks (n : Nat) (d : Dmc) : (clocks n d).setup = d.setup := by
  induction n generalizing d with
  | zero => rfl
  | succ n ih => rw [clocks, ih, setup_clockTimer]

/-! ### The set-up under writes -/

/-- A sample that is started at once is started after the length has been set. -/
theorem setup_writeLength (d : Dmc) (value : UInt8) :
    (d.writeLength value).setup
      = { d.setup with configuredLength := value.toNat * 16 + 1 } := by
  unfold writeLength
  dsimp only
  split
  · exact setup_startSample _
  · rfl

theorem setup_setEnabled (d : Dmc) (enabled : Bool) :
    (d.setEnabled enabled).setup = { d.setup with enabled := enabled } := by
  unfold setEnabled
  dsimp only
  split
  · split
    · exact setup_startSample _
    · rfl
  · rfl

/-! ### Starting a sample -/

/-- A sample that can be started, at an address in memory, is read from there on as far as memory
goes. -/
theorem startSample_of_inside (h : d.setup.Startable)
    (hinside : d.startAddress < sampleBase + sampleCapacity) :
    d.startSample
      = { d with
          readOffset := d.startAddress - sampleBase
          bytesRemaining :=
            min d.configuredLength (sampleCapacity - (d.startAddress - sampleBase))
          silent := false
          bitsRemaining := 0 } := by
  have hloaded : d.loaded = true := h.loaded
  have haddress : sampleBase ≤ d.startAddress := h.address
  have hlength : 0 < d.configuredLength := h.length
  unfold startSample
  dsimp only
  rw [if_neg]
  simp only [hloaded, Bool.or_eq_true, decide_eq_true_eq, Bool.not_true, Bool.false_eq_true,
    or_false, beq_iff_eq, not_or]
  omega

/-- The last address that can be written still lies in memory. -/
theorem startSample_of_startable (hb : d.Bounded) (h : d.setup.Startable) :
    d.startSample
      = { d with
          readOffset := d.startAddress - sampleBase
          bytesRemaining :=
            min d.configuredLength (sampleCapacity - (d.startAddress - sampleBase))
          silent := false
          bitsRemaining := 0 } := by
  have hlast := hb.startAddress
  refine startSample_of_inside h ?_
  rw [show sampleBase = 0xC000 from rfl, show sampleCapacity = 0x4000 from rfl]
  omega

/-- Without one, nothing happens. -/
theorem startSample_of_not_startable (h : ¬ d.setup.Startable) : d.startSample = d := by
  unfold startSample
  dsimp only
  rw [if_pos]
  -- One of the checks fails, for otherwise there was a sample to start.
  cases hcheck : decide (d.startAddress < sampleBase) || !d.loaded
      || decide (sampleCapacity ≤ d.startAddress - sampleBase) || d.configuredLength == 0 with
  | true => rfl
  | false =>
    simp only [Bool.or_eq_false_iff, decide_eq_false_iff_not, Bool.not_eq_false',
      beq_eq_false_iff_ne, Nat.not_lt] at hcheck
    obtain ⟨⟨⟨haddress, hloaded⟩, -⟩, hlength⟩ := hcheck
    exact absurd ⟨hloaded, haddress, Nat.pos_of_ne_zero hlength⟩ h

/-- Only a sample that can be started makes a silent voice play. -/
theorem startable_of_startSample (hplays : d.startSample.silent = false) (hsilent : d.silent = true) :
    d.setup.Startable := by
  by_cases h : d.setup.Startable
  · exact h
  · rw [startSample_of_not_startable h, hsilent] at hplays
    nomatch hplays

theorem Sound.startSample (h : d.Sound) : d.startSample.Sound := by
  refine ⟨h.bounded.startSample, ?_⟩
  intro hplays
  rw [setup_startSample]
  cases hsilent : d.silent with
  | true => exact startable_of_startSample hplays hsilent
  | false => exact h.startable hsilent

/-- A voice that plays keeps playing if it is started anew. -/
theorem playing_startSample (h : d.Sound) (hplays : d.silent = false) :
    d.startSample.silent = false := by
  rw [startSample_of_startable h.bounded (h.startable hplays)]

/-! ### Reading -/

/-- As long as bytes are left, the next one lies in memory. -/
theorem exists_byte (h : d.Bounded) (hbytes : 0 < d.bytesRemaining) :
    ∃ byte, d.memory.byte? d.readOffset = some byte := by
  have hreach := h.reach
  exact d.memory.exists_byte (by omega)

theorem fetch_of_byte {byte : UInt8} (h : d.memory.byte? d.readOffset = some byte) :
    d.fetch
      = { d with
          shiftByte := byte.toNat
          readOffset := d.readOffset + 1
          bytesRemaining := d.bytesRemaining - 1
          bitsRemaining := 8 } := by
  unfold fetch
  rw [h]

theorem silent_fetch (h : d.Bounded) (hbytes : 0 < d.bytesRemaining) :
    d.fetch.silent = d.silent := by
  obtain ⟨byte, hbyte⟩ := exists_byte h hbytes
  rw [fetch_of_byte hbyte]

/-- At its end, a looping sample goes on with the first byte of the set-up. -/
theorem refill_restart (h : d.Sound) (hplays : d.silent = false) (hloop : d.loop = true)
    (hbits : d.bitsRemaining = 0) (hbytes : d.bytesRemaining = 0) :
    ∃ byte, d.memory.byte? (d.startAddress - sampleBase) = some byte ∧
      d.refill
        = { d with
            shiftByte := byte.toNat
            readOffset := d.startAddress - sampleBase + 1
            bytesRemaining :=
              min d.configuredLength (sampleCapacity - (d.startAddress - sampleBase)) - 1
            bitsRemaining := 8 } := by
  have hstart := startSample_of_startable h.bounded (h.startable hplays)
  have hlength : 0 < d.configuredLength := (h.startable hplays).length
  have hlast := h.bounded.startAddress
  have hleft : 0 < d.startSample.bytesRemaining := by
    rw [hstart]
    dsimp only
    rw [show sampleBase = 0xC000 from rfl, show sampleCapacity = 0x4000 from rfl]
    omega
  obtain ⟨byte, hbyte⟩ := exists_byte h.bounded.startSample hleft
  have hfetch := fetch_of_byte hbyte
  refine ⟨byte, ?_, ?_⟩
  · rw [hstart] at hbyte
    exact hbyte
  · have hgoes : ¬ (d.startSample.silent || d.startSample.bytesRemaining == 0) = true := by
      rw [playing_startSample h hplays]
      simpa using Nat.pos_iff_ne_zero.mp hleft
    unfold refill
    dsimp only
    rw [if_neg (by omega), if_neg (by omega), if_pos hloop, if_neg hgoes, hfetch, hstart, hplays]

/-- No bits can be made available only at the end of a sample that does not loop. -/
theorem silent_refill_iff (h : d.Sound) (hplays : d.silent = false) :
    d.refill.silent = true ↔ d.bitsRemaining = 0 ∧ d.bytesRemaining = 0 ∧ d.loop = false := by
  -- Bits, bytes and the loop flag are asked in this order. Only the last refusal silences.
  rcases Nat.eq_zero_or_pos d.bitsRemaining with hbits | hbits
  · rcases Nat.eq_zero_or_pos d.bytesRemaining with hbytes | hbytes
    · cases hloop : d.loop with
      | true =>
        obtain ⟨byte, -, hrefill⟩ := refill_restart h hplays hloop hbits hbytes
        rw [hrefill]
        simp [hplays]
      | false => simp [refill, hbits, hbytes, hloop]
    · have hfetch : d.refill = d.fetch := by simp [refill, hbits, hbytes]
      rw [hfetch, silent_fetch h.bounded hbytes, hplays]
      simp [Nat.pos_iff_ne_zero.mp hbytes]
  · have hsame : d.refill = d := if_pos hbits
    rw [hsame, hplays]
    simp [Nat.pos_iff_ne_zero.mp hbits]

@[simp] theorem silent_nextBit (d : Dmc) : d.nextBit.silent = d.refill.silent := by
  unfold nextBit
  dsimp only
  split
  · rfl
  · rfl

theorem clockTimer_of_silent (h : d.silent = true) : d.clockTimer = d := if_pos h

/-- A clock silences a playing voice only if it ends the sample. -/
theorem silent_clockTimer_iff (h : d.Sound) (hplays : d.silent = false) :
    d.clockTimer.silent = true ↔ d.Ends := by
  unfold clockTimer
  rw [if_neg (by simp [hplays])]
  by_cases hdue : d.counter ≤ 1
  · -- The counter starts over before the bit is read, so it has to be back in range by then.
    have hlater : Sound { d with counter := d.counter + deltaRateOf d.rateIndex - 1 } := by
      have hrate := deltaRateOf_le d.rateIndex
      refine ⟨{ h.bounded with counter := ?_ }, h.startable⟩
      show d.counter + deltaRateOf d.rateIndex - 1 ≤ 428
      omega
    rw [if_pos hdue, silent_nextBit, silent_refill_iff hlater hplays]
    constructor
    · rintro ⟨hbits, hbytes, honce⟩
      exact ⟨hplays, hdue, hbits, hbytes, honce⟩
    · intro hends
      exact ⟨hends.noBits, hends.noBytes, hends.once⟩
  · rw [if_neg hdue]
    constructor
    · intro hsilent
      rw [hplays] at hsilent
      nomatch hsilent
    · intro hends
      exact absurd hends.due hdue

theorem Sound.clockTimer (h : d.Sound) : d.clockTimer.Sound := by
  refine ⟨h.bounded.clockTimer, ?_⟩
  intro hplays
  rw [setup_clockTimer]
  refine h.startable ?_
  -- Clocks do not wake a silent voice.
  cases hsilent : d.silent with
  | false => rfl
  | true =>
    rw [clockTimer_of_silent hsilent, hsilent] at hplays
    nomatch hplays

theorem clocks_of_silent (n : Nat) (h : d.silent = true) : clocks n d = d := by
  induction n with
  | zero => rfl
  | succ n ih => rw [clocks, clockTimer_of_silent h, ih]

/-- Clocks silence a playing voice only if one of them ends the sample. -/
theorem silent_clocks_iff (n : Nat) (h : d.Sound) (hplays : d.silent = false) :
    (clocks n d).silent = true ↔ ∃ m < n, (clocks m d).Ends := by
  induction n generalizing d with
  | zero => simp [clocks, hplays]
  | succ n ih =>
    -- Either the first clock ends the sample, or the others start from a playing voice.
    cases hnext : d.clockTimer.silent with
    | true =>
      have hends := (silent_clockTimer_iff h hplays).mp hnext
      rw [clocks, clocks_of_silent n hnext, hnext]
      simp only [true_iff]
      exact ⟨0, Nat.succ_pos n, hends⟩
    | false =>
      have hgoes : ¬ d.Ends := by
        intro hends
        rw [(silent_clockTimer_iff h hplays).mpr hends] at hnext
        nomatch hnext
      rw [clocks, ih h.clockTimer hnext]
      constructor
      · rintro ⟨m, hm, hends⟩
        exact ⟨m + 1, Nat.succ_lt_succ hm, hends⟩
      · rintro ⟨m, hm, hends⟩
        cases m with
        | zero => exact absurd hends hgoes
        | succ m => exact ⟨m, Nat.lt_of_succ_lt_succ hm, hends⟩

theorem Sound.clocks (n : Nat) (h : d.Sound) : (clocks n d).Sound := by
  induction n generalizing d with
  | zero => exact h
  | succ n ih => exact ih h.clockTimer

/-! ### Writes and loads -/

/-- A load changes nothing but the memory, and notes that something is in it. The bytes are kept
out of sight: comparing memories would unfold all of them. -/
theorem loadSamples_cases (d : Dmc) (data : Array UInt8) (offset : Nat) :
    (d.loadSamples data offset).2 = d ∨
      ∃ memory, (d.loadSamples data offset).2 = { d with memory := memory, loaded := true } := by
  unfold Dmc.loadSamples
  split
  · exact Or.inl rfl
  · exact Or.inr ⟨_, rfl⟩

theorem Sound.loadSamples (h : d.Sound) (data : Array UInt8) (offset : Nat) :
    (d.loadSamples data offset).2.Sound := by
  refine ⟨h.bounded.loadSamples data offset, ?_⟩
  rcases d.loadSamples_cases data offset with hsame | ⟨memory, hload⟩
  · rw [hsame]
    exact h.startable
  · rw [hload]
    intro hplays
    have hstart := h.startable hplays
    exact ⟨rfl, hstart.address, hstart.length⟩

theorem Sound.writeLength (h : d.Sound) (value : UInt8) : (d.writeLength value).Sound := by
  refine ⟨h.bounded.writeLength value, ?_⟩
  have hpositive : 0 < value.toNat * 16 + 1 := Nat.succ_pos _
  unfold Dmc.writeLength
  dsimp only
  split
  · next hstarts =>
    -- Only a silent voice is started here, so its sample is the one configured.
    have hsilent : d.silent = true := (Bool.and_eq_true_iff.mp hstarts).2
    intro hplays
    rw [setup_startSample]
    exact startable_of_startSample hplays hsilent
  · intro hplays
    have hstart := h.startable hplays
    exact ⟨hstart.loaded, hstart.address, hpositive⟩

theorem Sound.setEnabled (h : d.Sound) (enabled : Bool) : (d.setEnabled enabled).Sound := by
  have hd : Sound { d with enabled := enabled } := by
    refine ⟨{ h.bounded with }, ?_⟩
    intro hplays
    have hstart := h.startable hplays
    exact ⟨hstart.loaded, hstart.address, hstart.length⟩
  unfold Dmc.setEnabled
  dsimp only
  split
  · split
    · exact hd.startSample
    · exact hd
  · exact ⟨{ h.bounded with }, nofun⟩

theorem Sound.write (h : d.Sound) (register : Register) (value : UInt8) :
    (d.write register value).Sound := by
  cases register with
  | dmcControl =>
    refine ⟨h.bounded.writeControl value, ?_⟩
    intro hplays
    have hstart := h.startable hplays
    exact ⟨hstart.loaded, hstart.address, hstart.length⟩
  | dmcDirectLoad => exact ⟨h.bounded.writeLevel value, h.startable⟩
  | dmcSampleAddress =>
    refine ⟨h.bounded.writeAddress value, ?_⟩
    intro hplays
    have hstart := h.startable hplays
    exact ⟨hstart.loaded, Nat.le_add_right _ _, hstart.length⟩
  | dmcSampleLength => exact h.writeLength value
  | status => exact h.setEnabled _
  | _ => exact h

theorem sound_powerUp : powerUp.Sound := ⟨bounded_powerUp, nofun⟩

/-- The status register silences a playing voice by its bit 4. No other register does. -/
theorem silent_write_iff (hplays : d.silent = false) (register : Register) (value : UInt8) :
    (d.write register value).silent = true ↔ register = .status ∧ Byte.bit value 4 = false := by
  cases register with
  | dmcSampleLength =>
    have hsame : (d.writeLength value).silent = d.silent := by simp [writeLength, hplays]
    rw [write, hsame, hplays]
    simp
  | status =>
    cases hbit : Byte.bit value 4 with
    | true => simp [write, setEnabled, hbit, hplays]
    | false => simp [write, setEnabled, hbit]
  | _ => simp [write, writeControl, writeLevel, writeAddress, hplays]

end

end Dmc

/-! ### Operations of the chip -/

/-- What an operation of the chip does to the delta voice, if a sample takes `clocks` clocks. -/
def ChipOp.onDelta (clocks : Nat) (d : Dmc) : ChipOp → Dmc
  | .write register value => d.write register value
  | .load data offset => (d.loadSamples data offset).2
  | .clock => d.clockTimer
  | .sample _ => d.clocks clocks
  | .reset => .powerUp
  | .frameTick | .setRate _ => d

/-- Whether the operation silences a voice that plays: a status write that clears bit 4, a
reset, or a clock that ends the sample. -/
def ChipOp.Silences (clocks : Nat) (d : Dmc) : ChipOp → Prop
  | .write register value => register = .status ∧ Byte.bit value 4 = false
  | .clock => d.Ends
  | .sample _ => ∃ n < clocks, (d.clocks n).Ends
  | .reset => True
  | .load _ _ | .frameTick | .setRate _ => False

/-- Whether the operation stops a sample that loops, or makes it play only to its end. -/
def ChipOp.breaksLoop : ChipOp → Bool
  | .write .status value => !Byte.bit value 4
  | .write .dmcControl value => !Byte.bit value 6
  | .reset => true
  | _ => false

/-- Every operation keeps the invariant. -/
theorem Dmc.Sound.onDelta {d : Dmc} (h : d.Sound) (clocks : Nat) (op : ChipOp) :
    (op.onDelta clocks d).Sound := by
  cases op with
  | write register value => exact h.write register value
  | load data offset => exact h.loadSamples data offset
  | clock => exact h.clockTimer
  | sample options => exact h.clocks clocks
  | reset => exact sound_powerUp
  | frameTick => exact h
  | setRate sampleRate => exact h

theorem Dmc.silent_onDelta_iff {d : Dmc} (h : d.Sound) (hplays : d.silent = false) (clocks : Nat)
    (op : ChipOp) : (op.onDelta clocks d).silent = true ↔ op.Silences clocks d := by
  cases op with
  | write register value => exact silent_write_iff hplays register value
  | load data offset =>
    have hsame : (d.loadSamples data offset).2.silent = d.silent := by
      rcases d.loadSamples_cases data offset with hsame | ⟨memory, hload⟩
      · rw [hsame]
      · rw [hload]
    simp [ChipOp.onDelta, ChipOp.Silences, hsame, hplays]
  | clock => exact silent_clockTimer_iff h hplays
  | sample options => exact silent_clocks_iff clocks h hplays
  | reset => simp [ChipOp.onDelta, ChipOp.Silences, powerUp]
  | frameTick => simp [ChipOp.onDelta, ChipOp.Silences, hplays]
  | setRate sampleRate => simp [ChipOp.onDelta, ChipOp.Silences, hplays]

/-- What does not break the loop leaves the loop flag set. -/
theorem Dmc.loop_onDelta {d : Dmc} (hloop : d.loop = true) (clocks : Nat) {op : ChipOp}
    (hop : op.breaksLoop = false) : (op.onDelta clocks d).loop = true := by
  cases op with
  | write register value =>
    cases register with
    | dmcControl =>
      have hbit : Byte.bit value 6 = true := Bool.not_eq_eq_eq_not.mp hop
      exact hbit
    | dmcSampleLength => exact (congrArg Setup.loop (d.setup_writeLength value)).trans hloop
    | status => exact (congrArg Setup.loop (d.setup_setEnabled _)).trans hloop
    | _ => exact hloop
  | load data offset =>
    show (d.loadSamples data offset).2.loop = true
    rcases d.loadSamples_cases data offset with hsame | ⟨memory, hload⟩
    · rw [hsame, hloop]
    · rw [hload]
      exact hloop
  | clock => exact (congrArg Setup.loop d.setup_clockTimer).trans hloop
  | sample options => exact (congrArg Setup.loop (setup_clocks clocks d)).trans hloop
  | reset => nomatch hop
  | frameTick => exact hloop
  | setRate sampleRate => exact hloop

/-- Nor does it silence the voice. -/
theorem Dmc.not_silences {d : Dmc} (hloop : d.loop = true) {clocks : Nat} {op : ChipOp}
    (hop : op.breaksLoop = false) : ¬ op.Silences clocks d := by
  intro hsilences
  cases op with
  | write register value =>
    obtain ⟨rfl, hbit⟩ := hsilences
    have hkept : Byte.bit value 4 = true := Bool.not_eq_eq_eq_not.mp hop
    rw [hbit] at hkept
    nomatch hkept
  | clock =>
    rw [hsilences.once] at hloop
    nomatch hloop
  | sample options =>
    obtain ⟨n, -, hends⟩ := hsilences
    have hsame : (d.clocks n).loop = d.loop := congrArg Setup.loop (setup_clocks n d)
    rw [hends.once, hloop] at hsame
    nomatch hsame
  | reset => nomatch hop
  | load data offset => exact hsilences
  | frameTick => exact hsilences
  | setRate sampleRate => exact hsilences

namespace Chip

theorem dmc_dispatch (c : Chip) (register : Register) (value : UInt8) :
    (c.dispatch register value).dmc = c.dmc.write register value := by
  cases register with
  | pulseControl id => cases id <;> rfl
  | pulseSweep id => cases id <;> rfl
  | pulseTimerLow id => cases id <;> rfl
  | pulseTimerHigh id => cases id <;> rfl
  | frameCounter =>
    obtain ⟨_, _, _, _, hmode⟩ := c.writeFrameCounter_eq value
    show (c.writeFrameCounter value).dmc = c.dmc
    rw [hmode]
  | _ => rfl

theorem dmc_write (c : Chip) (register : Register) (value : UInt8) :
    (c.write register value).dmc = c.dmc.write register value := by
  have hnoted : ({ c with registerWrites := c.registerWrites + 1 }.remember register value).dmc
      = c.dmc := by
    unfold remember
    split
    · rfl
    · rfl
  rw [write, dmc_dispatch, hnoted]

theorem dmc_frameTick (c : Chip) : c.frameTick.dmc = c.dmc := by
  obtain ⟨_, _, _, _, htick⟩ := c.frameTick_eq
  rw [htick]

theorem dmc_clock (c : Chip) : c.clock.dmc = c.dmc.clockTimer := by
  unfold clock
  split
  · rfl
  · rfl

theorem dmc_nextSample (c : Chip) (options : RenderOptions) :
    (c.nextSample options).2.dmc = c.dmc.clocks c.sampleClocks := by
  -- To the voice a sample is its clocks, since what comes after them is mixing.
  have hclocks : ∀ (n : Nat) (c : Chip),
      (c.after (List.replicate n .clock)).dmc = c.dmc.clocks n := by
    intro n
    induction n with
    | zero => exact fun _ => rfl
    | succ n ih =>
      intro c
      rw [List.replicate_succ, after_cons, ih]
      show c.clock.dmc.clocks n = _
      rw [dmc_clock]
      rfl
  have hview := Voice.view_nextSample (v := .dmc) (c := c) options
  have hstate : (c.nextSample options).2.dmc
      = (c.after (List.replicate c.sampleClocks .clock)).dmc := (Voice.view_eq_iff.mp hview).1
  rw [hstate, hclocks]

/-- What an operation does to the delta voice depends on nothing but the voice, and for a sample
on the number of its clocks. -/
theorem dmc_run (c : Chip) (op : ChipOp) : (op.run c).dmc = op.onDelta c.sampleClocks c.dmc := by
  cases op with
  | write register value => exact c.dmc_write register value
  | load data offset => rfl
  | frameTick => exact c.dmc_frameTick
  | clock => exact c.dmc_clock
  | sample options => exact c.dmc_nextSample options
  | reset => rfl
  | setRate sampleRate => rfl

/-- The delta voice of every chip that a run reaches from power-up is sound. -/
theorem sound_after (sampleRate : UInt32) (ops : List ChipOp) :
    ((powerUp sampleRate).after ops).dmc.Sound := by
  refine after_induction (P := fun c => c.dmc.Sound) ?_ _ ops Dmc.sound_powerUp
  intro c op h
  rw [dmc_run]
  exact h.onDelta c.sampleClocks op

/-- A looping sample keeps looping and playing as long as nothing breaks the loop. -/
theorem playing_after {c : Chip} (h : c.dmc.Sound) (hplays : c.dmc.silent = false)
    (hloop : c.dmc.loop = true) (ops : List ChipOp) (hops : ∀ op ∈ ops, op.breaksLoop = false) :
    (c.after ops).dmc.silent = false := by
  -- Both flags go through the run together: the loop flag is why no clock ends the sample.
  induction ops generalizing c with
  | nil => exact hplays
  | cons op rest ih =>
    obtain ⟨hop, hrest⟩ := List.forall_mem_cons.mp hops
    have hkeeps := Dmc.loop_onDelta hloop c.sampleClocks hop
    have hgoes : (op.onDelta c.sampleClocks c.dmc).silent = false := by
      rw [← Bool.not_eq_true, Dmc.silent_onDelta_iff h hplays]
      exact Dmc.not_silences hloop hop
    rw [← dmc_run] at hkeeps hgoes
    refine ih ?_ hgoes hkeeps hrest
    rw [dmc_run]
    exact h.onDelta c.sampleClocks op

/-- The delta voice reads inside its sample memory, and a looping sample does not die by itself.
In every chip that a run reaches from power-up, what is left to read lies inside the memory.
Whenever a byte is fetched, the next of the sample or the first of one that is started, it is
there.

While the voice plays, something is loaded, the address lies in memory and the length is
positive, so that a looping sample starts over with the byte at its address. Only a status write
that clears bit 4, a reset, or a clock with a bit due at the end of a sample that does not loop
silences the voice. As long as no operation breaks the loop, a looping sample plays on. -/
theorem delta_reader_safe (sampleRate : UInt32) (ops : List ChipOp) :
    let c := (powerUp sampleRate).after ops
    let d := c.dmc
    d.readOffset + d.bytesRemaining ≤ 16384 ∧
    (0 < d.bytesRemaining → ∃ byte, d.memory.byte? d.readOffset = some byte) ∧
    (0 < d.startSample.bytesRemaining →
      ∃ byte, d.startSample.memory.byte? d.startSample.readOffset = some byte) ∧
    (d.silent = false →
      d.loaded = true ∧ 0xC000 ≤ d.startAddress ∧ 0 < d.configuredLength ∧
      (d.loop = true → d.bitsRemaining = 0 → d.bytesRemaining = 0 →
        ∃ byte, d.memory.byte? (d.startAddress - 0xC000) = some byte ∧
          d.refill
            = { d with
                shiftByte := byte.toNat
                readOffset := d.startAddress - 0xC000 + 1
                bytesRemaining := min d.configuredLength (16384 - (d.startAddress - 0xC000)) - 1
                bitsRemaining := 8 }) ∧
      (∀ op : ChipOp, (op.run c).dmc.silent = true ↔ op.Silences c.sampleClocks d) ∧
      (d.loop = true → ∀ more : List ChipOp, (∀ op ∈ more, op.breaksLoop = false) →
        (c.after more).dmc.silent = false)) := by
  intro c d
  have hd : d.Sound := sound_after sampleRate ops
  refine ⟨hd.bounded.reach, Dmc.exists_byte hd.bounded,
    Dmc.exists_byte hd.bounded.startSample, ?_⟩
  intro hplays
  have hstart := hd.startable hplays
  refine ⟨hstart.loaded, hstart.address, hstart.length, ?_, ?_, ?_⟩
  · exact Dmc.refill_restart hd hplays
  · intro op
    rw [dmc_run]
    exact Dmc.silent_onDelta_iff hd hplays c.sampleClocks op
  · intro hloop more hmore
    exact playing_after hd hplays hloop more hmore

/-- A byte is loaded and looped. It plays through a million clocks and a change of its address,
until the status register switches the voice off. -/
theorem looped_byte_plays :
    let ops : List ChipOp :=
      [.load #[0xAA] 0, .write .dmcControl 0x4F, .write .dmcSampleAddress 0x00,
        .write .dmcSampleLength 0x00, .write .status 0x10]
    let more : List ChipOp := .write .dmcSampleAddress 0xFF :: List.replicate 1000000 .clock
    let c := (powerUp 44100).after ops
    c.dmc.silent = false ∧ c.dmc.loop = true ∧ c.dmc.bytesRemaining = 1 ∧
      (∃ byte, c.dmc.memory.byte? c.dmc.readOffset = some byte) ∧
      (c.after more).dmc.silent = false ∧ (c.write .status 0x0F).dmc.silent = true := by
  intro ops more c
  have hplays : c.dmc.silent = false := rfl
  have hloop : c.dmc.loop = true := rfl
  have hbytes : c.dmc.bytesRemaining = 1 := rfl
  obtain ⟨-, hbyte, -, hplaying⟩ := delta_reader_safe 44100 ops
  obtain ⟨-, -, -, -, hsilences, hgoes⟩ := hplaying hplays
  have hmore : ∀ op ∈ more, op.breaksLoop = false := by
    intro op hop
    rcases List.mem_cons.mp hop with rfl | hop
    · rfl
    · rw [List.eq_of_mem_replicate hop]
      rfl
  have hplayed : (c.after more).dmc.silent = false := by
    -- The clocks are not to be carried out one by one.
    clear_value more
    exact hgoes hloop more hmore
  refine ⟨hplays, hloop, hbytes, hbyte (by rw [hbytes]; decide), hplayed, ?_⟩
  exact (hsilences (.write .status 0x0F)).mpr ⟨rfl, rfl⟩

end Chip

end Chiptune
