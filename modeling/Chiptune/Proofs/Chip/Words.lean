import Chiptune.Proofs.Chip.Bounds

/-!
# `Chiptune.Proofs.Chip.Words`: the chip never leaves its machine words

The chip counts in numbers without bounds and reads its tables with a default. A machine does
neither: its fields are words of 8 and 16 bits, a sum or a difference can leave the word, a
look-up can miss the table. The operations whose names end in a question mark are the chip's
operations in such words. Each sum, product, difference, shift and look-up is tried, and one
that fails gives `none` for the whole operation. Saturating sums stop at the largest word.

In range (`Chip.Bounded`) nothing fails: each operation in words gives exactly what the
operation in numbers gives (`Chip.run?_eq`, `Chip.levels?_eq`). The main statement is
`Chip.after_inWords`, over every run from power-up.
-/

set_option autoImplicit false

namespace Chiptune

/-! ### Arithmetic in words -/

namespace Word

/-- A sum of words, none if it needs more than `bits` bits. -/
def add? (bits a b : Nat) : Option Nat := if a + b < 2 ^ bits then some (a + b) else none

/-- A product of words, none if it needs more than `bits` bits. -/
def mul? (bits a b : Nat) : Option Nat := if a * b < 2 ^ bits then some (a * b) else none

/-- A difference of words, none below zero. -/
def sub? (a b : Nat) : Option Nat := if b ≤ a then some (a - b) else none

/-- A shift to the right, none if it is by the width of the word or more. -/
def shiftRight? (bits a n : Nat) : Option Nat := if n < bits then some (a >>> n) else none

/-- A sum that stops at the largest word. -/
def addSaturating (bits a b : Nat) : Nat := min (a + b) (2 ^ bits - 1)

theorem add?_eq {bits a b : Nat} (h : a + b < 2 ^ bits) : add? bits a b = some (a + b) :=
  if_pos h

theorem mul?_eq {bits a b : Nat} (h : a * b < 2 ^ bits) : mul? bits a b = some (a * b) :=
  if_pos h

theorem sub?_eq {a b : Nat} (h : b ≤ a) : sub? a b = some (a - b) := if_pos h

theorem shiftRight?_eq {bits a n : Nat} (h : n < bits) : shiftRight? bits a n = some (a >>> n) :=
  if_pos h

theorem addSaturating_eq {bits a b : Nat} (h : a + b < 2 ^ bits) :
    addSaturating bits a b = a + b := by
  unfold addSaturating
  omega

end Word

/-- A look-up inside a table gives what the look-up with a default gives. -/
theorem getElem?_eq_getD {α : Type} {table : Array α} {i : Nat} (default : α)
    (h : i < table.size) : table[i]? = some (table.getD i default) := by
  rw [Array.getElem?_eq_getElem h, Array.getD, dif_pos h]
  rfl

/-! ### Envelope, length counter and sweep -/

namespace Envelope

/-- `clock` in words. -/
def clock? (e : Envelope) : Option Envelope := do
  if e.start then
    return { e with start := false, decay := 15, divider := e.period }
  else if 0 < e.divider then
    let divider ← Word.sub? e.divider 1
    return { e with divider := divider }
  else if 0 < e.decay then
    let decay ← Word.sub? e.decay 1
    return { e with divider := e.period, decay := decay }
  else
    return { e with divider := e.period, decay := if e.loop then 15 else 0 }

theorem clock?_eq (e : Envelope) : e.clock? = some e.clock := by
  unfold clock? clock
  split
  · rfl
  · split
    · next hdivider =>
      rw [Word.sub?_eq hdivider]
      rfl
    · split
      · next hdecay =>
        rw [Word.sub?_eq hdecay]
        rfl
      · rfl

end Envelope

namespace LengthCounter

/-- `load` with a look-up that can miss. -/
def load? (c : LengthCounter) (index : Nat) : Option LengthCounter := do
  let count ← lengthTable[index]?
  return { c with count := count }

/-- `clock` in words. -/
def clock? (c : LengthCounter) : Option LengthCounter := do
  if !c.halt && 0 < c.count then
    let count ← Word.sub? c.count 1
    return { c with count := count }
  else
    return c

theorem load?_eq (c : LengthCounter) (value : UInt8) :
    c.load? (Byte.field value 3 5) = some (c.load (Byte.field value 3 5)) := by
  have hindex : Byte.field value 3 5 < lengthTable.size := Byte.field_lt value 3 5
  unfold load?
  rw [getElem?_eq_getD 0 hindex]
  rfl

theorem clock?_eq (c : LengthCounter) : c.clock? = some c.clock := by
  obtain ⟨count, halt⟩ := c
  cases halt with
  | true => rfl
  | false =>
    cases count with
    | zero => rfl
    | succ n =>
      unfold clock?
      rw [if_pos (by simp), Word.sub?_eq (Nat.le_add_left 1 n)]
      rfl

end LengthCounter

namespace Sweep

/-- `target` in words of 16 bits. A negated change stops at zero by design. -/
def target? (s : Sweep) (period : Nat) : Option Nat := do
  let delta ← Word.shiftRight? 16 period s.shift
  if s.negate then
    let change ← if s.onesComplement then Word.add? 16 delta 1 else some delta
    return period - change
  else
    return Word.addSaturating 16 period delta

/-- `mutes` in words. The target is not asked for without a shift. -/
def mutes? (s : Sweep) (period : Nat) : Option Bool := do
  if 0 < s.shift then
    let target ← s.target? period
    return maxTimerPeriod < target
  else
    return false

/-- `clockDivider` in words. -/
def clockDivider? (s : Sweep) : Option (Bool × Sweep) := do
  if s.reload then
    return (false, { s with divider := s.period, reload := false })
  else if 0 < s.divider then
    let divider ← Word.sub? s.divider 1
    return (false, { s with divider := divider })
  else
    return (true, { s with divider := s.period })

theorem target?_eq {s : Sweep} (h : s.Bounded) {period : Nat} (hperiod : period ≤ 0x7FF) :
    s.target? period = some (s.target period) := by
  have hshift := h.shift
  -- A shift only makes the period smaller, so twice the period bounds the sum.
  have hdelta : period >>> s.shift ≤ period := by
    rw [Nat.shiftRight_eq_div_pow]
    exact Nat.div_le_self period _
  unfold target? target
  rw [Word.shiftRight?_eq (show s.shift < 16 by omega)]
  show (if s.negate then _ else _) = _
  cases s.negate with
  | true =>
    cases s.onesComplement with
    | true =>
      rw [if_pos rfl, if_pos rfl, Word.add?_eq (show _ < 2 ^ 16 by omega)]
      rfl
    | false => rfl
  | false =>
    rw [if_neg Bool.false_ne_true, Word.addSaturating_eq (show _ < 2 ^ 16 by omega)]
    rfl

theorem mutes?_eq {s : Sweep} (h : s.Bounded) {period : Nat} (hperiod : period ≤ 0x7FF) :
    s.mutes? period = some (s.mutes period) := by
  unfold mutes? mutes
  -- Both sides ask for the target only if there is a shift.
  by_cases hshift : 0 < s.shift
  · rw [if_pos hshift, target?_eq h hperiod, decide_eq_true hshift, Bool.true_and]
    rfl
  · rw [if_neg hshift, decide_eq_false hshift, Bool.false_and]
    rfl

theorem clockDivider?_eq (s : Sweep) : s.clockDivider? = some s.clockDivider := by
  unfold clockDivider? clockDivider
  split
  · rfl
  · split
    · next hdivider =>
      rw [Word.sub?_eq hdivider]
      rfl
    · rfl

end Sweep

/-! ### Pulse voice -/

namespace Pulse

/-- `settleMuting` in words. -/
def settleMuting? (p : Pulse) : Option Pulse := do
  let muting ← p.sweep.mutes? p.period
  return { p with periodTooLow := p.period < minPulsePeriod, sweepMuting := muting }

/-- `writeSweep` in words. -/
def writeSweep? (p : Pulse) (value : UInt8) : Option Pulse :=
  { p with sweep := p.sweep.write value }.settleMuting?

/-- `writeTimerLow` in words. -/
def writeTimerLow? (p : Pulse) (value : UInt8) : Option Pulse :=
  { p with period := p.period / 256 % 8 * 256 + value.toNat }.settleMuting?

/-- What `writeTimerHigh` does once the period is settled, in words. A timer that has run out
takes on the period and one more. -/
def restartPhase? (p : Pulse) (value : UInt8) : Option Pulse := do
  let length ← p.length.load? (Byte.field value 3 5)
  let p := { p with dutyPosition := 0, length := length, envelope := p.envelope.restart }
  if p.counter = 0 then
    let reload ← Word.add? 16 p.period 1
    return { p with counter := reload }
  else
    return p

/-- `writeTimerHigh` in words. -/
def writeTimerHigh? (p : Pulse) (value : UInt8) : Option Pulse := do
  let p ← { p with period := p.period % 256 + Byte.field value 0 3 * 256 }.settleMuting?
  p.restartPhase? value

/-- `clockTimer` in words. -/
def clockTimer? (p : Pulse) : Option Pulse := do
  if p.counter ≤ 1 then
    let reload ← Word.add? 16 p.period 1
    let position := if 0 < p.period then (p.dutyPosition + 7) % 8 else p.dutyPosition
    return { p with counter := p.counter + reload - 1, dutyPosition := position }
  else
    return { p with counter := p.counter - 1 }

/-- `clockEnvelope` in words. -/
def clockEnvelope? (p : Pulse) : Option Pulse := do
  let envelope ← p.envelope.clock?
  return { p with envelope := envelope }

/-- `clockLength` in words. -/
def clockLength? (p : Pulse) : Option Pulse := do
  let length ← p.length.clock?
  return { p with length := length }

/-- `clockSweep` in words. -/
def clockSweep? (p : Pulse) : Option Pulse := do
  let (expired, sweep) ← p.sweep.clockDivider?
  let p := { p with sweep := sweep }
  if expired && sweep.enabled && 0 < sweep.shift && !p.sweepMuting then
    let target ← p.sweep.target? p.period
    if minPulsePeriod ≤ target ∧ target ≤ maxTimerPeriod then
      let p := { p with period := target }
      p.settleMuting?
    else
      return p
  else
    return p

/-- `waveform` with look-ups that can miss. -/
def waveform? (p : Pulse) : Option Nat := do
  if !p.enabled || !p.length.running || p.periodTooLow || p.sweepMuting || p.period == 0 then
    return 0
  else
    let wave ← dutyTable[p.duty]?
    wave[p.dutyPosition]?

/-- `output` with look-ups that can miss. -/
def output? (p : Pulse) : Option Nat := do
  let wave ← p.waveform?
  return if wave = 0 then 0 else p.envelope.volume

theorem settleMuting?_eq {p : Pulse} (h : p.Bounded) : p.settleMuting? = some p.settleMuting := by
  unfold settleMuting?
  rw [Sweep.mutes?_eq h.sweep h.period]
  rfl

theorem writeSweep?_eq {p : Pulse} (h : p.Bounded) (value : UInt8) :
    p.writeSweep? value = some (p.writeSweep value) :=
  settleMuting?_eq (h.setSweep (h.sweep.write value))

theorem writeTimerLow?_eq {p : Pulse} (h : p.Bounded) (value : UInt8) :
    p.writeTimerLow? value = some (p.writeTimerLow value) :=
  settleMuting?_eq (h.setPeriod (timerLow_le p.period value))

theorem restartPhase?_eq {p : Pulse} (h : p.Bounded) (value : UInt8) :
    p.restartPhase? value
      = some { p with
          dutyPosition := 0
          counter := if p.counter = 0 then p.period + 1 else p.counter
          length := p.length.load (Byte.field value 3 5)
          envelope := p.envelope.restart } := by
  have hperiod := h.period
  unfold restartPhase?
  rw [LengthCounter.load?_eq]
  simp only [Option.bind_eq_bind, Option.bind_some]
  split
  · rw [Word.add?_eq (show p.period + 1 < 2 ^ 16 by omega)]
    rfl
  · rfl

theorem writeTimerHigh?_eq {p : Pulse} (h : p.Bounded) (value : UInt8) :
    p.writeTimerHigh? value = some (p.writeTimerHigh value) := by
  have hp := h.setPeriod (timerHigh_le p.period value)
  unfold writeTimerHigh?
  rw [settleMuting?_eq hp]
  exact restartPhase?_eq hp.settleMuting value

theorem clockTimer?_eq {p : Pulse} (h : p.Bounded) : p.clockTimer? = some p.clockTimer := by
  have hperiod := h.period
  unfold clockTimer? clockTimer
  split
  · rw [Word.add?_eq (show p.period + 1 < 2 ^ 16 by omega)]
    rfl
  · rfl

theorem clockEnvelope?_eq (p : Pulse) : p.clockEnvelope? = some p.clockEnvelope := by
  unfold clockEnvelope?
  rw [Envelope.clock?_eq]
  rfl

theorem clockLength?_eq (p : Pulse) : p.clockLength? = some p.clockLength := by
  unfold clockLength?
  rw [LengthCounter.clock?_eq]
  rfl

theorem clockSweep?_eq {p : Pulse} (h : p.Bounded) : p.clockSweep? = some p.clockSweep := by
  have hs := h.sweep.clockDivider
  have hp := h.setSweep hs
  unfold clockSweep? clockSweep sweepTarget
  rw [Sweep.clockDivider?_eq]
  simp only [Option.bind_eq_bind, Option.bind_some]
  split
  · -- The divider has run out, so the period moves if the target has eleven bits.
    rw [Sweep.target?_eq hs h.period]
    simp only [Option.bind_some]
    split
    · next htarget => exact settleMuting?_eq (hp.setPeriod htarget.2)
    · rfl
  · rfl

/-- A duty and a position in range name a bit of the table. -/
theorem dutyTable_lookup {duty position : Nat} (hduty : duty ≤ 3) (hposition : position ≤ 7) :
    (dutyTable[duty]?.bind fun wave => wave[position]?) = some (dutyBit duty position) := by
  -- The table is small enough to look up all of it.
  have h : ∀ d < 4, ∀ i < 8,
      (dutyTable[d]?.bind fun wave => wave[i]?) = some (dutyBit d i) := by decide
  exact h duty (by omega) position (by omega)

theorem waveform?_eq {p : Pulse} (h : p.Bounded) : p.waveform? = some p.waveform := by
  unfold waveform? waveform
  split
  · rfl
  · exact dutyTable_lookup h.duty h.dutyPosition

theorem output?_eq {p : Pulse} (h : p.Bounded) : p.output? = some p.output := by
  unfold output?
  rw [waveform?_eq h]
  rfl

end Pulse

/-! ### Triangle and noise voice -/

namespace Triangle

/-- `writeTimerHigh` with a look-up that can miss. -/
def writeTimerHigh? (t : Triangle) (value : UInt8) : Option Triangle := do
  let t := t.setPeriod (t.period % 256 + Byte.field value 0 3 * 256)
  let length ← t.length.load? (Byte.field value 3 5)
  return { t with length := length, reloadDue := true }

/-- `clockTimer` in words. -/
def clockTimer? (t : Triangle) : Option Triangle := do
  if t.counter ≤ 1 then
    let reload ← Word.add? 16 t.period 1
    let t := { t with counter := t.counter + reload - 1 }
    if t.length.running && 0 < t.linear then
      let next ← Word.add? 8 t.step 1
      return { t with step := next % 32 }
    else
      return t
  else
    return { t with counter := t.counter - 1 }

/-- `clockLinear` in words. -/
def clockLinear? (t : Triangle) : Option Triangle := do
  let reloadDue := t.reloadDue && t.control
  if t.reloadDue then
    return { t with linear := t.linearReload, reloadDue := reloadDue }
  else if 0 < t.linear then
    let linear ← Word.sub? t.linear 1
    return { t with linear := linear, reloadDue := reloadDue }
  else
    return { t with reloadDue := reloadDue }

/-- `clockLength` in words. -/
def clockLength? (t : Triangle) : Option Triangle := do
  let length ← t.length.clock?
  return { t with length := length }

/-- `output` with a look-up that can miss. -/
def output? (t : Triangle) : Option Nat :=
  if !t.enabled || t.periodTooLow then some 0 else triangleTable[t.step]?

theorem writeTimerHigh?_eq (t : Triangle) (value : UInt8) :
    t.writeTimerHigh? value = some (t.writeTimerHigh value) := by
  unfold writeTimerHigh?
  simp only
  rw [LengthCounter.load?_eq]
  rfl

theorem clockTimer?_eq {t : Triangle} (h : t.Bounded) : t.clockTimer? = some t.clockTimer := by
  have hperiod := h.period
  have hstep := h.step
  unfold clockTimer? clockTimer
  split
  · rw [Word.add?_eq (show t.period + 1 < 2 ^ 16 by omega)]
    simp only [Option.bind_eq_bind, Option.bind_some]
    split
    · rw [Word.add?_eq (show t.step + 1 < 2 ^ 8 by omega)]
      rfl
    · rfl
  · rfl

theorem clockLinear?_eq (t : Triangle) : t.clockLinear? = some t.clockLinear := by
  unfold clockLinear? clockLinear
  simp only
  split
  · rfl
  · split
    · next hlinear =>
      rw [Word.sub?_eq hlinear]
      rfl
    · next hlinear =>
      -- At zero the counter stays, and so does the difference of numbers.
      have hzero : t.linear - 1 = t.linear := by omega
      rw [hzero]
      rfl

theorem clockLength?_eq (t : Triangle) : t.clockLength? = some t.clockLength := by
  unfold clockLength?
  rw [LengthCounter.clock?_eq]
  rfl

theorem output?_eq {t : Triangle} (h : t.Bounded) : t.output? = some t.output := by
  have hstep : t.step < triangleTable.size := Nat.lt_succ_of_le h.step
  unfold output? output
  split
  · rfl
  · exact getElem?_eq_getD 0 hstep

end Triangle

namespace Noise

/-- `writeLength` with a look-up that can miss. -/
def writeLength? (n : Noise) (value : UInt8) : Option Noise := do
  let length ← n.length.load? (Byte.field value 3 5)
  return { n with length := length, envelope := n.envelope.restart }

/-- `clockTimer` with a look-up that can miss. -/
def clockTimer? (n : Noise) : Option Noise := do
  if n.counter ≤ 2 then
    let period ← noisePeriodTable[n.periodIndex]?
    let n := { n with counter := n.counter + period - 2 }
    return n.shift
  else
    return { n with counter := n.counter - 2 }

/-- `clockEnvelope` in words. -/
def clockEnvelope? (n : Noise) : Option Noise := do
  let envelope ← n.envelope.clock?
  return { n with envelope := envelope }

/-- `clockLength` in words. -/
def clockLength? (n : Noise) : Option Noise := do
  let length ← n.length.clock?
  return { n with length := length }

theorem writeLength?_eq (n : Noise) (value : UInt8) :
    n.writeLength? value = some (n.writeLength value) := by
  unfold writeLength?
  rw [LengthCounter.load?_eq]
  rfl

theorem clockTimer?_eq {n : Noise} (h : n.Bounded) : n.clockTimer? = some n.clockTimer := by
  have hindex : n.periodIndex < noisePeriodTable.size := Nat.lt_succ_of_le h.periodIndex
  unfold clockTimer? clockTimer
  split
  · rw [getElem?_eq_getD 0 hindex]
    rfl
  · rfl

theorem clockEnvelope?_eq (n : Noise) : n.clockEnvelope? = some n.clockEnvelope := by
  unfold clockEnvelope?
  rw [Envelope.clock?_eq]
  rfl

theorem clockLength?_eq (n : Noise) : n.clockLength? = some n.clockLength := by
  unfold clockLength?
  rw [LengthCounter.clock?_eq]
  rfl

end Noise

/-! ### Delta modulation voice -/

namespace Dmc

/-- `loadSamples` in words: the piece that is copied lies inside the data and inside sample
memory. -/
def loadSamples? (d : Dmc) (data : Array UInt8) (offset : Nat) : Option (Nat × Dmc) := do
  if data.isEmpty || sampleCapacity ≤ offset then
    return (0, d)
  else
    let space ← Word.sub? sampleCapacity offset
    let count := min data.size space
    let stop ← Word.add? 64 offset count
    if stop ≤ sampleCapacity ∧ count ≤ data.size then
      return (count, { d with memory := d.memory.load data offset, loaded := true })
    else
      none

/-- `writeAddress` in words. -/
def writeAddress? (d : Dmc) (value : UInt8) : Option Dmc := do
  let distance ← Word.mul? 16 value.toNat 64
  let address ← Word.add? 16 sampleBase distance
  return { d with startAddress := address }

/-- Points the reader at an offset, in words, if the configured sample has bytes there. -/
def startAt? (d : Dmc) (offset : Nat) : Option Dmc := do
  if sampleCapacity ≤ offset || d.configuredLength == 0 then
    return d
  else
    let space ← Word.sub? sampleCapacity offset
    let d := { d with readOffset := offset, bytesRemaining := min d.configuredLength space }
    return { d with silent := false, bitsRemaining := 0 }

/-- `startSample` in words. -/
def startSample? (d : Dmc) : Option Dmc := do
  if d.startAddress < sampleBase || !d.loaded then
    return d
  else
    let offset ← Word.sub? d.startAddress sampleBase
    d.startAt? offset

/-- `writeLength` in words. -/
def writeLength? (d : Dmc) (value : UInt8) : Option Dmc := do
  let product ← Word.mul? 16 value.toNat 16
  let length ← Word.add? 16 product 1
  let d := { d with configuredLength := length }
  if d.enabled && d.silent then d.startSample? else return d

/-- `setEnabled` in words. -/
def setEnabled? (d : Dmc) (enabled : Bool) : Option Dmc :=
  let d := { d with enabled := enabled }
  if enabled then
    if d.silent then d.startSample? else some d
  else
    some { d with silent := true }

/-- `fetch` in words. Past the end of memory there is a rule, so that nothing is missed. -/
def fetch? (d : Dmc) : Option Dmc := do
  match d.memory.byte? d.readOffset with
  | some byte =>
    let offset ← Word.add? 16 d.readOffset 1
    let count ← Word.sub? d.bytesRemaining 1
    let d := { d with shiftByte := byte.toNat, readOffset := offset, bytesRemaining := count }
    return { d with bitsRemaining := 8 }
  | none => return { d with bytesRemaining := 0, silent := true }

/-- `refill` in words. -/
def refill? (d : Dmc) : Option Dmc := do
  if 0 < d.bitsRemaining then
    return d
  else if 0 < d.bytesRemaining then
    d.fetch?
  else if d.loop then
    let d ← d.startSample?
    if d.silent || d.bytesRemaining == 0 then return d else d.fetch?
  else
    return { d with silent := true }

/-- `stepLevel` in words. -/
def stepLevel? (level : Nat) (up : Bool) : Option Nat :=
  if up then
    if level ≤ 125 then Word.add? 8 level 2 else some level
  else
    if 2 ≤ level then Word.sub? level 2 else some level

/-- `shiftOut` in words. -/
def shiftOut? (d : Dmc) : Option Dmc := do
  let level ← stepLevel? d.level (d.shiftByte % 2 == 1)
  let bits ← Word.sub? d.bitsRemaining 1
  return { d with level := level, shiftByte := d.shiftByte / 2, bitsRemaining := bits }

/-- `nextBit` in words. -/
def nextBit? (d : Dmc) : Option Dmc := do
  let d ← d.refill?
  if 0 < d.bitsRemaining then d.shiftOut? else return d

/-- `clockTimer` in words. -/
def clockTimer? (d : Dmc) : Option Dmc := do
  if d.silent then
    return d
  else if d.counter ≤ 1 then
    let rate ← deltaRateTable[d.rateIndex]?
    let d := { d with counter := d.counter + rate - 1 }
    d.nextBit?
  else
    return { d with counter := d.counter - 1 }

theorem loadSamples?_eq (d : Dmc) (data : Array UInt8) (offset : Nat) :
    d.loadSamples? data offset = some (d.loadSamples data offset) := by
  unfold loadSamples? loadSamples
  split
  · rfl
  · next hinside =>
    have hoffset : offset < sampleCapacity := by
      simp only [Bool.or_eq_true, decide_eq_true_eq, not_or, Nat.not_le] at hinside
      exact hinside.2
    -- The piece ends inside sample memory, so its end is a word and the copy is no miss.
    have hcapacity : sampleCapacity < 2 ^ 64 := by decide
    have hstop : offset + min data.size (sampleCapacity - offset) ≤ sampleCapacity := by omega
    rw [Word.sub?_eq (Nat.le_of_lt hoffset)]
    simp only [Option.bind_eq_bind, Option.bind_some]
    rw [Word.add?_eq (Nat.lt_of_le_of_lt hstop hcapacity)]
    simp only [Option.bind_some]
    rw [if_pos ⟨hstop, Nat.min_le_left _ _⟩]
    rfl

theorem writeAddress?_eq (d : Dmc) (value : UInt8) :
    d.writeAddress? value = some (d.writeAddress value) := by
  have hv := value.toNat_lt
  have hbase : sampleBase = 0xC000 := rfl
  unfold writeAddress?
  rw [Word.mul?_eq (show value.toNat * 64 < 2 ^ 16 by omega)]
  simp only [Option.bind_eq_bind, Option.bind_some]
  rw [Word.add?_eq (show sampleBase + value.toNat * 64 < 2 ^ 16 by omega)]
  rfl

/-- The rest of `startSample` once the conditions that are checked first do not hold. -/
theorem startAt?_eq (d : Dmc) (offset : Nat) {absent : Bool} (h : absent = false) :
    d.startAt? offset
      = some (if absent || sampleCapacity ≤ offset || d.configuredLength == 0 then d else
          { d with
            readOffset := offset
            bytesRemaining := min d.configuredLength (sampleCapacity - offset)
            silent := false
            bitsRemaining := 0 }) := by
  subst h
  unfold startAt?
  rw [Bool.false_or]
  split
  · rfl
  · next hinside =>
    have hoffset : offset ≤ sampleCapacity := by
      simp only [Bool.or_eq_true, decide_eq_true_eq, not_or, Nat.not_le] at hinside
      exact Nat.le_of_lt hinside.1
    rw [Word.sub?_eq hoffset]
    rfl

theorem startSample?_eq (d : Dmc) : d.startSample? = some d.startSample := by
  unfold startSample? startSample
  -- The offset is taken only from an address that is not below sample memory.
  by_cases haddress : (d.startAddress < sampleBase || !d.loaded) = true
  · rw [if_pos haddress, haddress]
    rfl
  · have hbase : sampleBase ≤ d.startAddress := by
      simp only [Bool.or_eq_true, decide_eq_true_eq, not_or, Nat.not_lt] at haddress
      exact haddress.1
    have habsent : (decide (d.startAddress < sampleBase) || !d.loaded) = false :=
      Bool.eq_false_iff.mpr haddress
    rw [if_neg haddress, Word.sub?_eq hbase, Option.bind_eq_bind, Option.bind_some]
    exact startAt?_eq d (d.startAddress - sampleBase) habsent

theorem writeLength?_eq (d : Dmc) (value : UInt8) :
    d.writeLength? value = some (d.writeLength value) := by
  have hv := value.toNat_lt
  unfold writeLength? writeLength
  rw [Word.mul?_eq (show value.toNat * 16 < 2 ^ 16 by omega)]
  simp only [Option.bind_eq_bind, Option.bind_some]
  rw [Word.add?_eq (show value.toNat * 16 + 1 < 2 ^ 16 by omega)]
  simp only [Option.bind_some]
  split
  · exact startSample?_eq _
  · rfl

theorem setEnabled?_eq (d : Dmc) (enabled : Bool) :
    d.setEnabled? enabled = some (d.setEnabled enabled) := by
  unfold setEnabled? setEnabled
  simp only
  split
  · split
    · exact startSample?_eq _
    · rfl
  · rfl

theorem fetch?_eq {d : Dmc} (h : 0 < d.bytesRemaining) : d.fetch? = some d.fetch := by
  unfold fetch? fetch
  cases hbyte : d.memory.byte? d.readOffset with
  | none => rfl
  | some byte =>
    -- There is a byte at the offset, so the next offset is a word still.
    have hoffset := lt_of_byte?_eq_some hbyte
    have hcapacity : sampleCapacity + 1 < 2 ^ 16 := by decide
    simp only
    rw [Word.add?_eq (show d.readOffset + 1 < 2 ^ 16 by omega)]
    simp only [Option.bind_eq_bind, Option.bind_some]
    rw [Word.sub?_eq h]
    rfl

theorem refill?_eq (d : Dmc) : d.refill? = some d.refill := by
  unfold refill? refill
  split
  · rfl
  · split
    · next hbytes => exact fetch?_eq hbytes
    · split
      · -- A looped sample starts over and may have nothing to read then.
        rw [startSample?_eq]
        simp only [Option.bind_eq_bind, Option.bind_some]
        split
        · rfl
        · next hstarted =>
          simp only [Bool.or_eq_true, beq_iff_eq, not_or] at hstarted
          exact fetch?_eq (Nat.pos_of_ne_zero hstarted.2)
      · rfl

theorem stepLevel?_eq {level : Nat} (up : Bool) :
    stepLevel? level up = some (stepLevel level up) := by
  unfold stepLevel? stepLevel
  split
  · split
    · exact Word.add?_eq (show level + 2 < 2 ^ 8 by omega)
    · rfl
  · split
    · next hlevel => exact Word.sub?_eq hlevel
    · rfl

theorem shiftOut?_eq {d : Dmc} (h : 0 < d.bitsRemaining) : d.shiftOut? = some d.shiftOut := by
  unfold shiftOut?
  rw [stepLevel?_eq]
  simp only [Option.bind_eq_bind, Option.bind_some]
  rw [Word.sub?_eq h]
  rfl

theorem nextBit?_eq (d : Dmc) : d.nextBit? = some d.nextBit := by
  unfold nextBit? nextBit
  rw [refill?_eq]
  simp only [Option.bind_eq_bind, Option.bind_some]
  split
  · next hbits => exact shiftOut?_eq hbits
  · rfl

theorem clockTimer?_eq {d : Dmc} (h : d.Bounded) : d.clockTimer? = some d.clockTimer := by
  have hindex : d.rateIndex < deltaRateTable.size := Nat.lt_succ_of_le h.rateIndex
  unfold clockTimer? clockTimer
  split
  · rfl
  · split
    · rw [getElem?_eq_getD 0 hindex]
      exact nextBit?_eq _
    · rfl

end Dmc

/-! ### Frame sequencer and registers -/

namespace FrameSequencer

/-- `events` with a look-up that can miss. -/
def events? (s : FrameSequencer) : Option FrameEvents :=
  (if s.fiveStep then fiveStepEvents else fourStepEvents)[s.step % s.steps]?

/-- `advance` in words. -/
def advance? (s : FrameSequencer) : Option FrameSequencer := do
  let next ← Word.add? 8 s.step 1
  return { s with step := next % s.steps }

theorem events?_eq (s : FrameSequencer) : s.events? = some s.events := by
  have hfive : s.step % 5 < fiveStepEvents.size := Nat.mod_lt s.step (by decide)
  have hfour : s.step % 4 < fourStepEvents.size := Nat.mod_lt s.step (by decide)
  unfold events? events steps
  -- The step is taken modulo the length of its sequence, so no bound is needed here.
  cases s.fiveStep with
  | true => exact getElem?_eq_getD {} hfive
  | false => exact getElem?_eq_getD {} hfour

theorem steps_le (s : FrameSequencer) : s.steps ≤ 5 := by
  unfold steps
  split <;> omega

theorem advance?_eq {s : FrameSequencer} (h : s.Bounded) : s.advance? = some s.advance := by
  have hstep : s.step < 5 := Nat.lt_of_lt_of_le h s.steps_le
  unfold advance?
  rw [Word.add?_eq (show s.step + 1 < 2 ^ 8 by omega)]
  rfl

end FrameSequencer

/-- `offset` in words, with the place of a pulse register counted from its voice's first. -/
def Register.offset? (register : Register) : Option Nat :=
  match register with
  | .pulseSweep id => Word.add? 8 id.base.toNat 1
  | .pulseTimerLow id => Word.add? 8 id.base.toNat 2
  | .pulseTimerHigh id => Word.add? 8 id.base.toNat 3
  | _ => some register.offset.toNat

theorem Register.offset?_eq (register : Register) :
    register.offset? = some register.offset.toNat := by
  cases register with
  | pulseSweep id => cases id <;> rfl
  | pulseTimerLow id => cases id <;> rfl
  | pulseTimerHigh id => cases id <;> rfl
  | _ => rfl

/-! ### The chip -/

namespace Chip

/-- `mapPulse` with an operation that can fail. -/
def mapPulse? (c : Chip) (id : PulseId) (f : Pulse → Option Pulse) : Option Chip :=
  match id with
  | .one => (f c.pulse1).map fun p => { c with pulse1 := p }
  | .two => (f c.pulse2).map fun p => { c with pulse2 := p }

/-- `writeStatus` in words. -/
def writeStatus? (c : Chip) (value : UInt8) : Option Chip := do
  let dmc ← c.dmc.setEnabled? (Byte.bit value 4)
  return { c.writeStatus value with dmc := dmc }

/-- `clockEnvelopes` in words. -/
def clockEnvelopes? (c : Chip) : Option Chip := do
  let pulse1 ← c.pulse1.clockEnvelope?
  let pulse2 ← c.pulse2.clockEnvelope?
  let noise ← c.noise.clockEnvelope?
  return { c with pulse1 := pulse1, pulse2 := pulse2, noise := noise }

/-- `clockHalfFrame` in words: all length counters, then both sweeps. -/
def clockHalfFrame? (c : Chip) : Option Chip := do
  let pulse1 ← c.pulse1.clockLength?
  let pulse2 ← c.pulse2.clockLength?
  let triangle ← c.triangle.clockLength?
  let noise ← c.noise.clockLength?
  let pulse1 ← pulse1.clockSweep?
  let pulse2 ← pulse2.clockSweep?
  return { c with pulse1 := pulse1, pulse2 := pulse2, triangle := triangle, noise := noise }

/-- `clockLinear` in words. -/
def clockLinear? (c : Chip) : Option Chip := do
  let triangle ← c.triangle.clockLinear?
  return { c with triangle := triangle }

/-- `writeFrameCounter` in words. -/
def writeFrameCounter? (c : Chip) (value : UInt8) : Option Chip := do
  let c := { c with sequencer := c.sequencer.write value }
  if c.sequencer.fiveStep then
    let c ← c.clockLinear?
    let c ← c.clockEnvelopes?
    c.clockHalfFrame?
  else
    return c

/-- `dispatch` in words. -/
def dispatch? (c : Chip) (register : Register) (value : UInt8) : Option Chip :=
  match register with
  | .pulseSweep id => c.mapPulse? id (·.writeSweep? value)
  | .pulseTimerLow id => c.mapPulse? id (·.writeTimerLow? value)
  | .pulseTimerHigh id => c.mapPulse? id (·.writeTimerHigh? value)
  | .triangleTimerHigh => (c.triangle.writeTimerHigh? value).map fun t => { c with triangle := t }
  | .noiseLength => (c.noise.writeLength? value).map fun n => { c with noise := n }
  | .dmcSampleAddress => (c.dmc.writeAddress? value).map fun d => { c with dmc := d }
  | .dmcSampleLength => (c.dmc.writeLength? value).map fun d => { c with dmc := d }
  | .status => c.writeStatus? value
  | .frameCounter => c.writeFrameCounter? value
  | _ => some (c.dispatch register value)

/-- `remember` with a place in the shadow file that can be missing. -/
def remember? (c : Chip) (offset : Nat) (value : UInt8) : Option Chip :=
  if offset < registerFileSize then
    c.shadow[offset]?.map fun _ => { c with shadow := c.shadow.setIfInBounds offset value }
  else
    some c

/-- `write` in words. -/
def write? (c : Chip) (register : Register) (value : UInt8) : Option Chip := do
  let offset ← register.offset?
  let c ← { c with registerWrites := c.registerWrites + 1 }.remember? offset value
  c.dispatch? register value

/-- `clockEvents` in words. -/
def clockEvents? (c : Chip) (events : FrameEvents) : Option Chip :=
  (if events.halfFrame then c.clockHalfFrame? else some c).bind fun c =>
    if events.envelope then c.clockEnvelopes? else some c

/-- `frameTick` in words. -/
def frameTick? (c : Chip) : Option Chip := do
  let c ← c.clockLinear?
  let events ← c.sequencer.events?
  let c ← c.clockEvents? events
  let sequencer ← c.sequencer.advance?
  return { c with sequencer := sequencer }

/-- `clock` in words. -/
def clock? (c : Chip) : Option Chip := do
  let triangle ← c.triangle.clockTimer?
  let dmc ← c.dmc.clockTimer?
  let c := { c with triangle := triangle, dmc := dmc, evenClock := !c.evenClock }
  if c.evenClock then
    return c
  else
    let pulse1 ← c.pulse1.clockTimer?
    let pulse2 ← c.pulse2.clockTimer?
    let noise ← c.noise.clockTimer?
    return { c with pulse1 := pulse1, pulse2 := pulse2, noise := noise }

/-- `levels` with look-ups that can miss. -/
def levels? (c : Chip) : Option Levels := do
  let pulse1 ← c.pulse1.output?
  let pulse2 ← c.pulse2.output?
  let triangle ← c.triangle.output?
  return { c.levels with pulse1 := pulse1, pulse2 := pulse2, triangle := triangle }

/-- `drain` in words. -/
def drain? : Nat → Chip → Float32 → Option Chip
  | 0, c, accumulator => some { c with accumulator := accumulator }
  | fuel + 1, c, accumulator =>
    if 1.0 ≤ accumulator then
      c.clock?.bind fun c => drain? fuel c (accumulator - 1.0)
    else
      some { c with accumulator := accumulator }

/-- `nextSample` in words. From the levels on, a sample is made in single precision. -/
def nextSample? (c : Chip) (options : RenderOptions) : Option (Frame × Chip) := do
  let c ← drain? maxClocksPerSample c (c.accumulator + c.clocksPerSample)
  let _ ← c.levels?
  return c.emit options

theorem mapPulse?_eq {c : Chip} (h : c.Bounded) (id : PulseId) {f : Pulse → Option Pulse}
    {g : Pulse → Pulse} (hf : ∀ {p : Pulse}, p.Bounded → f p = some (g p)) :
    c.mapPulse? id f = some (c.mapPulse id g) := by
  cases id with
  | one =>
    show (f c.pulse1).map _ = _
    rw [hf h.pulse1]
    rfl
  | two =>
    show (f c.pulse2).map _ = _
    rw [hf h.pulse2]
    rfl

theorem writeStatus?_eq (c : Chip) (value : UInt8) :
    c.writeStatus? value = some (c.writeStatus value) := by
  unfold writeStatus?
  rw [Dmc.setEnabled?_eq]
  rfl

theorem clockEnvelopes?_eq (c : Chip) : c.clockEnvelopes? = some c.clockEnvelopes := by
  unfold clockEnvelopes?
  rw [Pulse.clockEnvelope?_eq, Pulse.clockEnvelope?_eq, Noise.clockEnvelope?_eq]
  rfl

theorem clockHalfFrame?_eq {c : Chip} (h : c.Bounded) :
    c.clockHalfFrame? = some c.clockHalfFrame := by
  unfold clockHalfFrame?
  rw [Pulse.clockLength?_eq, Pulse.clockLength?_eq, Triangle.clockLength?_eq,
    Noise.clockLength?_eq]
  simp only [Option.bind_eq_bind, Option.bind_some]
  -- Sweeps come after all length counters, which keep the voices in range.
  rw [Pulse.clockSweep?_eq h.pulse1.clockLength, Pulse.clockSweep?_eq h.pulse2.clockLength]
  rfl

theorem clockLinear?_eq (c : Chip) : c.clockLinear? = some c.clockLinear := by
  unfold clockLinear?
  rw [Triangle.clockLinear?_eq]
  rfl

theorem writeFrameCounter?_eq {c : Chip} (h : c.Bounded) (value : UInt8) :
    c.writeFrameCounter? value = some (c.writeFrameCounter value) := by
  have hc : { c with sequencer := c.sequencer.write value }.Bounded :=
    { h with sequencer := c.sequencer.bounded_write value }
  unfold writeFrameCounter? writeFrameCounter
  simp only
  split
  · rw [clockLinear?_eq, Option.bind_eq_bind, Option.bind_some, clockEnvelopes?_eq,
      Option.bind_some]
    exact clockHalfFrame?_eq hc.clockLinear.clockEnvelopes
  · rfl

theorem dispatch?_eq {c : Chip} (h : c.Bounded) (register : Register) (value : UInt8) :
    c.dispatch? register value = some (c.dispatch register value) := by
  cases register with
  | pulseSweep id => exact mapPulse?_eq h id fun hp => Pulse.writeSweep?_eq hp value
  | pulseTimerLow id => exact mapPulse?_eq h id fun hp => Pulse.writeTimerLow?_eq hp value
  | pulseTimerHigh id => exact mapPulse?_eq h id fun hp => Pulse.writeTimerHigh?_eq hp value
  | triangleTimerHigh =>
    show (c.triangle.writeTimerHigh? value).map _ = _
    rw [Triangle.writeTimerHigh?_eq]
    rfl
  | noiseLength =>
    show (c.noise.writeLength? value).map _ = _
    rw [Noise.writeLength?_eq]
    rfl
  | dmcSampleAddress =>
    show (c.dmc.writeAddress? value).map _ = _
    rw [Dmc.writeAddress?_eq]
    rfl
  | dmcSampleLength =>
    show (c.dmc.writeLength? value).map _ = _
    rw [Dmc.writeLength?_eq]
    rfl
  | status => exact c.writeStatus?_eq value
  | frameCounter => exact writeFrameCounter?_eq h value
  | _ => rfl

theorem remember?_eq (c : Chip) (register : Register) (value : UInt8) :
    c.remember? register.offset.toNat value = some (c.remember register value) := by
  unfold remember? remember Register.shadowIndex?
  by_cases hoffset : register.offset.toNat < registerFileSize
  · rw [if_pos hoffset, if_pos hoffset, Vector.getElem?_eq_getElem hoffset]
    rfl
  · rw [if_neg hoffset, if_neg hoffset]

theorem write?_eq {c : Chip} (h : c.Bounded) (register : Register) (value : UInt8) :
    c.write? register value = some (c.write register value) := by
  have hc : { c with registerWrites := c.registerWrites + 1 }.Bounded := { h with }
  unfold write?
  simp only [Register.offset?_eq, remember?_eq, Option.bind_eq_bind, Option.bind_some]
  -- The write is noted first and then carried out, on a chip that is in range still.
  exact dispatch?_eq (hc.remember register value) register value

theorem clockEvents?_eq {c : Chip} (h : c.Bounded) (events : FrameEvents) :
    c.clockEvents? events = some (c.clockEvents events) := by
  have hhalf : (if events.halfFrame then c.clockHalfFrame? else some c)
      = some (if events.halfFrame then c.clockHalfFrame else c) := by
    split
    · exact clockHalfFrame?_eq h
    · rfl
  unfold clockEvents? clockEvents
  rw [hhalf, Option.bind_some]
  split
  · exact clockEnvelopes?_eq _
  · rfl

theorem frameTick?_eq {c : Chip} (h : c.Bounded) : c.frameTick? = some c.frameTick := by
  -- Each part of a tick works on the chip that the part before it left in range.
  have hc := h.clockLinear.clockEvents c.clockLinear.sequencer.events
  unfold frameTick?
  simp only [clockLinear?_eq, FrameSequencer.events?_eq, clockEvents?_eq h.clockLinear,
    FrameSequencer.advance?_eq hc.sequencer, Option.bind_eq_bind, Option.bind_some]
  rfl

theorem clock?_eq {c : Chip} (h : c.Bounded) : c.clock? = some c.clock := by
  unfold clock? clock
  rw [Triangle.clockTimer?_eq h.triangle, Dmc.clockTimer?_eq h.dmc]
  simp only [Option.bind_eq_bind, Option.bind_some]
  cases c.evenClock with
  | true =>
    rw [Pulse.clockTimer?_eq h.pulse1, Pulse.clockTimer?_eq h.pulse2, Noise.clockTimer?_eq h.noise]
    rfl
  | false => rfl

theorem levels?_eq {c : Chip} (h : c.Bounded) : c.levels? = some c.levels := by
  unfold levels?
  rw [Pulse.output?_eq h.pulse1, Pulse.output?_eq h.pulse2, Triangle.output?_eq h.triangle]
  rfl

theorem drain?_eq (fuel : Nat) {c : Chip} (h : c.Bounded) (accumulator : Float32) :
    drain? fuel c accumulator = some (drain fuel c accumulator) := by
  induction fuel generalizing c accumulator with
  | zero => rfl
  | succ fuel ih =>
    unfold drain? drain
    split
    · rw [clock?_eq h, Option.bind_some]
      exact ih h.clock _
    · rfl

theorem nextSample?_eq {c : Chip} (h : c.Bounded) (options : RenderOptions) :
    c.nextSample? options = some (c.nextSample options) := by
  unfold nextSample?
  simp only [drain?_eq _ h, levels?_eq (h.drain _ _), Option.bind_eq_bind, Option.bind_some]
  rfl

end Chip

/-- Carries out an operation in words. -/
def ChipOp.run? (op : ChipOp) (c : Chip) : Option Chip :=
  match op with
  | .write register value => c.write? register value
  | .load data offset => (c.dmc.loadSamples? data offset).map fun r => { c with dmc := r.2 }
  | .frameTick => c.frameTick?
  | .clock => c.clock?
  | .sample options => (c.nextSample? options).map Prod.snd
  | .reset => some c.reset
  | .setRate sampleRate => some (c.setSampleRate sampleRate)

namespace Chip

/-- In range, an operation in words gives what the operation in numbers gives. -/
theorem run?_eq {c : Chip} (h : c.Bounded) (op : ChipOp) : op.run? c = some (op.run c) := by
  cases op with
  | write register value => exact write?_eq h register value
  | load data offset =>
    show (c.dmc.loadSamples? data offset).map _ = _
    rw [Dmc.loadSamples?_eq]
    rfl
  | frameTick => exact frameTick?_eq h
  | clock => exact clock?_eq h
  | sample options =>
    show (c.nextSample? options).map _ = _
    rw [nextSample?_eq h]
    rfl
  | reset => rfl
  | setRate sampleRate => rfl

/-- The chip never leaves its machine words. Every chip that a run of operations reaches from
power-up is in range. No operation on it adds, multiplies or subtracts out of a word, shifts
too far or misses a table, and neither does reading its levels. The levels of pulses,
triangle and noise have four bits, that of the delta voice has seven. -/
theorem after_inWords (sampleRate : UInt32) (ops : List ChipOp) :
    let c := (powerUp sampleRate).after ops
    c.Bounded ∧ (∀ op : ChipOp, op.run? c = some (op.run c)) ∧ c.levels? = some c.levels ∧
      c.levels.Bounded := by
  have h := bounded_after sampleRate ops
  exact ⟨h, run?_eq h, levels?_eq h, levels_bounded _⟩

end Chip

end Chiptune
