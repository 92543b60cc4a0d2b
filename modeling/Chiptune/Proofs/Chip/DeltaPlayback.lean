import Chiptune.Proofs.Chip.DeltaReader

/-!
# `Chiptune.Proofs.Chip.DeltaPlayback`: a sample is played bit by bit

A bit step is a clock at which the divider of a playing voice runs out (`Dmc.expires`). Counted
from the start of a sample, step `k` is to play bit `k % 8` of byte `k / 8`. In between stand the
fetch of a byte, the bits left of it, the bytes left of the sample, and at its end the restart of a
loop or silence, all decided in `refill`.

`Dmc.Reads` says where the reader stands once `k` bits of a sample are out, and
`Dmc.Reads.nextBit` takes it from `k` to `k + 1`. At the end of a pass a looping reader does what a
freshly started one does (`Dmc.nextBit_of_restart`), so that `Dmc.Underway` counts on from pass to
pass. Clocks that are no steps move only the divider, and the next step always comes
(`Dmc.exists_expires`).

* `Dmc.Underway.nextBit`: what a step plays, in any pass.
* `Dmc.Underway.clocks`: after any number of clocks, the reader has played the steps among them.
* `Dmc.sample_decoded`: the main statement.
-/

set_option autoImplicit false

namespace Chiptune

namespace Dmc

/-- The next clock is a bit step: the voice plays and its divider runs out. -/
def expires (d : Dmc) : Bool := !d.silent && d.counter ≤ 1

/-- Bit steps among the next clocks. -/
def bitSteps : Nat → Dmc → Nat
  | 0, _ => 0
  | n + 1, d => d.expires.toNat + bitSteps n d.clockTimer

/-- Clock `n` from here is bit step `k`. -/
structure StepAt (d : Dmc) (k n : Nat) : Prop where
  count : bitSteps n d = k
  expires : (clocks n d).expires = true

/-- Step `k` comes, and it moves the level up or down by two as long as seven bits hold it. -/
def Plays (d : Dmc) (k : Nat) (up : Bool) : Prop :=
  (∃ n, d.StepAt k n) ∧
    ∀ n, d.StepAt k n →
      let level := (clocks n d).level
      (clocks (n + 1) d).level
        = if up then (if level ≤ 125 then level + 2 else level)
          else (if 2 ≤ level then level - 2 else level)

/-- Offset of the configured sample. -/
def Setup.offset (s : Setup) : Nat := s.startAddress - sampleBase

/-- Bytes of the configured sample that lie in memory. -/
def Setup.length (s : Setup) : Nat := min s.configuredLength (sampleCapacity - s.offset)

/-- There is a sample to start, and it begins in memory. -/
structure Setup.Accepted (s : Setup) : Prop extends s.Startable where
  inside : s.startAddress < sampleBase + sampleCapacity

/-- Where a reader stands once `k` bits of a sample of `length` bytes are out. Bytes are fetched
when their first bit is due, so that `(k + 7) / 8` of them have been. -/
structure Reads (d : Dmc) (offset length k : Nat) : Prop where
  playing : d.silent = false
  readOffset : d.readOffset = offset + (k + 7) / 8
  bytes : d.bytesRemaining = length - (k + 7) / 8
  bits : d.bitsRemaining = 8 * ((k + 7) / 8) - k
  shift : k % 8 ≠ 0 →
    ∃ byte, d.memory.byte? (offset + k / 8) = some byte ∧ d.shiftByte = byte.toNat / 2 ^ (k % 8)

/-- The voice has played `steps` bits of its configured sample, in one pass, or with the loop flag
in any number of them. -/
structure Underway (d : Dmc) (steps : Nat) : Prop where
  accepted : d.setup.Accepted
  place : ∃ k ≤ 8 * d.setup.length, d.Reads d.setup.offset d.setup.length k ∧
    (steps = k ∨ d.loop = true ∧ steps % (8 * d.setup.length) = k % (8 * d.setup.length))

section
variable {d : Dmc} {offset length k steps : Nat}

/-! ### Clocks and steps -/

theorem clocks_add (m n : Nat) (d : Dmc) : clocks (m + n) d = clocks n (clocks m d) := by
  induction m generalizing d with
  | zero => rw [Nat.zero_add, clocks]
  | succ m ih => rw [Nat.succ_add, clocks, clocks, ih]

theorem clocks_succ (n : Nat) (d : Dmc) : clocks (n + 1) d = (clocks n d).clockTimer :=
  clocks_add n 1 d

theorem bitSteps_add (m n : Nat) (d : Dmc) :
    bitSteps (m + n) d = bitSteps m d + bitSteps n (clocks m d) := by
  induction m generalizing d with
  | zero => rw [Nat.zero_add, clocks, bitSteps, Nat.zero_add]
  | succ m ih => rw [Nat.succ_add, bitSteps, bitSteps, clocks, ih, Nat.add_assoc]

theorem bitSteps_succ (n : Nat) (d : Dmc) :
    bitSteps (n + 1) d = bitSteps n d + (clocks n d).expires.toNat :=
  bitSteps_add n 1 d

theorem clockTimer_of_expires (h : d.expires = true) :
    d.clockTimer = { d with counter := d.counter + deltaRateOf d.rateIndex - 1 }.nextBit := by
  rw [expires, Bool.and_eq_true, Bool.not_eq_true', decide_eq_true_eq] at h
  unfold clockTimer
  rw [if_neg (by simp [h.1]), if_pos h.2]

/-- A clock that is no step moves at most the divider. -/
theorem clockTimer_of_waits (h : d.expires = false) :
    ∃ counter, d.clockTimer = { d with counter := counter } := by
  unfold clockTimer
  split
  · exact ⟨d.counter, rfl⟩
  · next hplays =>
    have hdue : ¬ d.counter ≤ 1 := by
      rw [expires, Bool.eq_false_iff.mpr hplays] at h
      simpa using h
    rw [if_neg hdue]
    exact ⟨d.counter - 1, rfl⟩

/-- The divider of a playing voice always runs out. -/
theorem exists_expires (h : d.silent = false) :
    ∃ m, bitSteps m d = 0 ∧ (clocks m d).expires = true := by
  induction hcounter : d.counter generalizing d with
  | zero => exact ⟨0, rfl, by simp [clocks, expires, h, hcounter]⟩
  | succ count ih =>
    by_cases hdue : d.counter ≤ 1
    · exact ⟨0, rfl, by simp [clocks, expires, h, hdue]⟩
    · have hwaits : d.expires = false := by simp [expires, hdue]
      have hclock : d.clockTimer = { d with counter := d.counter - 1 } := by
        unfold clockTimer
        rw [if_neg (by simp [h]), if_neg hdue]
      have hnext : d.clockTimer.silent = false := by rw [hclock, h]
      have hcount : d.clockTimer.counter = count := by
        rw [hclock, hcounter]
        rfl
      obtain ⟨m, hnone, hm⟩ := ih hnext hcount
      exact ⟨m + 1, by rw [bitSteps, hwaits, hnone]; rfl, hm⟩

/-! ### The configured sample -/

theorem Setup.Accepted.length_pos {s : Setup} (h : s.Accepted) : 0 < s.length := by
  have hlength := h.length
  have hinside := h.inside
  have haddress := h.address
  unfold Setup.length Setup.offset
  omega

theorem Setup.Accepted.reach {s : Setup} (h : s.Accepted) :
    s.offset + s.length ≤ sampleCapacity := by
  have hinside := h.inside
  have haddress := h.address
  unfold Setup.length Setup.offset
  omega

/-- A sample that is started is at its first bit. -/
theorem reads_startSample (h : d.setup.Accepted) :
    d.startSample.Reads d.setup.offset d.setup.length 0 := by
  have hnone : (0 + 7) / 8 = 0 := by decide
  rw [startSample_of_inside h.toStartable h.inside]
  refine ⟨rfl, ?_, ?_, rfl, fun hmiddle => absurd rfl hmiddle⟩
  · rw [hnone, Nat.add_zero]
    rfl
  · rw [hnone, Nat.sub_zero]
    rfl

theorem level_startSample_of_accepted (h : d.setup.Accepted) : d.startSample.level = d.level := by
  rw [startSample_of_inside h.toStartable h.inside]

/-- With all bits out, no byte is left and none is in the shift register. -/
theorem Reads.exhausted (h : d.Reads offset length (8 * length)) :
    d.bitsRemaining = 0 ∧ d.bytesRemaining = 0 := by
  have hbits := h.bits
  have hbytes := h.bytes
  omega

/-! ### One bit -/

/-- Before the bit is shifted out, the byte that holds it is in the shift register. -/
theorem Reads.refill (h : d.Reads offset length k) (hk : k < 8 * length)
    (hreach : offset + length ≤ sampleCapacity) :
    ∃ byte, d.memory.byte? (offset + k / 8) = some byte ∧
      d.refill
        = { d with
            shiftByte := byte.toNat / 2 ^ (k % 8)
            readOffset := offset + k / 8 + 1
            bytesRemaining := length - k / 8 - 1
            bitsRemaining := 8 - k % 8 } := by
  have hoffset := h.readOffset
  have hbytes := h.bytes
  have hbits := h.bits
  rcases Nat.eq_zero_or_pos (k % 8) with hfirst | hmiddle
  · -- The first bit of a byte: the byte is fetched.
    have hinside : offset + k / 8 < sampleCapacity := by omega
    obtain ⟨byte, hbyte⟩ := d.memory.exists_byte hinside
    have hplace : d.readOffset = offset + k / 8 := by omega
    have hleft : d.bytesRemaining = length - k / 8 := by omega
    have hfetch := fetch_of_byte (d := d) (by rw [hplace]; exact hbyte)
    refine ⟨byte, hbyte, ?_⟩
    unfold Dmc.refill
    rw [if_neg (by omega), if_pos (by omega), hfetch, hplace, hleft, hfirst, Nat.pow_zero,
      Nat.div_one]
  · -- Another bit: the byte is there, shifted as far as it has been played.
    obtain ⟨byte, hbyte, hshift⟩ := h.shift (by omega)
    have hplace : d.readOffset = offset + k / 8 + 1 := by omega
    have hleft : d.bytesRemaining = length - k / 8 - 1 := by omega
    have hrest : d.bitsRemaining = 8 - k % 8 := by omega
    have hsame : d.refill = d := if_pos (by omega)
    refine ⟨byte, hbyte, ?_⟩
    rw [hsame, ← hshift, ← hplace, ← hleft, ← hrest]

/-- A step plays the next bit of the sample, and the reader stands behind it. -/
theorem Reads.nextBit (h : d.Reads offset length k) (hk : k < 8 * length)
    (hreach : offset + length ≤ sampleCapacity) :
    ∃ byte, d.memory.byte? (offset + k / 8) = some byte ∧
      d.nextBit.level = stepLevel d.level (Byte.bit byte (k % 8)) ∧
      d.nextBit.Reads offset length (k + 1) := by
  obtain ⟨byte, hbyte, hrefill⟩ := h.refill hk hreach
  have hnext : d.nextBit = d.refill.shiftOut := by
    unfold Dmc.nextBit
    dsimp only
    rw [if_pos]
    rw [hrefill]
    show 0 < 8 - k % 8
    omega
  have hlow : (byte.toNat / 2 ^ (k % 8) % 2 == 1) = Byte.bit byte (k % 8) := by
    rw [Byte.bit, Nat.testBit_eq_decide_div_mod_eq]
    rfl
  refine ⟨byte, hbyte, ?_, ?_⟩
  · rw [hnext, hrefill, ← hlow]
    rfl
  · rw [hnext, hrefill]
    refine ⟨h.playing, ?_, ?_, ?_, ?_⟩
    · show offset + k / 8 + 1 = offset + (k + 1 + 7) / 8
      omega
    · show length - k / 8 - 1 = length - (k + 1 + 7) / 8
      omega
    · show 8 - k % 8 - 1 = 8 * ((k + 1 + 7) / 8) - (k + 1)
      omega
    · -- The bits behind this one belong to the same byte, unless it was the last.
      intro hmiddle
      have hsame : (k + 1) / 8 = k / 8 := by omega
      have hshift : (k + 1) % 8 = k % 8 + 1 := by omega
      refine ⟨byte, by rw [hsame]; exact hbyte, ?_⟩
      show byte.toNat / 2 ^ (k % 8) / 2 = byte.toNat / 2 ^ ((k + 1) % 8)
      rw [hshift, Nat.div_div_eq_div_mul, ← Nat.pow_succ]

/-- At the end of a pass a looping sample goes on as if it were started. -/
theorem nextBit_of_restart (h : d.setup.Accepted) (hloop : d.loop = true)
    (hbits : d.bitsRemaining = 0) (hbytes : d.bytesRemaining = 0) :
    d.nextBit = d.startSample.nextBit := by
  have hstart := reads_startSample h
  have hleft : 0 < d.startSample.bytesRemaining := by
    rw [hstart.bytes]
    exact h.length_pos
  have hgoes : ¬ (d.startSample.silent || d.startSample.bytesRemaining == 0) = true := by
    simp [hstart.playing, Nat.pos_iff_ne_zero.mp hleft]
  have hfetch : d.refill = d.startSample.fetch := by
    unfold refill
    dsimp only
    rw [if_neg (by omega), if_neg (by omega), if_pos hloop, if_neg hgoes]
  have hfirst : d.startSample.refill = d.startSample.fetch := by
    have hnone : ¬ 0 < d.startSample.bitsRemaining := by
      rw [hstart.bits]
      omega
    unfold refill
    rw [if_neg hnone, if_pos hleft]
  rw [nextBit, nextBit, hfetch, hfirst]

/-- At the end of the last pass the sample falls silent, and the level stays. -/
theorem nextBit_of_end (hloop : d.loop = false) (hbits : d.bitsRemaining = 0)
    (hbytes : d.bytesRemaining = 0) : d.nextBit = { d with silent := true } := by
  have hrefill : d.refill = { d with silent := true } := by
    unfold refill
    rw [if_neg (by omega), if_neg (by omega), if_neg (by simp [hloop])]
  rw [nextBit, hrefill]
  exact if_neg (by simp [hbits])

/-! ### Passes -/

theorem underway_startSample (h : d.setup.Accepted) : d.startSample.Underway 0 := by
  refine ⟨?_, 0, Nat.zero_le _, ?_, Or.inl rfl⟩
  · rw [setup_startSample]
    exact h
  · rw [setup_startSample]
    exact reads_startSample h

theorem Underway.playing (h : d.Underway steps) : d.silent = false := by
  obtain ⟨k, -, hreads, -⟩ := h.place
  exact hreads.playing

/-- The divider has no part in where the reader stands. -/
theorem Underway.setCounter (h : d.Underway steps) (counter : Nat) :
    Underway { d with counter := counter } steps := by
  obtain ⟨k, hk, hreads, hsteps⟩ := h.place
  exact ⟨h.accepted, k, hk,
    ⟨hreads.playing, hreads.readOffset, hreads.bytes, hreads.bits, hreads.shift⟩, hsteps⟩

/-- With bits to come, the next of them is that of a reader in the middle of a pass, be it this
one or one that is started over. -/
theorem Underway.exists_reads (h : d.Underway steps)
    (hmore : steps < 8 * d.setup.length ∨ d.loop = true) :
    ∃ e : Dmc, e.nextBit = d.nextBit ∧ e.level = d.level ∧ e.setup = d.setup ∧
      e.Reads d.setup.offset d.setup.length (steps % (8 * d.setup.length)) := by
  have hpos := h.accepted.length_pos
  obtain ⟨k, hk, hreads, hsteps⟩ := h.place
  have hplace : steps % (8 * d.setup.length) = k % (8 * d.setup.length) := by
    rcases hsteps with rfl | ⟨-, hplace⟩
    · rfl
    · exact hplace
  rcases Nat.lt_or_eq_of_le hk with hbefore | hend
  · rw [hplace, Nat.mod_eq_of_lt hbefore]
    exact ⟨d, rfl, rfl, rfl, hreads⟩
  · have hloop : d.loop = true := by
      rcases hmore with hbefore | hloop
      · rcases hsteps with rfl | ⟨hloop, -⟩
        · omega
        · exact hloop
      · exact hloop
    rw [hend] at hreads
    obtain ⟨hbits, hbytes⟩ := hreads.exhausted
    rw [hplace, hend, Nat.mod_self]
    exact ⟨d.startSample, (nextBit_of_restart h.accepted hloop hbits hbytes).symm,
      level_startSample_of_accepted h.accepted, d.setup_startSample, reads_startSample h.accepted⟩

/-- A step plays the bit that its number calls for, in any pass. -/
theorem Underway.nextBit (h : d.Underway steps)
    (hmore : steps < 8 * d.setup.length ∨ d.loop = true) :
    ∃ byte, d.memory.byte? (d.setup.offset + steps / 8 % d.setup.length) = some byte ∧
      d.nextBit.level = stepLevel d.level (Byte.bit byte (steps % 8)) ∧
      d.nextBit.Underway (steps + 1) := by
  have hpos := h.accepted.length_pos
  obtain ⟨e, hnext, hlevel, hsetup, hreads⟩ := h.exists_reads hmore
  have hbefore : steps % (8 * d.setup.length) < 8 * d.setup.length := Nat.mod_lt _ (by omega)
  obtain ⟨byte, hbyte, hmoved, hbehind⟩ := hreads.nextBit hbefore h.accepted.reach
  have hmemory : e.memory = d.memory := congrArg Setup.memory hsetup
  rw [hmemory, Nat.mod_mul_right_div_self] at hbyte
  rw [hnext, hlevel, Nat.mod_mul_right_mod] at hmoved
  rw [hnext] at hbehind
  refine ⟨byte, hbyte, hmoved, ?_, ?_⟩
  · rw [setup_nextBit]
    exact h.accepted
  · rw [setup_nextBit]
    refine ⟨steps % (8 * d.setup.length) + 1, hbefore, hbehind, ?_⟩
    rcases hmore with hfirst | hloop
    · rw [Nat.mod_eq_of_lt hfirst]
      exact Or.inl rfl
    · have hsame : d.nextBit.loop = d.loop := congrArg Setup.loop d.setup_nextBit
      rw [hsame, Nat.mod_add_mod]
      exact Or.inr ⟨hloop, rfl⟩

theorem Underway.clockTimer (h : d.Underway steps)
    (hmore : steps + d.expires.toNat ≤ 8 * d.setup.length ∨ d.loop = true) :
    d.clockTimer.Underway (steps + d.expires.toNat) := by
  cases hexpires : d.expires with
  | false =>
    obtain ⟨counter, hclock⟩ := clockTimer_of_waits hexpires
    rw [hclock]
    exact h.setCounter counter
  | true =>
    rw [hexpires] at hmore
    have hcounter := h.setCounter (d.counter + deltaRateOf d.rateIndex - 1)
    obtain ⟨-, -, -, hnext⟩ := hcounter.nextBit hmore
    rw [clockTimer_of_expires hexpires]
    exact hnext

/-- After any number of clocks the reader has played the steps among them, as long as there were
bits for all. -/
theorem Underway.clocks (h : d.Underway steps) (n : Nat)
    (hmore : steps + bitSteps n d ≤ 8 * d.setup.length ∨ d.loop = true) :
    (clocks n d).Underway (steps + bitSteps n d) := by
  induction n generalizing d steps with
  | zero => exact h
  | succ n ih =>
    have hstep : steps + d.expires.toNat ≤ 8 * d.setup.length ∨ d.loop = true := by
      rw [bitSteps] at hmore
      exact hmore.imp_left fun hall => by omega
    have hsetup := d.setup_clockTimer
    have hloop : d.clockTimer.loop = d.loop := congrArg Setup.loop hsetup
    rw [bitSteps, ← Nat.add_assoc] at hmore ⊢
    exact ih (h.clockTimer hstep) (by rw [hsetup, hloop]; exact hmore)

/-- Every step up to the one behind the last bit comes, and in a loop every step. -/
theorem Underway.exists_stepAt (h : d.Underway 0)
    (hmore : k ≤ 8 * d.setup.length ∨ d.loop = true) : ∃ n, d.StepAt k n := by
  induction k with
  | zero =>
    obtain ⟨n, hnone, hn⟩ := exists_expires h.playing
    exact ⟨n, hnone, hn⟩
  | succ k ih =>
    obtain ⟨n, hn⟩ := ih (hmore.imp_left Nat.le_of_succ_le)
    -- Behind step `k` the voice still plays, so its divider runs out again.
    have hcount : bitSteps (n + 1) d = k + 1 := by
      rw [bitSteps_succ, hn.count, hn.expires]
      rfl
    have hbehind := h.clocks (n + 1) (by rw [Nat.zero_add, hcount]; exact hmore)
    obtain ⟨m, hnone, hm⟩ := exists_expires hbehind.playing
    refine ⟨n + 1 + m, ?_, ?_⟩
    · rw [bitSteps_add, hcount, hnone]
    · rw [clocks_add]
      exact hm

/-- The voice at the clock that is step `k`. -/
theorem Underway.stepAt (h : d.Underway 0) {n : Nat} (hn : d.StepAt k n)
    (hmore : k ≤ 8 * d.setup.length ∨ d.loop = true) : (Dmc.clocks n d).Underway k := by
  have hbefore := h.clocks n (by rw [Nat.zero_add, hn.count]; exact hmore)
  rwa [Nat.zero_add, hn.count] at hbefore

/-- Step `k` plays its bit. -/
theorem Underway.plays (h : d.Underway 0) (hmore : k < 8 * d.setup.length ∨ d.loop = true) :
    ∃ byte, d.memory.byte? (d.setup.offset + k / 8 % d.setup.length) = some byte ∧
      d.Plays k (Byte.bit byte (k % 8)) := by
  have hreach := h.accepted.reach
  have hplace := Nat.mod_lt (k / 8) h.accepted.length_pos
  have hcome : k ≤ 8 * d.setup.length ∨ d.loop = true := hmore.imp_left Nat.le_of_lt
  have hinside : d.setup.offset + k / 8 % d.setup.length < sampleCapacity := by omega
  obtain ⟨byte, hbyte⟩ := d.memory.exists_byte hinside
  refine ⟨byte, hbyte, h.exists_stepAt hcome, ?_⟩
  intro n hn level
  -- Before the bit is played, the divider starts over.
  have hsetup := setup_clocks n d
  have hloop : (Dmc.clocks n d).loop = d.loop := congrArg Setup.loop hsetup
  have hmemory : (Dmc.clocks n d).memory = d.memory := congrArg Setup.memory hsetup
  have hcounter := (h.stepAt hn hcome).setCounter
    ((Dmc.clocks n d).counter + deltaRateOf (Dmc.clocks n d).rateIndex - 1)
  obtain ⟨played, hplayed, hmoved, -⟩ := hcounter.nextBit (by
    show k < 8 * (Dmc.clocks n d).setup.length ∨ (Dmc.clocks n d).loop = true
    rw [hsetup, hloop]
    exact hmore)
  have hsame : played = byte := by
    have hread : (Dmc.clocks n d).memory.byte?
        ((Dmc.clocks n d).setup.offset + k / 8 % (Dmc.clocks n d).setup.length)
        = some played := hplayed
    rw [hsetup, hmemory, hbyte] at hread
    exact (Option.some.inj hread).symm
  rw [clocks_succ, clockTimer_of_expires hn.expires, hmoved, hsame]
  rfl

/-- Without the loop flag, the step behind the last bit silences the voice and moves nothing. -/
theorem Underway.stops (h : d.Underway 0) (honce : d.loop = false) {n : Nat}
    (hn : d.StepAt (8 * d.setup.length) n) :
    (Dmc.clocks (n + 1) d).level = (Dmc.clocks n d).level ∧
      (Dmc.clocks (n + 1) d).silent = true := by
  have hsame : (Dmc.clocks n d).loop = false :=
    (congrArg Setup.loop (setup_clocks n d)).trans honce
  obtain ⟨k, hk, hreads, hsteps⟩ := (h.stepAt hn (Or.inl (Nat.le_refl _))).place
  rw [setup_clocks] at hk hreads
  -- There has been one pass only, and all of its bits are out.
  have hend : 8 * d.setup.length = k := by
    rcases hsteps with hend | ⟨hagain, -⟩
    · exact hend
    · rw [hsame] at hagain
      nomatch hagain
  rw [← hend] at hreads
  obtain ⟨hbits, hbytes⟩ := hreads.exhausted
  have hlast := nextBit_of_end (d := { Dmc.clocks n d with
    counter := (Dmc.clocks n d).counter + deltaRateOf (Dmc.clocks n d).rateIndex - 1 })
    hsame hbits hbytes
  rw [clocks_succ, clockTimer_of_expires hn.expires, hlast]
  exact ⟨rfl, rfl⟩

end

/-- A sample is decoded exactly. Whatever sample memory, level, start address in memory and
positive length a voice has, once the sample is started and nothing is written or loaded, the
clocks at which the divider runs out are counted from zero. Each of the first `8 * L` plays its bit
of the `L` bytes from offset `o` on, the least significant first, and no other clock moves the
level.

Without the loop flag the next step after them moves nothing and silences the voice. With it, every
step plays its bit of the same bytes over and over. -/
theorem sample_decoded (d : Dmc) (hloaded : d.loaded = true) (hbase : 0xC000 ≤ d.startAddress)
    (hinside : d.startAddress < 0x10000) (hlength : 0 < d.configuredLength) :
    let o := d.startAddress - 0xC000
    let L := min d.configuredLength (16384 - o)
    let e := d.startSample
    e.silent = false ∧ e.level = d.level ∧
    (∀ n, (clocks n e).expires = false → (clocks (n + 1) e).level = (clocks n e).level) ∧
    (∀ k < 8 * L, ∃ byte, d.memory.byte? (o + k / 8) = some byte ∧
      e.Plays k (Byte.bit byte (k % 8))) ∧
    (d.loop = false → (∃ n, e.StepAt (8 * L) n) ∧ ∀ n, e.StepAt (8 * L) n →
      (clocks (n + 1) e).level = (clocks n e).level ∧ (clocks (n + 1) e).silent = true) ∧
    (d.loop = true → ∀ k, ∃ byte, d.memory.byte? (o + k / 8 % L) = some byte ∧
      e.Plays k (Byte.bit byte (k % 8))) := by
  intro o L e
  have haccepted : d.setup.Accepted := ⟨⟨hloaded, hbase, hlength⟩, hinside⟩
  have hstart : e.Underway 0 := underway_startSample haccepted
  have hsetup : e.setup = d.setup := d.setup_startSample
  have hloop : e.loop = d.loop := congrArg Setup.loop hsetup
  have hmemory : e.memory = d.memory := congrArg Setup.memory hsetup
  have ho : e.setup.offset = o := by
    rw [hsetup, Setup.offset, show sampleBase = 0xC000 from rfl]
    rfl
  have hL : e.setup.length = L := by
    rw [hsetup, Setup.length, show sampleCapacity = 16384 from rfl]
    rfl
  refine ⟨hstart.playing, level_startSample_of_accepted haccepted, ?_, ?_, ?_, ?_⟩
  · intro n hwaits
    obtain ⟨counter, hclock⟩ := clockTimer_of_waits hwaits
    rw [clocks_succ, hclock]
  · intro k hk
    have hplace : k / 8 % L = k / 8 := Nat.mod_eq_of_lt (by omega)
    have hplays := hstart.plays (k := k) (Or.inl (by rw [hL]; exact hk))
    rwa [hmemory, ho, hL, hplace] at hplays
  · intro honce
    rw [← hL]
    exact ⟨hstart.exists_stepAt (Or.inl (Nat.le_refl _)),
      fun n hn => hstart.stops (hloop.trans honce) hn⟩
  · intro hagain k
    have hplays := hstart.plays (k := k) (Or.inr (hloop.trans hagain))
    rwa [hmemory, ho, hL] at hplays

/-- A looping sample of five bytes is cut to the two that lie in memory. Bit 2 of the first byte,
bit 7 of the second, and at the seam bit 0 of the first are played. -/
theorem looped_end_decoded :
    let d : Dmc :=
      { (powerUp.loadSamples #[0x03, 0x80, 0xFF] 16382).2 with
        startAddress := 0xFFFE, configuredLength := 5, loop := true }
    let e := d.startSample
    e.bytesRemaining = 2 ∧ e.Plays 2 false ∧ e.Plays 15 true ∧ e.Plays 16 true := by
  intro d e
  obtain ⟨-, -, -, hfirst, -, hagain⟩ :=
    sample_decoded d rfl (by decide) (by decide) (by decide)
  have hthree : d.memory.byte? 16382 = some 0x03 :=
    powerUp.memory.byte?_load #[0x03, 0x80, 0xFF] 16382 0 (by decide) (by decide)
  have hhigh : d.memory.byte? 16383 = some 0x80 :=
    powerUp.memory.byte?_load #[0x03, 0x80, 0xFF] 16382 1 (by decide) (by decide)
  refine ⟨by decide +kernel, ?_, ?_, ?_⟩
  · obtain ⟨byte, hbyte, hplays⟩ := hfirst 2 (by decide)
    rw [show d.startAddress - 0xC000 + 2 / 8 = 16382 by decide, hthree] at hbyte
    obtain rfl := Option.some.inj hbyte
    exact hplays
  · obtain ⟨byte, hbyte, hplays⟩ := hfirst 15 (by decide)
    rw [show d.startAddress - 0xC000 + 15 / 8 = 16383 by decide, hhigh] at hbyte
    obtain rfl := Option.some.inj hbyte
    exact hplays
  · obtain ⟨byte, hbyte, hplays⟩ := hagain rfl 16
    rw [show d.startAddress - 0xC000
      + 16 / 8 % min d.configuredLength (16384 - (d.startAddress - 0xC000)) = 16382 by decide,
      hthree] at hbyte
    obtain rfl := Option.some.inj hbyte
    exact hplays

end Dmc

end Chiptune
