import Chiptune.Byte
import Chiptune.Relay
import Mathlib.Data.Nat.Bitwise

/-!
# `Chiptune.Proofs.Relay.Run`: runs of the relay, and what they leave in a log

`RelayOp` names what a player and the audio side can ask of a relay. `RelayOp.run` carries it
out, and `RelayOp.noted` says what is to be read off it: samples queued and refused, resets,
fills with what they discard, and the level of each frame.

A log has its latest entry first, so that what came before an entry is the list behind it. A
`RelayHistory` is a relay with the log of what happened to it.

* `Relay.queueZeros_eq`: zeros queued in chunks are as many as fit, and nothing else changes.
* `Relay.nextFrame_of_nil`, `Relay.nextFrame_of_cons`: a frame takes the oldest sample, or
  repeats the level.
* `Relay.switches_after`: the switches are those last set.
-/

set_option autoImplicit false

namespace Chiptune

/-- Something asked of a relay. -/
inductive RelayOp where
  | write (sample : UInt8)
  | enable (on : Bool)
  | enableDac (on : Bool)
  | route (value : UInt8)
  | prefill (samples : Nat)
  | reset
  | resetCounters
  /-- Fills two buffers of one length, which still hold old frames. -/
  | fill (stale : List Frame)
deriving DecidableEq, Repr

/-- Carries out an operation. -/
def RelayOp.run (op : RelayOp) (r : Relay) : Relay :=
  match op with
  | .write sample => (r.writeSample sample).2
  | .enable on => (r.setEnabled on).state
  | .enableDac on => r.setDacEnabled on
  | .route value => r.setOutputControl value
  | .prefill samples => (r.prefillSilence samples).state
  | .reset => r.reset.state
  | .resetCounters => r.resetCounters
  | .fill stale => (r.fill (stale.map Prod.fst) (stale.map Prod.snd)).2

/-- The settings of a relay that a player makes. -/
structure RelaySwitches where
  enabled : Bool := false
  dacEnabled : Bool := true
  outputControl : UInt8 := Relay.outputBoth
deriving DecidableEq, Repr

namespace RelaySwitches

/-- The settings after an operation. -/
def turn (s : RelaySwitches) : RelayOp → RelaySwitches
  | .enable on => { s with enabled := on }
  | .enableDac on => { s with dacEnabled := on }
  | .route value => { s with outputControl := value }
  | .reset => { s with dacEnabled := true, outputControl := Relay.outputBoth }
  | _ => s

/-- A level on both outputs: bit 7 lets it through to the left, bit 6 to the right. -/
def route (s : RelaySwitches) (level : Int16) : Frame :=
  (if s.dacEnabled && Byte.bit s.outputControl 7 then level else 0,
    if s.dacEnabled && Byte.bit s.outputControl 6 then level else 0)

end RelaySwitches

/-- The relay's settings. -/
def Relay.switches (r : Relay) : RelaySwitches :=
  { enabled := r.enabled, dacEnabled := r.dacEnabled, outputControl := r.outputControl }

/-- The relay after a list of operations. -/
def Relay.after (r : Relay) (ops : List RelayOp) : Relay := ops.foldl (fun r op => op.run r) r

/-! ### Logs -/

/-- An entry of a log. -/
inductive RelayEvent where
  | queued (sample : Int16)
  /-- A sample finds the queue full. -/
  | refused
  | reset
  | countersReset
  /-- A fill begins. It may discard what the queue holds. -/
  | filled (lost : Option (List Int16))
  /-- A frame takes its level from the queue. -/
  | taken (level : Int16)
  /-- A frame finds the queue empty and has the level that is held. -/
  | repeated (level : Int16)
deriving DecidableEq, Repr

/-- What `n` frames of an enabled relay leave in the log. -/
def Relay.framesNoted : Nat → Relay → List RelayEvent
  | 0, _ => []
  | n + 1, r =>
    let next := r.nextFrame.2
    next.framesNoted n ++ [if r.ring.isEmpty then .repeated next.held else .taken next.held]

/-- What an operation leaves in the log. Zeros are queued as many as fit. -/
def RelayOp.noted (r : Relay) : RelayOp → List RelayEvent
  | .write sample =>
    if (r.writeSample sample).1 then [.queued (Relay.convert sample)]
    else if r.enabled then [.refused]
    else []
  | .enableDac false =>
    List.replicate (min Relay.switchOffSilence r.ring.space) (.queued 0)
  | .prefill samples => List.replicate (min samples r.ring.space) (.queued 0)
  | .reset => [.reset]
  | .resetCounters => [.countersReset]
  | .fill stale =>
    let lost := if r.resets = r.resetsSeen then none else some r.ring.toList
    (if r.enabled then r.acknowledgeReset.framesNoted stale.length else []) ++ [.filled lost]
  | .enable _ | .enableDac true | .route _ => []

/-- A relay with the log of what happened to it, latest entry first. -/
structure RelayHistory where
  relay : Relay
  log : List RelayEvent := []

namespace RelayHistory

def step (h : RelayHistory) (op : RelayOp) : RelayHistory :=
  { relay := op.run h.relay, log := op.noted h.relay ++ h.log }

/-- A new relay; the log begins with the silence queued at the start. -/
def create (capacity prefill : Nat) : RelayHistory :=
  step { relay := { ring := { capacity := capacity } } } (.prefill prefill)

/-- The history after a list of operations. -/
def after (h : RelayHistory) (ops : List RelayOp) : RelayHistory := ops.foldl step h

theorem relay_after (h : RelayHistory) (ops : List RelayOp) :
    (h.after ops).relay = h.relay.after ops := by
  induction ops generalizing h with
  | nil => rfl
  | cons op ops ih => exact ih (h.step op)

theorem after_append (h : RelayHistory) (ops more : List RelayOp) :
    h.after (ops ++ more) = (h.after ops).after more := List.foldl_append

theorem relay_create {capacity prefill : Nat} {made : Outcome Relay Unit}
    (h : Relay.create capacity prefill = .ok made) :
    (create capacity prefill).relay = made.state := by
  unfold Relay.create at h
  cases hring : (Ring.createFor Relay.sampleBytes capacity : Except RingFault (Ring Int16)) with
  | error fault =>
    rw [hring] at h
    nomatch h
  | ok ring =>
    rw [hring, Ring.createFor_eq_ok hring] at h
    obtain rfl := Except.ok.inj h
    rfl

end RelayHistory

namespace Relay

/-! ### Queueing -/

/-- Some number of equal samples have been queued, as fit, and nothing else has changed. -/
def Queues (r : Relay) (n : Nat) (sample : Int16) (r' : Relay) : Prop :=
  ∃ queue : Queue Int16, r' = { r with ring := { r.ring with queue := queue } } ∧
    queue.toList = r.ring.toList ++ List.replicate n sample ∧ n ≤ r.ring.space

variable {r : Relay} (sample : UInt8)

theorem writeSample_of_disabled (h : r.enabled = false) : r.writeSample sample = (false, r) := by
  simp [writeSample, h]

/-- A full queue refuses a sample and counts it. -/
theorem writeSample_of_full (h : r.enabled = true) (hfull : r.ring.isFull = true) :
    r.writeSample sample
      = (false, { r with ring := { r.ring with overruns := r.ring.overruns + 1 } }) := by
  have hwrite : r.ring.write (convert sample)
      = (false, { r.ring with overruns := r.ring.overruns + 1 }) := by
    rw [Ring.write, Ring.push_of_full _ _ hfull]
    rfl
  simp [writeSample, h, hwrite]

/-- Any other queue takes it. -/
theorem writeSample_of_space (h : r.enabled = true) (hspace : r.ring.isFull = false) :
    (r.writeSample sample).1 = true ∧
      r.Queues 1 (convert sample) (r.writeSample sample).2 := by
  have hwrite : r.ring.write (convert sample)
      = (true, { r.ring with queue := r.ring.queue.push (convert sample) }) := by
    rw [Ring.write, Ring.push_of_space _ _ hspace]
    rfl
  have hfits : 1 ≤ r.ring.space := by
    have hlt := (Ring.isFull_eq_false_iff r.ring).mp hspace
    rw [Ring.space, Ring.available_eq_length]
    omega
  rw [writeSample, if_pos h, hwrite]
  exact ⟨rfl, _, rfl, r.ring.queue.toList_push _, hfits⟩

section
variable {wanted written count : Nat} {ring filled : Ring Int16}

/-- A chunk that does not fit whole is the last. -/
theorem queueZeros_of_short (more : written < wanted)
    (hslice : ring.writeSlice (List.replicate (min (wanted - written) silenceChunk) 0)
      = (count, filled))
    (short : count < min (wanted - written) silenceChunk) :
    queueZeros wanted ring written = (written + count, filled) := by
  rw [queueZeros, dif_pos more]
  dsimp only
  rw [hslice]
  exact dif_pos short

/-- A chunk that fits whole is followed by what is still wanted. -/
theorem queueZeros_of_whole (more : written < wanted)
    (hslice : ring.writeSlice (List.replicate (min (wanted - written) silenceChunk) 0)
      = (count, filled))
    (whole : ¬count < min (wanted - written) silenceChunk) :
    queueZeros wanted ring written = queueZeros wanted filled (written + count) := by
  rw [queueZeros, dif_pos more]
  dsimp only
  rw [hslice]
  exact dif_neg whole

theorem queueZeros_of_enough (enough : ¬written < wanted) :
    queueZeros wanted ring written = (written, ring) := by
  rw [queueZeros, dif_neg enough]

/-- What a chunk takes is gone from the space. -/
theorem space_of_writeSlice {n : Nat} {sample : Int16}
    (hslice : ring.writeSlice (List.replicate n sample) = (count, filled)) :
    count = min n ring.space ∧ filled.space = ring.space - count := by
  obtain ⟨queue, hwrite, htoList⟩ := ring.writeSlice_replicate n sample
  obtain ⟨rfl, rfl⟩ := Prod.mk.inj (hslice.symm.trans hwrite)
  have hlength := congrArg List.length htoList
  simp only [List.length_append, List.length_replicate] at hlength
  refine ⟨rfl, ?_⟩
  simp only [Ring.space, Ring.limit, Ring.available_eq_length, Ring.toList] at hlength ⊢
  omega

end

/-- Zeros queued in chunks are as many as fit. -/
theorem queueZeros_eq (wanted : Nat) (ring : Ring Int16) (written : Nat) :
    let n := min (wanted - written) ring.space
    ∃ queue, queueZeros wanted ring written = (written + n, { ring with queue := queue }) ∧
      queue.toList = ring.toList ++ List.replicate n 0 := by
  induction ring, written using queueZeros.induct wanted with
  | case1 ring written more chunk count filled hslice short =>
    -- The chunk does not fit whole, so that it leaves no space.
    have hloop := queueZeros_of_short more hslice short
    obtain ⟨queue, hwrite, htoList⟩ := ring.writeSlice_replicate chunk 0
    obtain ⟨rfl, rfl⟩ := Prod.mk.inj (hslice.symm.trans hwrite)
    have hall : min (wanted - written) ring.space = min chunk ring.space := by omega
    rw [hall]
    exact ⟨queue, hloop, htoList⟩
  | case2 ring written more chunk count filled hslice whole ih =>
    have hloop := queueZeros_of_whole more hslice whole
    obtain ⟨hcount, hspace⟩ := space_of_writeSlice hslice
    obtain ⟨first, hwrite, hfirst⟩ := ring.writeSlice_replicate chunk 0
    obtain ⟨-, rfl⟩ := Prod.mk.inj (hslice.symm.trans hwrite)
    obtain ⟨queue, hrest, htoList⟩ := ih
    have hall : count + min (wanted - (written + count)) (ring.space - count)
        = min (wanted - written) ring.space := by
      omega
    rw [← hcount] at hfirst
    rw [hspace] at hrest htoList
    refine ⟨queue, ?_, ?_⟩
    · rw [hloop, hrest, Nat.add_assoc, hall]
    · rw [← hall, ← List.replicate_append_replicate, ← List.append_assoc, ← hfirst]
      exact htoList
  | case3 ring written done =>
    have hnone : wanted - written = 0 := by omega
    refine ⟨ring.queue, ?_, ?_⟩
    · rw [queueZeros_of_enough done, hnone, Nat.zero_min]
      rfl
    · rw [hnone, Nat.zero_min, List.replicate_zero, List.append_nil]
      rfl

/-- Silence is queued as far as it fits. -/
theorem prefillSilence_queues (r : Relay) (samples : Nat) :
    (r.prefillSilence samples).result = min samples r.ring.space ∧
      r.Queues (min samples r.ring.space) 0 (r.prefillSilence samples).state := by
  obtain ⟨queue, hzeros, htoList⟩ := queueZeros_eq (min samples r.ring.limit) r.ring 0
  have hspace : r.ring.space ≤ r.ring.limit := Nat.sub_le _ _
  have hn : min (min samples r.ring.limit - 0) r.ring.space = min samples r.ring.space := by
    omega
  rw [hn, Nat.zero_add] at hzeros
  rw [hn] at htoList
  rw [prefillSilence, hzeros]
  exact ⟨rfl, queue, rfl, htoList, Nat.min_le_right _ _⟩

/-- Switching the DAC off queues a short silence as far as it fits. -/
theorem setDacEnabled_queues (r : Relay) :
    { r with dacEnabled := false }.Queues (min switchOffSilence r.ring.space) 0
      (r.setDacEnabled false) := by
  obtain ⟨queue, hslice, htoList⟩ := r.ring.writeSlice_replicate switchOffSilence 0
  rw [setDacEnabled, if_neg Bool.false_ne_true]
  dsimp only
  rw [hslice]
  exact ⟨queue, rfl, htoList, Nat.min_le_right _ _⟩

/-! ### Playing -/

/-- A mask of one bit asks for that bit. -/
theorem and_two_pow_ne_zero (value mask : UInt8) {i : Nat} (hi : mask.toNat = 2 ^ i) :
    (value &&& mask != 0) = Byte.bit value i := by
  have hand : (value &&& mask).toNat = (value.toNat.testBit i).toNat * 2 ^ i := by
    rw [UInt8.toNat_and, hi, Nat.and_two_pow]
  have hpos : 0 < 2 ^ i := Nat.two_pow_pos i
  rw [Byte.bit]
  cases hbit : value.toNat.testBit i with
  | false =>
    rw [hbit, Bool.toNat_false, Nat.zero_mul] at hand
    have hzero : value &&& mask = 0 := UInt8.toNat_inj.mp hand
    rw [hzero]
    rfl
  | true =>
    rw [hbit, Bool.toNat_true, Nat.one_mul] at hand
    have hne : value &&& mask ≠ 0 := by
      intro hzero
      rw [hzero] at hand
      exact absurd hand (Nat.ne_of_lt hpos)
    exact bne_iff_ne.mpr hne

/-- What a frame shows of its level. -/
theorem nextFrame_fst (r : Relay) : r.nextFrame.1 = r.switches.route r.nextFrame.2.held := by
  have hleft := and_two_pow_ne_zero r.outputControl 0x80 (i := 7) rfl
  have hright := and_two_pow_ne_zero r.outputControl 0x40 (i := 6) rfl
  simp only [nextFrame, toLeft, toRight, hleft, hright]
  rfl

/-- A frame on an empty queue counts an underrun and repeats the level. -/
theorem nextFrame_of_nil (h : r.ring.toList = []) :
    r.nextFrame.2 = { r with ring := { r.ring with underruns := r.ring.underruns + 1 } } := by
  rw [nextFrame, Ring.pop_of_nil h]
  rfl

/-- A frame on any other queue takes the oldest sample for its level. -/
theorem nextFrame_of_cons {level : Int16} {rest : List Int16}
    (h : r.ring.toList = level :: rest) :
    ∃ queue : Queue Int16,
      r.nextFrame.2 = { r with ring := { r.ring with queue := queue }, held := level } ∧
        queue.toList = rest := by
  obtain ⟨queue, hpop, hrest⟩ := Ring.pop_of_cons h
  refine ⟨queue, ?_, hrest⟩
  rw [nextFrame, hpop]
  rfl

theorem switches_nextFrame (r : Relay) : r.nextFrame.2.switches = r.switches := rfl

theorem switches_acknowledgeReset (r : Relay) : r.acknowledgeReset.switches = r.switches := by
  unfold acknowledgeReset
  split
  · rfl
  · rfl

theorem switches_produce (n : Nat) (r : Relay) :
    (produce nextFrame n r).2.switches = r.switches := by
  induction n generalizing r with
  | zero => rfl
  | succ n ih =>
    rw [produce_succ]
    exact ih r.nextFrame.2

/-- A fill of buffers of one length: silence from a disabled relay, as many frames as they hold
from an enabled one, and either way a reset is seen to first. -/
theorem fill_eq (r : Relay) (stale : List Frame) :
    r.fill (stale.map Prod.fst) (stale.map Prod.snd) =
      let n := stale.length
      if r.enabled then
        let (frames, r) := produce nextFrame n r.acknowledgeReset
        ((frames.map Prod.fst, frames.map Prod.snd), r)
      else
        ((List.replicate n 0, List.replicate n 0), r.acknowledgeReset) := by
  have henabled : r.acknowledgeReset.enabled = r.enabled :=
    congrArg RelaySwitches.enabled r.switches_acknowledgeReset
  rw [fill]
  dsimp only
  rw [henabled]
  cases r.enabled with
  | false => simp [Function.comp_def, List.map_const']
  | true =>
    rw [if_pos rfl, if_pos rfl,
      fillPair_of_length nextFrame _ (List.length_map _) (List.length_map _)]

/-! ### Switches -/

theorem Queues.switches {n : Nat} {level : Int16} {r' : Relay} (h : r.Queues n level r') :
    r'.switches = r.switches := by
  obtain ⟨queue, rfl, -, -⟩ := h
  rfl

theorem switches_writeSample (r : Relay) (sample : UInt8) :
    (r.writeSample sample).2.switches = r.switches := by
  cases henabled : r.enabled with
  | false => rw [writeSample_of_disabled sample henabled]
  | true =>
    cases hfull : r.ring.isFull with
    | false => exact (writeSample_of_space sample henabled hfull).2.switches
    | true =>
      rw [writeSample_of_full sample henabled hfull]
      rfl

theorem switches_run (r : Relay) (op : RelayOp) : (op.run r).switches = r.switches.turn op := by
  cases op with
  | write sample => exact r.switches_writeSample sample
  | enableDac on =>
    cases on with
    | false => exact r.setDacEnabled_queues.switches
    | true => rfl
  | prefill samples => exact (r.prefillSilence_queues samples).2.switches
  | fill stale =>
    have hseen := r.switches_acknowledgeReset
    rw [RelayOp.run, fill_eq]
    cases r.enabled with
    | false => exact hseen
    | true => exact (switches_produce _ _).trans hseen
  | _ => rfl

/-- Each switch is as it was last set. -/
theorem switches_after (r : Relay) (ops : List RelayOp) :
    (r.after ops).switches = ops.foldl RelaySwitches.turn r.switches := by
  induction ops generalizing r with
  | nil => rfl
  | cons op ops ih =>
    rw [List.foldl_cons, ← r.switches_run op]
    exact ih (op.run r)

end Relay

end Chiptune
