import Chiptune.Ring
import Mathlib.Algebra.Group.Nat.Defs

/-!
# `Chiptune.Proofs.Ring`: a ring is a bounded FIFO with exact counters

`Ring.Fifo` says what every operation gives and leaves, in terms of the list that the ring holds.
An operation that moves elements leaves a ring that is `Refilled`: the list is another one, and the
capacity and both counters are what they were.

`RingHistory` runs a list of operations at either end and books what they answer: the elements
that were taken in and given out, in order, and how many calls were refused or came too early
since the counters were last reset. `RingHistory.Kept` is the invariant; what was taken in is what
was given out and then what is held. `Ring.bounded_fifo` is the main statement, for every power of
two of at least two and every list of operations. No other capacity makes a ring
(`Ring.create_eq_ok_iff`).
-/

set_option autoImplicit false

namespace Chiptune

/-- An operation on a ring. Both ends have a call that resets the counters. -/
inductive RingOp (α : Type) where
  | push (a : α)
  | write (a : α)
  | writeSlice (values : List α)
  | pop
  | peek
  | readInto (buffer : List α) (cut : Nat)
  | clear
  | resetCounters (side : RingEnd)

/-- A ring and what its operations have answered so far. -/
structure RingHistory (α : Type) where
  ring : Ring α
  /-- Elements taken in, first one first. -/
  accepted : List α := []
  /-- Elements given out or dropped by a clear, first one first. -/
  removed : List α := []
  /-- Elements refused since the counters were last reset. -/
  refused : Nat := 0
  /-- Times nothing could be taken since the counters were last reset. -/
  missed : Nat := 0

variable {α : Type}

namespace Ring

/-- The second ring differs from the first at most in the elements that it holds. -/
def Refilled (r : Ring α) (values : List α) (r' : Ring α) : Prop :=
  ∃ queue, r' = { r with queue := queue } ∧ queue.toList = values

/-- What a bounded queue does: what its ends tell, what its operations give and what they leave. -/
structure Fifo (r : Ring α) : Prop where
  /-- Elements held and free places add up to one less than the capacity. -/
  space : r.toList.length + r.space = r.capacity - 1
  /-- Both ends tell the same. -/
  gauge : ∀ side, r.gauge side =
    { available := r.toList.length
      space := r.space
      isFull := r.space == 0
      isEmpty := r.toList.length == 0
      fillPercent := percentOf r.toList.length (r.capacity - 1) }
  push : ∀ a,
    if r.space = 0 then r.push a = (some a, { r with overruns := r.overruns + 1 })
    else ∃ r', r.push a = (none, r') ∧ r.Refilled (r.toList ++ [a]) r'
  write : ∀ a,
    if r.space = 0 then r.write a = (false, { r with overruns := r.overruns + 1 })
    else ∃ r', r.write a = (true, r') ∧ r.Refilled (r.toList ++ [a]) r'
  writeSlice : ∀ values, ∃ r', r.writeSlice values = (min values.length r.space, r') ∧
    r.Refilled (r.toList ++ values.take r.space) r'
  pop :
    match r.toList with
    | [] => r.pop = (none, { r with underruns := r.underruns + 1 })
    | a :: rest => ∃ r', r.pop = (some a, r') ∧ r.Refilled rest r'
  peek : r.peek? = r.toList.head?
  readInto : ∀ buffer cut, ∃ r', r.readInto buffer cut =
      ((min buffer.length r.toList.length,
        r.toList.take buffer.length ++ buffer.drop r.toList.length), r') ∧
    r.Refilled (r.toList.drop buffer.length) r'
  clear : r.Refilled [] r.clear
  resetCounters : r.resetCounters = { r with overruns := 0, underruns := 0 }

variable {r : Ring α}

theorem isFull_of_space (h : r.space = 0) : r.isFull = true := beq_iff_eq.mpr h

theorem isFull_of_space_ne (h : r.space ≠ 0) : r.isFull = false := beq_eq_false_iff_ne.mpr h

/-- A ring that holds no more than it can is a bounded queue. -/
theorem fifo_of_le (h : r.toList.length ≤ r.limit) : r.Fifo where
  space := by
    rw [space, available_eq_length]
    exact Nat.add_sub_cancel' h
  gauge side := by
    have havailable := r.available_eq_length
    rw [gauge_eq r (havailable ▸ h) side, fillPercent, isEmpty, havailable]
    rfl
  push a := by
    split
    · next hspace => exact push_of_full r a (isFull_of_space hspace)
    · next hspace =>
      exact ⟨_, push_of_space r a (isFull_of_space_ne hspace), _, rfl, r.queue.toList_push a⟩
  write a := by
    split
    · next hspace => rw [write, push_of_full r a (isFull_of_space hspace)]; rfl
    · next hspace =>
      rw [write, push_of_space r a (isFull_of_space_ne hspace)]
      exact ⟨_, rfl, _, rfl, r.queue.toList_push a⟩
  writeSlice values := by
    obtain ⟨queue, hwrite, hqueue⟩ := r.writeSlice_eq values
    rw [Nat.min_comm] at hwrite
    exact ⟨_, hwrite, queue, rfl, hqueue⟩
  pop := by
    split
    · next hnil => exact pop_of_nil hnil
    · next hcons =>
      obtain ⟨queue, hpop, hqueue⟩ := pop_of_cons hcons
      exact ⟨_, hpop, queue, rfl, hqueue⟩
  peek := r.peek?_eq_head?
  readInto buffer cut :=
    ⟨_, Prod.ext (r.readInto_fst buffer cut) rfl, _, rfl, Queue.toList_ofList _⟩
  clear := ⟨_, rfl, rfl⟩
  resetCounters := rfl

end Ring

namespace RingHistory

/-- Books what an operation answers. -/
def step (h : RingHistory α) : RingOp α → RingHistory α
  | .push a =>
    match h.ring.push a with
    | (none, ring) => { h with ring := ring, accepted := h.accepted ++ [a] }
    | (some _, ring) => { h with ring := ring, refused := h.refused + 1 }
  | .write a =>
    match h.ring.write a with
    | (true, ring) => { h with ring := ring, accepted := h.accepted ++ [a] }
    | (false, ring) => { h with ring := ring, refused := h.refused + 1 }
  | .writeSlice values =>
    let (count, ring) := h.ring.writeSlice values
    { h with ring := ring, accepted := h.accepted ++ values.take count }
  | .pop =>
    match h.ring.pop with
    | (some a, ring) => { h with ring := ring, removed := h.removed ++ [a] }
    | (none, ring) => { h with ring := ring, missed := h.missed + 1 }
  | .peek => h
  | .readInto buffer cut =>
    let ((count, buffer), ring) := h.ring.readInto buffer cut
    { h with ring := ring, removed := h.removed ++ buffer.take count }
  | .clear => { h with ring := h.ring.clear, removed := h.removed ++ h.ring.toList }
  | .resetCounters _ => { h with ring := h.ring.resetCounters, refused := 0, missed := 0 }

/-- Books what a list of operations answers. -/
def run (h : RingHistory α) (ops : List (RingOp α)) : RingHistory α := ops.foldl step h

/-- The invariant: nothing is lost, doubled or out of order, and the counters are exact. -/
structure Kept (capacity : Nat) (h : RingHistory α) : Prop where
  capacity_eq : h.ring.capacity = capacity
  bounded : h.ring.toList.length ≤ h.ring.limit
  conserved : h.accepted = h.removed ++ h.ring.toList
  overruns : h.ring.overruns = UInt32.ofNat h.refused
  underruns : h.ring.underruns = UInt32.ofNat h.missed

section
variable {capacity : Nat} {h : RingHistory α} {ring : Ring α} {values accepted removed : List α}

/-- Elements that move are booked as taken in, as given out or as held. -/
theorem Kept.refill (hkept : h.Kept capacity) (hring : h.ring.Refilled values ring)
    (hbounded : values.length ≤ h.ring.limit) (hconserved : accepted = removed ++ values) :
    Kept capacity { h with ring := ring, accepted := accepted, removed := removed } := by
  obtain ⟨queue, rfl, rfl⟩ := hring
  exact
    { capacity_eq := hkept.capacity_eq
      bounded := hbounded
      conserved := hconserved
      overruns := hkept.overruns
      underruns := hkept.underruns }

/-- Elements that come in are held behind the others. -/
theorem Kept.add (hkept : h.Kept capacity) (hring : h.ring.Refilled (h.ring.toList ++ values) ring)
    (hbounded : values.length ≤ h.ring.space) :
    Kept capacity { h with ring := ring, accepted := h.accepted ++ values } := by
  refine hkept.refill hring ?_ ?_
  · have hspace := (Ring.fifo_of_le hkept.bounded).space
    rw [List.length_append]
    unfold Ring.limit
    omega
  · rw [hkept.conserved, List.append_assoc]

/-- Elements that go out were the first ones. -/
theorem Kept.take (hkept : h.Kept capacity) {rest : List α} (hring : h.ring.Refilled rest ring)
    (hheld : h.ring.toList = values ++ rest) :
    Kept capacity { h with ring := ring, removed := h.removed ++ values } := by
  refine hkept.refill hring ?_ ?_
  · have hbounded := hkept.bounded
    rw [hheld, List.length_append] at hbounded
    omega
  · rw [hkept.conserved, hheld, List.append_assoc]

theorem Kept.refuse (hkept : h.Kept capacity) :
    Kept capacity
      { h with
        ring := { h.ring with overruns := h.ring.overruns + 1 }
        refused := h.refused + 1 } :=
  { hkept with
    overruns := by
      change h.ring.overruns + 1 = _
      rw [hkept.overruns, UInt32.ofNat_add]
      rfl }

theorem Kept.miss (hkept : h.Kept capacity) :
    Kept capacity
      { h with
        ring := { h.ring with underruns := h.ring.underruns + 1 }
        missed := h.missed + 1 } :=
  { hkept with
    underruns := by
      change h.ring.underruns + 1 = _
      rw [hkept.underruns, UInt32.ofNat_add]
      rfl }

/-- Every operation keeps the invariant. -/
theorem Kept.step (hkept : h.Kept capacity) (op : RingOp α) : (h.step op).Kept capacity := by
  have hfifo := Ring.fifo_of_le hkept.bounded
  cases op with
  | push a =>
    have hpush := hfifo.push a
    split at hpush
    · simp only [RingHistory.step, hpush]
      exact hkept.refuse
    · obtain ⟨ring, hpush, hring⟩ := hpush
      simp only [RingHistory.step, hpush]
      exact hkept.add hring (by rw [List.length_singleton]; omega)
  | write a =>
    have hwrite := hfifo.write a
    split at hwrite
    · simp only [RingHistory.step, hwrite]
      exact hkept.refuse
    · obtain ⟨ring, hwrite, hring⟩ := hwrite
      simp only [RingHistory.step, hwrite]
      exact hkept.add hring (by rw [List.length_singleton]; omega)
  | writeSlice values =>
    obtain ⟨ring, hwrite, hring⟩ := hfifo.writeSlice values
    have hcount : values.take (min values.length h.ring.space) = values.take h.ring.space := by
      rw [Nat.min_comm, ← List.take_eq_take_min]
    simp only [RingHistory.step, hwrite, hcount]
    exact hkept.add hring (List.length_take_le _ _)
  | pop =>
    have hpop := hfifo.pop
    split at hpop
    · simp only [RingHistory.step, hpop]
      exact hkept.miss
    · next a rest hheld =>
      obtain ⟨ring, hpop, hring⟩ := hpop
      simp only [RingHistory.step, hpop]
      exact hkept.take hring hheld
  | peek => exact hkept
  | readInto buffer cut =>
    obtain ⟨ring, hread, hring⟩ := hfifo.readInto buffer cut
    have hcount : (h.ring.toList.take buffer.length ++ buffer.drop h.ring.toList.length).take
        (min buffer.length h.ring.toList.length) = h.ring.toList.take buffer.length := by
      rw [← List.length_take, List.take_left]
    simp only [RingHistory.step, hread, hcount]
    exact hkept.take hring (List.take_append_drop ..).symm
  | clear => exact hkept.take hfifo.clear (List.append_nil _).symm
  | resetCounters side => exact { hkept with overruns := rfl, underruns := rfl }

/-- So does every list of operations. -/
theorem kept_run (hkept : h.Kept capacity) (ops : List (RingOp α)) :
    (h.run ops).Kept capacity := by
  induction ops generalizing h with
  | nil => exact hkept
  | cons op ops ih => exact ih (hkept.step op)

end

end RingHistory

namespace Ring

theorem isPowerOfTwo_iff {n : Nat} : isPowerOfTwo n = true ↔ n.isPowerOfTwo := by
  rw [isPowerOfTwo, Nat.one_shiftLeft, beq_iff_eq]
  constructor
  · intro h
    exact ⟨n.log2, h.symm⟩
  · rintro ⟨k, rfl⟩
    rw [Nat.log2_two_pow]

/-- A capacity that is a power of two of at least two makes an empty ring. -/
theorem create_of_capacity {capacity : Nat} (htwo : 2 ≤ capacity)
    (hpower : capacity.isPowerOfTwo) :
    create capacity = .ok ({ capacity := capacity } : Ring α) := by
  rw [create, isPowerOfTwo_iff.mpr hpower, decide_eq_true htwo]
  rfl

theorem create_two_pow (k : Nat) :
    create (2 ^ (k + 1)) = .ok ({ capacity := 2 ^ (k + 1) } : Ring α) :=
  create_of_capacity (Nat.le_self_pow (Nat.succ_ne_zero k) 2) ⟨k + 1, rfl⟩

/-- No other capacity makes one. -/
theorem create_eq_ok_iff {capacity : Nat} :
    (∃ made : Ring α, create capacity = .ok made) ↔ 2 ≤ capacity ∧ capacity.isPowerOfTwo := by
  constructor
  · rintro ⟨made, hmade⟩
    unfold create at hmade
    split at hmade
    · next h => simpa [isPowerOfTwo_iff] using h
    · nomatch hmade
  · rintro ⟨htwo, hpower⟩
    exact ⟨_, create_of_capacity htwo hpower⟩

/-- Besides, the elements have to fit into memory. -/
theorem createFor_of_create {elementBytes capacity : Nat} {made : Ring α}
    (h : create capacity = .ok made) (hfits : fitsStorage elementBytes (capacity - 1) = true) :
    createFor elementBytes capacity = .ok made := by
  unfold createFor
  rw [h]
  exact if_pos hfits

/-- A ring is a bounded FIFO. Whatever is done at its two ends, what was taken in is what was
given out followed by what is held; at most one element less than the capacity is held; the
counters count what was refused and missed since they were last reset; and every operation is that
of a bounded queue. -/
theorem bounded_fifo (k : Nat) :
    ∃ made : Ring α, create (2 ^ (k + 1)) = .ok made ∧ ∀ ops : List (RingOp α),
      let h := RingHistory.run { ring := made } ops
      h.ring.capacity = 2 ^ (k + 1) ∧
      h.accepted = h.removed ++ h.ring.toList ∧
      h.ring.toList.length ≤ 2 ^ (k + 1) - 1 ∧
      h.ring.overruns.toNat = h.refused % 2 ^ 32 ∧
      h.ring.underruns.toNat = h.missed % 2 ^ 32 ∧
      h.ring.Fifo := by
  refine ⟨_, create_two_pow k, fun ops => ?_⟩
  have hmade : RingHistory.Kept (2 ^ (k + 1)) { ring := ({ capacity := 2 ^ (k + 1) } : Ring α) } :=
    { capacity_eq := rfl, bounded := Nat.zero_le _, conserved := rfl, overruns := rfl,
      underruns := rfl }
  have hkept := RingHistory.kept_run hmade ops
  refine ⟨hkept.capacity_eq, hkept.conserved, ?_, ?_, ?_, fifo_of_le hkept.bounded⟩
  · exact Nat.le_trans hkept.bounded (Nat.le_of_eq (congrArg (· - 1) hkept.capacity_eq))
  · rw [hkept.overruns, UInt32.toNat_ofNat']
  · rw [hkept.underruns, UInt32.toNat_ofNat']

end Ring

end Chiptune
