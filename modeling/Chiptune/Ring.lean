import Chiptune.Queue
import Chiptune.Storage
/-!
# Bounded rings with counters

A ring of `capacity` slots holds at most `capacity - 1` elements, oldest out first. A write
to a full ring is refused and counts an overrun, a read from an empty one counts an underrun;
both counters wrap at 32 bits. Transfers of several elements move what they can and count
nothing.

What a ring holds is `Ring.toList`, oldest first; the operations are stated through it.

* `isFull_iff`, `toList_write`: an element is taken unless the ring is full, and comes last.
* `writeSlice_eq`: of several the leading ones are taken, as many as fit.
* `peek?_eq_head?`, `pop_fst`, `toList_pop`: the oldest element is the first.
* `toList_readSlice`, `readInto_fst`: taking several leaves the rest, wherever in memory they lie.
* `gauge_eq`: both ends of a ring tell the same of it.
-/

set_option autoImplicit false

namespace Chiptune

/-- Whether a number is a power of two. -/
def isPowerOfTwo (n : Nat) : Bool := 1 <<< n.log2 == n

/-- A share of a whole in percent, computed in single precision. -/
def percentOf (part whole : Nat) : Float32 :=
  part.toUInt64.toFloat32 * 100.0 / whole.toUInt64.toFloat32

/-- Why a ring cannot be made. -/
inductive RingFault where
  | notPowerOfTwo (capacity : Nat)
  | storage (fault : StorageFault)
deriving DecidableEq, Repr

/-- Wording of the fault. -/
def RingFault.message : RingFault → String
  | notPowerOfTwo capacity =>
    "ring buffer capacity must be a power of two, got " ++ toString capacity
  | storage fault => fault.message

/-- The two ends of a ring: elements are added at one and taken at the other. -/
inductive RingEnd where
  | adding
  | taking
deriving DecidableEq, Repr

/-- What an end tells of its ring. -/
structure RingGauge where
  available : Nat
  space : Nat
  isFull : Bool
  isEmpty : Bool
  fillPercent : Float32

/-- A bounded queue with overrun and underrun counters. -/
structure Ring (α : Type) where
  capacity : Nat
  queue : Queue α := .empty
  overruns : UInt32 := 0
  underruns : UInt32 := 0

namespace Ring

variable {α : Type}

/-- An empty ring, if the capacity is a power of two of at least two. -/
def create (capacity : Nat) : Except RingFault (Ring α) :=
  if 2 ≤ capacity && isPowerOfTwo capacity then
    .ok { capacity := capacity }
  else
    .error (.notPowerOfTwo capacity)

/-- Like `create` for elements that take up `elementBytes` each, of which one less than
`capacity` have to fit into a piece of memory. -/
def createFor (elementBytes capacity : Nat) : Except RingFault (Ring α) := do
  let ring ← create capacity
  if fitsStorage elementBytes (capacity - 1) then .ok ring else .error (.storage .tooLarge)

/-- What the ring holds, oldest first. -/
def toList (r : Ring α) : List α := r.queue.toList

/-- Most elements the ring can hold. -/
def limit (r : Ring α) : Nat := r.capacity - 1

/-- Elements held. -/
def available (r : Ring α) : Nat := r.queue.size

/-- Elements that still fit. -/
def space (r : Ring α) : Nat := r.limit - r.available

/-- Whether nothing more fits. -/
def isFull (r : Ring α) : Bool := r.space == 0

/-- Whether nothing is held. -/
def isEmpty (r : Ring α) : Bool := r.available == 0

/-- Share of the limit that is in use, in percent. -/
def fillPercent (r : Ring α) : Float32 := percentOf r.available r.limit

/-- Adds an element. A full ring hands it back and counts an overrun. -/
def push (r : Ring α) (a : α) : Option α × Ring α :=
  if r.isFull then
    (some a, { r with overruns := r.overruns + 1 })
  else
    (none, { r with queue := r.queue.push a })

/-- Adds an element and says whether it was taken. -/
def write (r : Ring α) (a : α) : Bool × Ring α :=
  let (refused, r) := r.push a
  (refused.isNone, r)

/-- Adds the leading elements that fit and gives their number. -/
def writeSlice (r : Ring α) (values : List α) : Nat × Ring α :=
  let taken := values.take r.space
  (taken.length, { r with queue := taken.foldl Queue.push r.queue })

/-- Takes the oldest element. An empty ring counts an underrun. -/
def pop (r : Ring α) : Option α × Ring α :=
  match r.queue.pop? with
  | some (a, queue) => (some a, { r with queue := queue })
  | none => (none, { r with underruns := r.underruns + 1 })

/-- The oldest element, which stays. -/
def peek? (r : Ring α) : Option α := r.queue.peek?

/-- Takes up to `count` elements. -/
def readSlice (r : Ring α) (count : Nat) : List α × Ring α :=
  (r.toList.take count, { r with queue := .ofList (r.toList.drop count) })

/-- Copies a piece over a buffer, from a position on. -/
def splice (start : Nat) (piece buffer : List α) : List α :=
  buffer.take start ++ piece ++ buffer.drop (start + piece.length)

/-- Takes as many elements as a buffer has places, and gives their number and the buffer with them
at its start. Storage may wrap around behind `cut` of them, so that they are copied in two
pieces. -/
def readInto (r : Ring α) (buffer : List α) (cut : Nat) : (Nat × List α) × Ring α :=
  let (values, r) := r.readSlice buffer.length
  let first := values.take cut
  let buffer := splice first.length (values.drop cut) (splice 0 first buffer)
  ((values.length, buffer), r)

/-- What an end tells. The adding end knows how many slots are free and counts the others as held,
the taking end knows how many are held and counts the others as free. -/
def gauge (r : Ring α) (side : RingEnd) : RingGauge :=
  let (available, space) :=
    match side with
    | .adding => (r.limit - r.space, r.space)
    | .taking => (r.available, r.limit - r.available)
  { available := available
    space := space
    isFull := space == 0
    isEmpty := available == 0
    fillPercent := percentOf available r.limit }

/-- Drops everything held. -/
def clear (r : Ring α) : Ring α := { r with queue := .empty }

/-- Sets both counters to zero. -/
def resetCounters (r : Ring α) : Ring α := { r with overruns := 0, underruns := 0 }

/-! ### Rings as lists -/

theorem available_eq_length (r : Ring α) : r.available = r.toList.length :=
  r.queue.size_eq_length

theorem isFull_iff (r : Ring α) : r.isFull = true ↔ r.limit ≤ r.toList.length := by
  rw [isFull, beq_iff_eq, space, available_eq_length]
  omega

theorem isFull_eq_false_iff (r : Ring α) : r.isFull = false ↔ r.toList.length < r.limit := by
  rw [← Bool.not_eq_true, isFull_iff, Nat.not_le]

theorem create_eq_ok {capacity : Nat} {r : Ring α} (h : create capacity = .ok r) :
    r = { capacity := capacity } := by
  unfold create at h
  split at h
  · exact (Except.ok.inj h).symm
  · nomatch h

theorem createFor_eq_ok {elementBytes capacity : Nat} {r : Ring α}
    (h : createFor elementBytes capacity = .ok r) : r = { capacity := capacity } := by
  unfold createFor at h
  cases hc : (create capacity : Except RingFault (Ring α)) with
  | error fault => rw [hc] at h; nomatch h
  | ok ring =>
    rw [hc] at h
    change (if _ then _ else _) = _ at h
    split at h
    · exact create_eq_ok ((Except.ok.inj h) ▸ hc)
    · nomatch h

/-- A full ring refuses the element and counts an overrun. -/
theorem push_of_full (r : Ring α) (a : α) (h : r.isFull = true) :
    r.push a = (some a, { r with overruns := r.overruns + 1 }) := if_pos h

/-- Any other ring takes it. -/
theorem push_of_space (r : Ring α) (a : α) (h : r.isFull = false) :
    r.push a = (none, { r with queue := r.queue.push a }) := by
  rw [push, h]
  rfl

@[simp] theorem write_fst (r : Ring α) (a : α) : (r.write a).1 = !r.isFull := by
  cases h : r.isFull with
  | true => rw [write, push_of_full r a h]; rfl
  | false => rw [write, push_of_space r a h]; rfl

theorem toList_write (r : Ring α) (a : α) :
    (r.write a).2.toList = if r.isFull then r.toList else r.toList ++ [a] := by
  cases h : r.isFull with
  | true => rw [write, push_of_full r a h]; rfl
  | false => rw [write, push_of_space r a h]; exact r.queue.toList_push a

@[simp] theorem limit_write (r : Ring α) (a : α) : (r.write a).2.limit = r.limit := by
  cases h : r.isFull with
  | true => rw [write, push_of_full r a h]; rfl
  | false => rw [write, push_of_space r a h]; rfl

/-- Of several elements a ring takes as many as still fit. -/
theorem writeSlice_eq (r : Ring α) (values : List α) :
    ∃ queue, r.writeSlice values = (min r.space values.length, { r with queue := queue }) ∧
      queue.toList = r.toList ++ values.take r.space :=
  ⟨_, by rw [writeSlice, List.length_take], r.queue.toList_foldl_push _⟩

theorem writeSlice_replicate (r : Ring α) (n : Nat) (a : α) :
    ∃ queue, r.writeSlice (List.replicate n a) = (min n r.space, { r with queue := queue }) ∧
      queue.toList = r.toList ++ List.replicate (min n r.space) a := by
  obtain ⟨queue, hwrite, htoList⟩ := r.writeSlice_eq (List.replicate n a)
  rw [List.length_replicate, Nat.min_comm] at hwrite
  rw [List.take_replicate, Nat.min_comm] at htoList
  exact ⟨queue, hwrite, htoList⟩

theorem peek?_eq_head? (r : Ring α) : r.peek? = r.toList.head? := r.queue.peek?_eq_head?

/-- Taking from a ring that holds nothing counts an underrun. -/
theorem pop_of_nil {r : Ring α} (h : r.toList = []) :
    r.pop = (none, { r with underruns := r.underruns + 1 }) := by
  rw [pop, r.queue.pop?_eq_none_iff.mpr h]

/-- Taking from any other ring gives the oldest element and keeps the rest. -/
theorem pop_of_cons {r : Ring α} {a : α} {rest : List α} (h : r.toList = a :: rest) :
    ∃ queue, r.pop = (some a, { r with queue := queue }) ∧ queue.toList = rest := by
  cases hq : r.queue.pop? with
  | none =>
    have hnil : r.toList = [] := r.queue.pop?_eq_none_iff.mp hq
    rw [h] at hnil
    nomatch hnil
  | some popped =>
    obtain ⟨b, queue⟩ := popped
    have hcons : r.toList = b :: queue.toList := Queue.pop?_eq_some hq
    obtain ⟨rfl, rfl⟩ := List.cons.inj (h.symm.trans hcons)
    exact ⟨queue, by rw [pop, hq], rfl⟩

@[simp] theorem pop_fst (r : Ring α) : r.pop.1 = r.toList.head? := by
  cases h : r.toList with
  | nil => rw [pop_of_nil h]; rfl
  | cons a rest =>
    obtain ⟨queue, hpop, -⟩ := pop_of_cons h
    rw [hpop]
    rfl

@[simp] theorem toList_pop (r : Ring α) : r.pop.2.toList = r.toList.tail := by
  cases h : r.toList with
  | nil => rw [pop_of_nil h]; exact h
  | cons a rest =>
    obtain ⟨queue, hpop, hrest⟩ := pop_of_cons h
    rw [hpop]
    exact hrest

@[simp] theorem toList_readSlice (r : Ring α) (count : Nat) :
    (r.readSlice count).2.toList = r.toList.drop count := Queue.toList_ofList _

/-- Two pieces copied one behind the other are the whole. -/
theorem splice_splice (values buffer : List α) (cut : Nat) :
    splice (values.take cut).length (values.drop cut) (splice 0 (values.take cut) buffer)
      = values ++ buffer.drop values.length := by
  have hlength : (values.take cut).length + (values.drop cut).length = values.length := by
    rw [← List.length_append, List.take_append_drop]
  simp only [splice, List.take_zero, List.nil_append, Nat.zero_add]
  rw [List.take_left, List.take_append_drop, List.drop_append, List.drop_of_length_le (by omega),
    List.nil_append, List.drop_drop]
  congr 2
  omega

/-- Where the pieces meet does not show in the buffer. -/
theorem readInto_fst (r : Ring α) (buffer : List α) (cut : Nat) :
    (r.readInto buffer cut).1
      = (min buffer.length r.toList.length,
        r.toList.take buffer.length ++ buffer.drop r.toList.length) := by
  have hdrop : buffer.drop (r.toList.take buffer.length).length = buffer.drop r.toList.length := by
    rw [List.length_take]
    rcases Nat.le_total buffer.length r.toList.length with h | h
    · rw [Nat.min_eq_left h, List.drop_length, List.drop_of_length_le h]
    · rw [Nat.min_eq_right h]
  have hbuffer := splice_splice (r.toList.take buffer.length) buffer cut
  rw [hdrop] at hbuffer
  exact Prod.ext (List.length_take ..) hbuffer

/-- Both ends tell the same, as long as the ring holds no more than it can. -/
theorem gauge_eq (r : Ring α) (h : r.available ≤ r.limit) (side : RingEnd) :
    r.gauge side
      = { available := r.available
          space := r.space
          isFull := r.isFull
          isEmpty := r.isEmpty
          fillPercent := r.fillPercent } := by
  have hspace : r.limit - r.space = r.available := by
    unfold space
    omega
  cases side with
  | adding =>
    simp only [gauge, hspace]
    rfl
  | taking => rfl

end Ring

end Chiptune
