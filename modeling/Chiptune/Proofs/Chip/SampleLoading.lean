import Chiptune.Engine.Basic

/-!
# `Chiptune.Proofs.Chip.SampleLoading`: what loading sample data stores

Data that does not fit behind its offset is cut, and data that is empty or lies behind the end of
memory changes nothing at all. All of it comes from one equation, `SampleMemory.byte?_load_eq`: the
byte at each place after a load, for places in memory and behind it.

A memory is known by its bytes (`SampleMemory.ext_byte?`), so the equation also says when two loads
come to the same. Where one load is split in two, the second begins behind the whole of the first,
also behind a part of it that was cut off, and is then cut off itself
(`SampleMemory.load_append`).

`Dmc.loadSamples` asks first whether there is anything to store. `Dmc.loadSamples_eq` shows that
nothing hangs on the question: a load that stores no byte leaves the memory as it is, and the voice
has samples afterwards if it had some before or if a byte was stored.

* `Dmc.samples_stored`: the main statement, for the voice and for an engine that plays it.
-/

set_option autoImplicit false

namespace Chiptune

/-! ### Memory -/

namespace SampleMemory

/-- Memories with the same bytes are the same. -/
theorem ext_byte? {m n : SampleMemory} (h : ∀ i, m.byte? i = n.byte? i) : m = n := by
  cases m with
  | mk bytes =>
    cases n with
    | mk bytes' =>
      have hbytes : bytes = bytes' := by
        apply Vector.ext
        intro i hi
        have hbyte := h i
        rwa [byte?, byte?, Vector.getElem?_eq_getElem hi, Vector.getElem?_eq_getElem hi,
          Option.some_inj] at hbyte
      rw [hbytes]

/-- A load writes as many bytes as there is room for, from its offset on, and no other byte. -/
theorem byte?_load_eq (m : SampleMemory) (data : Array UInt8) (offset i : Nat) :
    (m.load data offset).byte? i
      = if offset ≤ i ∧ i < offset + room data.size offset then data[i - offset]?
        else m.byte? i := by
  by_cases hi : i < sampleCapacity
  · have hload : (m.load data offset).byte? i
        = some (if offset ≤ i then (data[i - offset]?).getD m.bytes[i] else m.bytes[i]) := by
      rw [byte?, load, Vector.getElem?_eq_getElem hi, Vector.getElem_ofFn]
      rfl
    have hkept : m.byte? i = some m.bytes[i] := Vector.getElem?_eq_getElem hi
    rw [hload, hkept]
    by_cases hoffset : offset ≤ i
    · -- Inside memory, room for the byte is as good as a byte of data for the place.
      have hroom : i < offset + room data.size offset ↔ i - offset < data.size := by
        unfold room
        omega
      by_cases hdata : i - offset < data.size
      · simp [hoffset, hroom, hdata]
      · simp [hoffset, hroom, hdata]
    · simp [hoffset]
  · -- Behind the end there is no byte, and no room for one.
    have hnone : ∀ n : SampleMemory, n.byte? i = none := by
      intro n
      exact Vector.getElem?_eq_none (Nat.le_of_not_lt hi)
    have hroom : ¬(offset ≤ i ∧ i < offset + room data.size offset) := by
      unfold room
      omega
    rw [hnone, hnone, if_neg hroom]

/-- Without room for a byte nothing is written. -/
theorem load_of_room_eq_zero (m : SampleMemory) {data : Array UInt8} {offset : Nat}
    (h : room data.size offset = 0) : m.load data offset = m := by
  apply ext_byte?
  intro i
  have hroom : ¬(offset ≤ i ∧ i < offset + room data.size offset) := by omega
  rw [byte?_load_eq, if_neg hroom]

/-- The room for data in two parts is that for the first and that for the second behind it. -/
theorem room_add (count more offset : Nat) :
    room (count + more) offset = room count offset + room more (offset + count) := by
  unfold room
  omega

/-- Data may be loaded in two parts, one behind the other. -/
theorem load_append (m : SampleMemory) (data more : Array UInt8) (offset : Nat) :
    m.load (data ++ more) offset = (m.load data offset).load more (offset + data.size) := by
  apply ext_byte?
  intro i
  have hdata : room data.size offset ≤ data.size := Nat.min_le_left _ _
  have hroom := room_add data.size more.size offset
  rw [byte?_load_eq, byte?_load_eq, byte?_load_eq, Array.size_append, Array.getElem?_append]
  by_cases hsecond : offset + data.size ≤ i ∧
      i < offset + data.size + room more.size (offset + data.size)
  · -- The second part has room only if the first has been stored whole.
    have hwhole : offset ≤ i ∧ i < offset + room (data.size + more.size) offset := by
      unfold room at hsecond ⊢
      omega
    have hbehind : ¬i - offset < data.size := by omega
    rw [if_pos hsecond, if_pos hwhole, if_neg hbehind, Nat.sub_sub]
  · rw [if_neg hsecond]
    by_cases hfirst : offset ≤ i ∧ i < offset + room data.size offset
    · have hwhole : offset ≤ i ∧ i < offset + room (data.size + more.size) offset := by omega
      have hwithin : i - offset < data.size := by omega
      rw [if_pos hfirst, if_pos hwhole, if_pos hwithin]
    · have hneither : ¬(offset ≤ i ∧ i < offset + room (data.size + more.size) offset) := by
        unfold room at hfirst hsecond ⊢
        omega
      rw [if_neg hfirst, if_neg hneither]

end SampleMemory

/-! ### The voice -/

namespace Dmc

open SampleMemory

/-- Whether there is anything to store makes no difference to what is stored. -/
theorem loadSamples_eq (d : Dmc) (data : Array UInt8) (offset : Nat) :
    d.loadSamples data offset
      = (room data.size offset,
          { d with
            memory := d.memory.load data offset
            loaded := d.loaded || 0 < room data.size offset }) := by
  unfold loadSamples
  split
  · next hnothing =>
    have hroom : room data.size offset = 0 := by
      simp only [Bool.or_eq_true, Array.isEmpty_iff_size_eq_zero, decide_eq_true_iff] at hnothing
      unfold room
      omega
    rw [hroom, load_of_room_eq_zero _ hroom]
    simp
  · next hsome =>
    have hroom : 0 < room data.size offset := by
      simp only [Bool.or_eq_true, Array.isEmpty_iff_size_eq_zero, decide_eq_true_iff,
        not_or] at hsome
      unfold room
      omega
    simp [hroom]

/-- Two loads, one behind the other, are one load. -/
theorem loadSamples_append (d : Dmc) (data more : Array UInt8) (offset : Nat) :
    let first := d.loadSamples data offset
    let second := first.2.loadSamples more (offset + data.size)
    d.loadSamples (data ++ more) offset = (first.1 + second.1, second.2) := by
  intro first second
  -- A byte is stored of the whole if one is stored of either part.
  have hloaded : decide (0 < room data.size offset + room more.size (offset + data.size))
      = (decide (0 < room data.size offset)
          || decide (0 < room more.size (offset + data.size))) := by
    rw [← Bool.decide_or, decide_eq_decide]
    omega
  simp only [first, second, loadSamples_eq, Array.size_append, room_add, load_append, hloaded,
    Bool.or_assoc]

/-- Loading is exact, and it can be split. Whatever the state of the voice, the data and the offset:

* As many bytes are stored as there are, or as fit behind the offset, and this is the count that is
  handed back. From the offset on, so many places hold the first bytes of the data. Every other byte
  is as before, and so is the whole state of the player. Only the flag that memory has been loaded
  is set, if a byte was stored. Data without bytes, or an offset behind the end of memory, gives the
  count zero and changes nothing.
* Loading `data ++ more` comes to the same as loading `data` and then `more` right behind it, and
  its count is the sum of the two, wherever memory ends.

An engine hands the data on to its voice. It changes nothing else, so it can be split there too. -/
theorem samples_stored :
    (∀ (d : Dmc) (data : Array UInt8) (offset : Nat),
      let count := (d.loadSamples data offset).1
      let d' := (d.loadSamples data offset).2
      count = min data.size (0x4000 - offset) ∧
      (∀ i, d'.memory.byte? i
        = if offset ≤ i ∧ i < offset + count then data[i - offset]? else d.memory.byte? i) ∧
      d' = { d with memory := d'.memory, loaded := d.loaded || 0 < count } ∧
      (data.size = 0 ∨ 0x4000 ≤ offset → count = 0 ∧ d' = d)) ∧
    (∀ (d : Dmc) (data more : Array UInt8) (offset : Nat),
      let first := d.loadSamples data offset
      let second := first.2.loadSamples more (offset + data.size)
      d.loadSamples (data ++ more) offset = (first.1 + second.1, second.2)) ∧
    (∀ (e : Engine) (data : Array UInt8) (offset : Nat),
      (e.loadSamples data offset).result = (e.chip.dmc.loadSamples data offset).1 ∧
      (e.loadSamples data offset).state
        = { e with chip := { e.chip with dmc := (e.chip.dmc.loadSamples data offset).2 } }) ∧
    ∀ (e : Engine) (data more : Array UInt8) (offset : Nat),
      let first := e.loadSamples data offset
      let second := first.state.loadSamples more (offset + data.size)
      (e.loadSamples (data ++ more) offset).result = first.result + second.result ∧
      (e.loadSamples (data ++ more) offset).state = second.state := by
  refine ⟨?_, loadSamples_append, ?_, ?_⟩
  · intro d data offset count d'
    have hload : d.loadSamples data offset = _ := d.loadSamples_eq data offset
    have hcount : count = room data.size offset := congrArg Prod.fst hload
    have hmemory : d'.memory = d.memory.load data offset := by
      show (d.loadSamples data offset).2.memory = _
      rw [hload]
    refine ⟨hcount, ?_, ?_, ?_⟩
    · intro i
      rw [hmemory, hcount]
      exact byte?_load_eq d.memory data offset i
    · rw [hmemory, hcount]
      exact congrArg Prod.snd hload
    · intro hnothing
      have hroom : room data.size offset = 0 := by
        unfold room sampleCapacity
        omega
      refine ⟨hcount.trans hroom, ?_⟩
      show (d.loadSamples data offset).2 = d
      rw [hload, hroom, load_of_room_eq_zero _ hroom]
      simp
  · intro e data offset
    exact ⟨rfl, rfl⟩
  · intro e data more offset first second
    have hsplit := loadSamples_append e.chip.dmc data more offset
    refine ⟨congrArg Prod.fst hsplit, ?_⟩
    exact congrArg (fun kept => { e with chip := { e.chip with dmc := kept.2 } }) hsplit

/-- Two bytes fit behind this offset. The third is cut off, loaded with the others or by itself, and
a load of it alone leaves the voice as it is. -/
theorem cut_load_splits :
    let d := powerUp.loadSamples #[0x01, 0x02] 0x3FFE
    (powerUp.loadSamples #[0x01, 0x02, 0x03] 0x3FFE) = (2, d.2) ∧
      d.2.loadSamples #[0x03] 0x4000 = (0, d.2) ∧ d.2.memory.byte? 0x3FFF = some 0x02 := by
  intro d
  obtain ⟨hexact, hsplit, -, -⟩ := samples_stored
  obtain ⟨hcount, hbytes, -, -⟩ := hexact powerUp #[0x01, 0x02] 0x3FFE
  obtain ⟨-, -, -, hnothing⟩ := hexact d.2 #[0x03] 0x4000
  obtain ⟨hnone, hsame⟩ := hnothing (Or.inr (Nat.le_refl _))
  have hthird : d.2.loadSamples #[0x03] 0x4000 = (0, d.2) := Prod.ext hnone hsame
  refine ⟨?_, hthird, ?_⟩
  · have hboth := hsplit powerUp #[0x01, 0x02] #[0x03] 0x3FFE
    have hd : d.1 = 2 := hcount
    change powerUp.loadSamples #[0x01, 0x02, 0x03] 0x3FFE
      = (d.1 + (d.2.loadSamples #[0x03] 0x4000).1, (d.2.loadSamples #[0x03] 0x4000).2) at hboth
    rw [hboth, hthird, hd, Nat.add_zero]
  · rw [hbytes 0x3FFF, hcount]
    rfl

end Dmc

end Chiptune
