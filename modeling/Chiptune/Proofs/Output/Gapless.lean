import Chiptune.Graph.Host
import Chiptune.Graph.Source
import Chiptune.Output.Feed
import Mathlib.Algebra.BigOperators.Ring.List
import Mathlib.Algebra.Ring.Nat

/-!
# `Chiptune.Proofs.Output.Gapless`: host buffers of any size see one stream

A feed plays what is left of its block and then the blocks of the cycles that follow. `pending`
is what is left of the block, `cycle` one more cycle, and `cyclesDue` how many cycles a number
of frames takes. `produce_nextFrame` is the conservation law: what has been delivered and what
is pending after it are what was pending before and the frames of the cycles in between.

* `fill_eq`: a buffer of whole frames is the spread of the frames delivered for it.
* `fills_eq_fill`: fills in sequence give what one fill of their total length gives.
* `fills_gapless`: the main statement, on every sequence of fills.
-/

set_option autoImplicit false

namespace Chiptune

/-- The frames of a pair of blocks, in order. -/
def StereoBlock.frames (block : StereoBlock) : List Frame :=
  block.left.toList.zip block.right.toList

@[simp] theorem StereoBlock.length_frames (block : StereoBlock) :
    block.frames.length = blockSize := by
  simp [frames]

/-! ### The count of cycles -/

namespace Graph

variable {σ ω : Type}

@[simp] theorem cycles_giveBack (g : Graph σ) (connection : Connection σ) :
    (g.giveBack connection).cycles = g.cycles := rfl

theorem cycles_foldl_giveBack (g : Graph σ) (connections : List (Connection σ)) :
    (connections.foldl giveBack g).cycles = g.cycles := by
  induction connections generalizing g with
  | nil => rfl
  | cons connection rest ih => rw [List.foldl_cons, ih, cycles_giveBack]

/-- A command is no cycle. -/
theorem cycles_applyCommand (g : Graph σ) (command : GraphCommand σ) :
    (g.applyCommand command).cycles = g.cycles := by
  cases command with
  | connect connection =>
    unfold applyCommand
    dsimp only
    split
    · rfl
    · rfl
  | disconnect id =>
    unfold applyCommand
    dsimp only
    split
    · rfl
    · rfl
  | disconnectAll => exact cycles_foldl_giveBack _ _

theorem cycles_applyQueued (fuel : Nat) (g : Graph σ) :
    (applyQueued fuel g).cycles = g.cycles := by
  induction fuel generalizing g with
  | zero => rfl
  | succ fuel ih =>
    unfold applyQueued
    split
    · rw [ih, cycles_applyCommand]
    · rfl

/-- Each block is a cycle. -/
theorem cycles_nextBlock (play : Playing σ ω) (g : Graph σ) (world : ω) :
    (g.nextBlock play world).2.1.cycles = g.cycles + 1 := by
  show g.applyCommands.cycles + 1 = _
  rw [applyCommands, cycles_applyQueued]

end Graph

namespace Feed

variable {σ ω α : Type}

/-! ### The stream -/

/-- What is left of the block. -/
def pending (f : Feed σ) : List Frame := f.block.frames.drop f.position

/-- One cycle of the graph and of what surrounds it. -/
def cycle (play : Playing σ ω) (s : Graph σ × ω) : StereoBlock × (Graph σ × ω) :=
  s.1.nextBlock play s.2

/-- Cycles that `n` frames take, once the rest of the block is played out. -/
def cyclesDue (f : Feed σ) (n : Nat) : Nat :=
  (n - f.pending.length + (blockSize - 1)) / blockSize

/-- The stream as far as `n` frames reach into it: the rest of the block and the blocks that
follow. -/
def stream (play : Playing σ ω) (n : Nat) (f : Feed σ) (world : ω) : List Frame :=
  f.pending ++ (produce (cycle play) (f.cyclesDue n) (f.graph, world)).1.flatMap
    StereoBlock.frames

@[simp] theorem length_pending (f : Feed σ) : f.pending.length = blockSize - f.position := by
  rw [pending, List.length_drop, StereoBlock.length_frames]

/-- The block from a place inside it on. -/
theorem drop_frames {block : StereoBlock} {i : Nat} (hi : i < blockSize) :
    block.frames.drop i = frameAt block i :: block.frames.drop (i + 1) := by
  have hlt : i < block.frames.length := by rw [StereoBlock.length_frames]; exact hi
  rw [List.drop_eq_getElem_cons hlt]
  have hframe : block.frames[i] = frameAt block i := by
    simp [StereoBlock.frames, frameAt, hi]
  rw [hframe]

/-- Inside the block the next frame is the first of those pending. -/
theorem nextFrame_of_lt (play : Playing σ ω) {f : Feed σ} (world : ω)
    (hf : f.position < blockSize) :
    nextFrame play (f, world)
      = (frameAt f.block f.position, { f with position := f.position + 1 }, world) := by
  have hne : f.position ≠ blockSize := Nat.ne_of_lt hf
  simp [nextFrame, refill, hne]

/-- At the end of the block the next frame is the first of the next block. -/
theorem nextFrame_of_end {play : Playing σ ω} {f : Feed σ} {world next : ω}
    {block : StereoBlock} {graph : Graph σ} (hf : f.position = blockSize)
    (hcycle : cycle play (f.graph, world) = (block, graph, next)) :
    nextFrame play (f, world)
      = (frameAt block 0, { graph := graph, block := block, position := 1 }, next) := by
  rw [cycle] at hcycle
  simp [nextFrame, refill, hf, hcycle]

/-- Nothing is lost, repeated or reordered: what `n` frames deliver and what is pending after
them is the stream, and the cycles run are those due. -/
theorem produce_nextFrame (play : Playing σ ω) (n : Nat) (f : Feed σ) (world : ω)
    (hf : f.position ≤ blockSize) :
    let r := produce (nextFrame play) n (f, world)
    r.1 ++ r.2.1.pending = stream play n f world ∧
      (r.2.1.graph, r.2.2) = (produce (cycle play) (f.cyclesDue n) (f.graph, world)).2 ∧
      r.2.1.position ≤ blockSize := by
  have hsize : blockSize = 128 := rfl
  induction n generalizing f world with
  | zero =>
    have hdue : f.cyclesDue 0 = 0 := by
      rw [cyclesDue, Nat.zero_sub, hsize]
    simp [stream, hdue, hf]
  | succ n ih =>
    rw [produce_succ]
    by_cases hend : f.position = blockSize
    · -- The frame begins a block, so one cycle more is due than after it.
      obtain ⟨block, graph, next, hcycle⟩ :
          ∃ block graph next, cycle play (f.graph, world) = (block, graph, next) :=
        ⟨_, _, _, rfl⟩
      rw [nextFrame_of_end hend hcycle]
      obtain ⟨hstream, hstate, hposition⟩ :=
        ih { graph := graph, block := block, position := 1 } next (show 1 ≤ blockSize by omega)
      have hdue : f.cyclesDue (n + 1)
          = cyclesDue { graph := graph, block := block, position := 1 } n + 1 := by
        simp only [cyclesDue, length_pending, hend, hsize]
        omega
      have hpending : f.pending = [] := by
        rw [← List.length_eq_zero_iff, length_pending, hend, Nat.sub_self]
      have hblock : block.frames = frameAt block 0 :: block.frames.drop 1 :=
        drop_frames (show 0 < blockSize by omega)
      refine ⟨?_, ?_, hposition⟩
      · rw [List.cons_append, hstream, stream, stream, hpending, hdue, produce_succ, hcycle,
          List.nil_append, List.flatMap_cons, hblock]
        rfl
      · rw [hdue, produce_succ, hcycle]
        exact hstate
    · -- The frame is taken from the block, and the cycles due stay the same.
      have hlt : f.position < blockSize := Nat.lt_of_le_of_ne hf hend
      rw [nextFrame_of_lt play world hlt]
      obtain ⟨hstream, hstate, hposition⟩ :=
        ih { f with position := f.position + 1 } world (Nat.succ_le_of_lt hlt)
      have hdue : f.cyclesDue (n + 1) = cyclesDue { f with position := f.position + 1 } n := by
        simp only [cyclesDue, length_pending]
        have hcount : n + 1 - (blockSize - f.position)
            = n - (blockSize - (f.position + 1)) := by omega
        rw [hcount]
      refine ⟨?_, ?_, hposition⟩
      · rw [List.cons_append, hstream, stream, stream, hdue, pending, pending,
          drop_frames hlt]
        rfl
      · rw [hdue]
        exact hstate

/-- Frames add nothing to the cycles but those due. -/
theorem cycles_produce (play : Playing σ ω) (n : Nat) (s : Graph σ × ω) :
    (produce (cycle play) n s).2.1.cycles = s.1.cycles + n := by
  induction n generalizing s with
  | zero => rfl
  | succ n ih =>
    rw [produce_succ]
    show (produce (cycle play) n (cycle play s).2).2.1.cycles = _
    rw [ih, cycle, Graph.cycles_nextBlock]
    omega

/-! ### Buffers -/

/-- The buffers that a host asks for, one after the other, and the feed after them. -/
def fills (play : Playing σ ω) (convert : Int16 → α) (channels : Nat) :
    List Nat → Feed σ × ω → List (List α) × (Feed σ × ω)
  | [], s => ([], s)
  | length :: rest, s =>
    let (buffer, s) := fill play convert channels length s
    let (buffers, s) := fills play convert channels rest s
    (buffer :: buffers, s)

theorem fills_cons (play : Playing σ ω) (convert : Int16 → α) (channels length : Nat)
    (rest : List Nat) (s : Feed σ × ω) :
    fills play convert channels (length :: rest) s
      = ((fill play convert channels length s).1
          :: (fills play convert channels rest (fill play convert channels length s).2).1,
        (fills play convert channels rest (fill play convert channels length s).2).2) := rfl

/-- A buffer of whole frames has no frame cut short. -/
theorem widths_mul {channels : Nat} (hc : 1 ≤ channels) (n : Nat) :
    widths channels (channels * n) = List.replicate n channels := by
  rw [widths, Nat.mul_div_cancel_left n hc, Nat.mul_mod_right, if_pos rfl, List.append_nil]

theorem zipWith_replicate {β γ : Type} (g : Nat → β → γ) (k : Nat) (xs : List β) :
    List.zipWith g (List.replicate xs.length k) xs = xs.map (g k) := by
  induction xs with
  | nil => rfl
  | cons x xs ih => rw [List.length_cons, List.replicate_succ, List.zipWith_cons_cons, ih,
      List.map_cons]

/-- A buffer of `n` whole frames holds the next `n` frames, each over all channels. -/
theorem fill_eq (play : Playing σ ω) (convert : Int16 → α) {channels : Nat} (hc : 1 ≤ channels)
    (n : Nat) (s : Feed σ × ω) :
    fill play convert channels (channels * n) s
      = ((produce (nextFrame play) n s).1.flatMap (spread convert channels),
        (produce (nextFrame play) n s).2) := by
  have hlength : (produce (nextFrame play) n s).1.length = n := length_produce _ n s
  have hzip := zipWith_replicate (spread convert) channels (produce (nextFrame play) n s).1
  rw [hlength] at hzip
  rw [fill, Nat.max_eq_left hc, widths_mul hc]
  dsimp only
  rw [List.length_replicate, hzip, List.flatMap_def]

theorem length_spread (convert : Int16 → α) (channels : Nat) (frame : Frame) :
    (spread convert channels frame).length = channels := by
  obtain ⟨left, right⟩ := frame
  match channels with
  | 0 => rfl
  | 1 => rfl
  | rest + 2 => simp [spread]

theorem length_flatMap_spread (convert : Int16 → α) (channels : Nat) (frames : List Frame) :
    (frames.flatMap (spread convert channels)).length = channels * frames.length := by
  induction frames with
  | nil => rfl
  | cons frame rest ih =>
    rw [List.flatMap_cons, List.length_append, length_spread, ih, List.length_cons, Nat.mul_succ,
      Nat.add_comm]

/-- One buffer behind another holds what one buffer of both lengths holds. -/
theorem fill_add (play : Playing σ ω) (convert : Int16 → α) {channels : Nat}
    (hc : 1 ≤ channels) (m n : Nat) (s : Feed σ × ω) :
    fill play convert channels (channels * m + channels * n) s
      = ((fill play convert channels (channels * m) s).1
          ++ (fill play convert channels (channels * n)
            (fill play convert channels (channels * m) s).2).1,
        (fill play convert channels (channels * n)
          (fill play convert channels (channels * m) s).2).2) := by
  rw [← Nat.mul_add, fill_eq play convert hc, fill_eq play convert hc, fill_eq play convert hc,
    produce_add, List.flatMap_append]

section
variable (play : Playing σ ω) (convert : Int16 → α) {channels : Nat} (hc : 1 ≤ channels)
include hc

/-- Fills in sequence give what one fill of their total length gives. -/
theorem fills_eq_fill {lengths : List Nat} (hl : ∀ length ∈ lengths, channels ∣ length)
    (s : Feed σ × ω) :
    ((fills play convert channels lengths s).1.flatten, (fills play convert channels lengths s).2)
      = fill play convert channels lengths.sum s := by
  induction lengths generalizing s with
  | nil =>
    have hnone := fill_eq play convert hc 0 s
    rw [Nat.mul_zero] at hnone
    rw [List.sum_nil, hnone]
    rfl
  | cons length rest ih =>
    obtain ⟨m, rfl⟩ := hl length List.mem_cons_self
    have hrest : ∀ length ∈ rest, channels ∣ length := fun length hmem =>
      hl length (List.mem_cons_of_mem _ hmem)
    obtain ⟨n, hn⟩ : channels ∣ rest.sum := List.dvd_sum hrest
    have hih := ih hrest (fill play convert channels (channels * m) s).2
    rw [List.sum_cons, hn, fill_add play convert hc, ← hn, ← hih, fills_cons, List.flatten_cons]

/-- Each buffer is as long as it was asked for. -/
theorem length_fills {lengths : List Nat} (hl : ∀ length ∈ lengths, channels ∣ length)
    (s : Feed σ × ω) :
    (fills play convert channels lengths s).1.map List.length = lengths := by
  induction lengths generalizing s with
  | nil => rfl
  | cons length rest ih =>
    obtain ⟨m, rfl⟩ := hl length List.mem_cons_self
    have hbuffer : (fill play convert channels (channels * m) s).1.length = channels * m := by
      rw [fill_eq play convert hc, length_flatMap_spread, length_produce]
    have hbuffers := ih (fun length hmem => hl length (List.mem_cons_of_mem _ hmem))
      (fill play convert channels (channels * m) s).2
    rw [fills_cons, List.map_cons, hbuffer, hbuffers]

end

/-- The mean of two samples needs no more than 16 bits. -/
theorem toInt_mean (left right : Int16) :
    (mean left right).toInt = Int.tdiv (left.toInt + right.toInt) 2 := by
  have hleft := left.le_toInt
  have hleft' := left.toInt_lt
  have hright := right.le_toInt
  have hright' := right.toInt_lt
  have hdiv := Int.mul_tdiv_add_tmod (left.toInt + right.toInt) 2
  have hmod := Int.tmod_lt_of_pos (left.toInt + right.toInt) (b := 2) (by omega)
  have hmod' := Int.lt_tmod_of_pos (left.toInt + right.toInt) (b := 2) (by omega)
  rw [mean, Int16.toInt_ofInt_of_le]
  · omega
  · omega

/-- Host buffers of any size see one gapless stream. Whatever the graph plays, on any number
of channels, for any sequence of buffers that hold whole frames:

* Each buffer is as long as it was asked for. The buffers hold the frames of the stream in
  order, each over all channels. What is pending afterwards is the stream from there on.
* Graph and surroundings are those after the cycles due. A fresh feed runs one cycle for each
  128 frames and one for a rest.
* One buffer of the total length would hold the same and leave the same feed.
* A frame gives the first channel its left side, the second its right side and the others
  silence. A single channel gets half the sum of both sides, cut off toward zero, which fits
  into 16 bits. -/
theorem fills_gapless (play : Playing σ ω) (convert : Int16 → α) {channels : Nat}
    (hc : 1 ≤ channels) {lengths : List Nat} (hl : ∀ length ∈ lengths, channels ∣ length)
    (f : Feed σ) (world : ω) (hf : f.position ≤ blockSize) :
    let total := lengths.sum / channels
    let r := fills play convert channels lengths (f, world)
    (r.1.map List.length = lengths ∧
      r.1.flatten = ((stream play total f world).take total).flatMap (spread convert channels) ∧
      r.2.1.pending = (stream play total f world).drop total) ∧
    ((r.2.1.graph, r.2.2) = (produce (cycle play) (f.cyclesDue total) (f.graph, world)).2 ∧
      r.2.1.graph.cycles = f.graph.cycles + f.cyclesDue total ∧
      (f.position = blockSize → f.cyclesDue total = (total + (blockSize - 1)) / blockSize) ∧
      r.2.1.position ≤ blockSize) ∧
    (r.1.flatten, r.2) = fill play convert channels lengths.sum (f, world) ∧
    ∀ left right : Int16,
      (2 ≤ channels → spread convert channels (left, right)
        = convert left :: convert right :: List.replicate (channels - 2) (convert 0)) ∧
      (channels = 1 → spread convert channels (left, right) = [convert (mean left right)]) ∧
      (mean left right).toInt = Int.tdiv (left.toInt + right.toInt) 2 := by
  intro total r
  have hfill := fills_eq_fill play convert hc hl (f, world)
  have hsum : lengths.sum = channels * total :=
    (Nat.mul_div_cancel' (List.dvd_sum hl)).symm
  -- The single fill delivers the first `total` frames, and the conservation law says which.
  obtain ⟨hstream, hstate, hposition⟩ := produce_nextFrame play total f world hf
  have hlength : (produce (nextFrame play) total (f, world)).1.length = total :=
    length_produce _ _ _
  rw [hsum, fill_eq play convert hc] at hfill
  obtain ⟨hbuffers, hafter⟩ := Prod.mk.injEq .. ▸ hfill
  have hr : r.2 = (produce (nextFrame play) total (f, world)).2 := hafter
  refine ⟨⟨length_fills play convert hc hl _, ?_, ?_⟩, ⟨?_, ?_, ?_, ?_⟩, ?_, ?_⟩
  · rw [← hstream, List.take_left' hlength]
    exact hbuffers
  · rw [hr, ← hstream, List.drop_left' hlength]
  · rw [hr]
    exact hstate
  · have hcycles := cycles_produce play (f.cyclesDue total) (f.graph, world)
    rw [← hstate] at hcycles
    rw [hr]
    exact hcycles
  · intro hend
    rw [cyclesDue, length_pending, hend, Nat.sub_self, Nat.sub_zero]
  · rw [hr]
    exact hposition
  · rw [hsum, fill_eq play convert hc]
    exact Prod.ext hbuffers hafter
  · intro left right
    refine ⟨?_, ?_, toInt_mean left right⟩
    · intro htwo
      obtain ⟨rest, rfl⟩ := Nat.exists_eq_add_of_le' htwo
      rfl
    · rintro rfl
      rfl

/-- Three buffers of a fresh feed, the second of them empty, run over the end of a block. -/
theorem three_buffers_gapless :
    let graph : Graph Source := ((Graph.create (.create 4)).connect (.ramp 0)).state
    let r := fills Source.play id 2 [250, 0, 12] ({ graph := graph }, ({} : Studio))
    r.1.map List.length = [250, 0, 12] ∧ r.2.1.graph.cycles = 2 ∧
      (r.1.flatten, r.2) = fill Source.play id 2 262 ({ graph := graph }, ({} : Studio)) := by
  intro graph r
  have hl : ∀ length ∈ [250, 0, 12], 2 ∣ length := by decide
  obtain ⟨⟨hlengths, -, -⟩, ⟨-, hcycles, hdue, -⟩, hone, -⟩ :=
    fills_gapless Source.play id (by decide) hl { graph := graph } ({} : Studio) (Nat.le_refl _)
  rw [hdue rfl] at hcycles
  have hsum : [250, 0, 12].sum = 262 := by decide
  have hnone : graph.cycles = 0 := rfl
  rw [hsum] at hcycles hone
  have hr : r = fills Source.play id 2 [250, 0, 12] ({ graph := graph }, {}) := rfl
  rw [hnone] at hcycles
  rw [hr]
  exact ⟨hlengths, hcycles, hone⟩

end Feed

end Chiptune
