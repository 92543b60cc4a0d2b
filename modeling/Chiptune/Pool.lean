import Chiptune.Frames
import Chiptune.Storage
/-!
# Sample blocks and their pool

Sources render into blocks of 128 samples that a fixed pool hands out and takes back, last
in first out. A block comes with whatever its last user left in it. A pair is handed out
whole or not at all.
-/

set_option autoImplicit false

namespace Chiptune

/-- Frames per cycle of the audio graph. -/
def blockSize : Nat := 128

/-- The samples of one side. -/
abbrev Block := Vector Int16 blockSize

/-- A block of one sample throughout. -/
def Block.filled (sample : Int16) : Block := Vector.replicate blockSize sample

/-- The blocks of both sides. -/
structure StereoBlock where
  left : Block
  right : Block

/-- A pair of blocks from the samples of its sides. -/
def StereoBlock.ofSides (sides : List Int16 × List Int16) (hleft : sides.1.length = blockSize)
    (hright : sides.2.length = blockSize) : StereoBlock :=
  { left := ⟨sides.1.toArray, hleft⟩, right := ⟨sides.2.toArray, hright⟩ }

/-- Overwrites a pair of blocks with the frames that `next` gives. -/
def StereoBlock.fill {σ : Type} (next : σ → Frame × σ) (stale : StereoBlock) (s : σ) :
    StereoBlock × σ :=
  let filled := fillPair next stale.left.toList stale.right.toList s
  (.ofSides filled.1 (by simp [filled]) (by simp [filled]), filled.2)

/-- What is filled has nothing of what was there. -/
theorem StereoBlock.fill_eq {σ : Type} (next : σ → Frame × σ) (stale : StereoBlock) (s : σ) :
    stale.fill next s
      = (.ofSides
          ((produce next blockSize s).1.map Prod.fst, (produce next blockSize s).1.map Prod.snd)
          (by simp) (by simp), (produce next blockSize s).2) := by
  have hfilled := fillPair_of_length next s stale.left.length_toList stale.right.length_toList
  simp only [fill, hfilled]

theorem StereoBlock.fill_snd {σ : Type} (next : σ → Frame × σ) (stale : StereoBlock) (s : σ) :
    (stale.fill next s).2 = (produce next blockSize s).2 :=
  congrArg Prod.snd (stale.fill_eq next s)

theorem StereoBlock.fill_of_semiconj {σ : Type} {next : σ → Frame × σ} {f : σ → σ}
    (h : ∀ s, next (f s) = ((next s).1, f (next s).2)) (stale : StereoBlock) (s : σ) :
    stale.fill next (f s) = ((stale.fill next s).1, f (stale.fill next s).2) := by
  have hframes := produce_of_semiconj h blockSize s
  simp only [StereoBlock.fill_eq, hframes]

/-- Blocks that are not in use. -/
structure Pool where
  /-- Free blocks; the last is handed out next. -/
  free : Array Block
  /-- Blocks the pool was made with; it never holds more. -/
  capacity : Nat
  /-- Requests that could not be met. -/
  failures : Nat := 0

namespace Pool

/-- A pool of silent blocks. -/
def create (blocks : Nat) : Pool :=
  { free := Array.replicate blocks (.filled 0), capacity := blocks }

/-- Bytes that the pool takes up per block, to refer to it. -/
def referenceBytes : Nat := 8

/-- Like `create`, if there is room to refer to that many blocks. -/
def createFor (blocks : Nat) : Except StorageFault Pool :=
  if fitsStorage referenceBytes blocks then .ok (create blocks) else .error .tooLarge

/-- Blocks that can be handed out. -/
def available (p : Pool) : Nat := p.free.size

/-- Hands out a block; an empty pool counts a failure. -/
def allocate (p : Pool) : Option Block × Pool :=
  match p.free.back? with
  | some block => (some block, { p with free := p.free.pop })
  | none => (none, { p with failures := p.failures + 1 })

/-- Takes a block back; a full pool drops it. -/
def release (p : Pool) (block : Block) : Pool :=
  if p.free.size < p.capacity then { p with free := p.free.push block } else p

/-- Hands out two blocks or none; a single block that was left goes back. -/
def allocateStereo (p : Pool) : Option StereoBlock × Pool :=
  match p.allocate with
  | (none, p) => (none, p)
  | (some left, p) =>
    match p.allocate with
    | (some right, p) => (some ⟨left, right⟩, p)
    | (none, p) => (none, p.release left)

/-- Takes a pair back, left side first. -/
def releaseStereo (p : Pool) (block : StereoBlock) : Pool :=
  (p.release block.left).release block.right

end Pool

end Chiptune
