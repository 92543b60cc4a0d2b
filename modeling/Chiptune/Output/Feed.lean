import Chiptune.Graph.Cycle
/-!
# Feeding host buffers

A device asks for buffers of any length and channel count, while the graph makes blocks of
128 frames. A feed keeps the current block and the place in it, so that frames follow each
other without gaps whatever the lengths are.

A frame is spread over the channels of the device: the first gets the left side, the second
the right one, the others silence; a single channel gets the mean of both sides.
-/

set_option autoImplicit false

namespace Chiptune

/-- A graph with the block that is being played. -/
structure Feed (σ : Type) where
  graph : Graph σ
  block : StereoBlock := .silence
  /-- Next frame of the block; at the end of it the next block is due. -/
  position : Nat := blockSize

namespace Feed

variable {σ ω α : Type}

/-- The frame of a block at a place in it, silence past its end. -/
def frameAt (block : StereoBlock) (i : Nat) : Frame :=
  (block.left[i]?.getD 0, block.right[i]?.getD 0)

/-- Runs a cycle when the block is played out. -/
def refill (play : Playing σ ω) : Feed σ × ω → Feed σ × ω
  | (f, world) =>
    if f.position = blockSize then
      let (block, graph, world) := f.graph.nextBlock play world
      ({ graph := graph, block := block, position := 0 }, world)
    else
      (f, world)

/-- The next frame. -/
def nextFrame (play : Playing σ ω) (s : Feed σ × ω) : Frame × (Feed σ × ω) :=
  let (f, world) := refill play s
  (frameAt f.block f.position, ({ f with position := f.position + 1 }, world))

/-- The mean of two samples, cut off toward zero. -/
def mean (left right : Int16) : Int16 :=
  Int16.ofInt (Int.tdiv (left.toInt + right.toInt) 2)

/-- A frame on `width` channels. -/
def spread (convert : Int16 → α) : Nat → Frame → List α
  | 0, _ => []
  | 1, (left, right) => [convert (mean left right)]
  | rest + 2, (left, right) => convert left :: convert right :: List.replicate rest (convert 0)

/-- How many channels each frame of a buffer takes up: all of them, but for a last frame
that the buffer cuts short. -/
def widths (channels length : Nat) : List Nat :=
  List.replicate (length / channels) channels
    ++ (if length % channels = 0 then [] else [length % channels])

/-- The contents of a buffer of a length, and the feed after it. No channels count as
one. -/
def fill (play : Playing σ ω) (convert : Int16 → α) (channels length : Nat)
    (s : Feed σ × ω) : List α × (Feed σ × ω) :=
  let ws := widths (max channels 1) length
  let (frames, s) := produce (nextFrame play) ws.length s
  ((List.zipWith (spread convert) ws frames).flatten, s)

end Feed

end Chiptune
