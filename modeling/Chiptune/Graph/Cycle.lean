import Chiptune.Graph.Basic
/-!
# Cycles of the audio graph

A cycle carries out the queued commands, asks every connected source for a block in slot
order and writes the sum, bounded to 16 bits, or silence while muted. Sources act on a state
`ω` of their surroundings and on the block pool; a block they deliver goes back to the pool
once it is added.
-/

set_option autoImplicit false

namespace Chiptune

/-- How a source delivers its next block, if it has one. -/
abbrev Playing (σ ω : Type) := σ → ω → Pool → Option StereoBlock × σ × ω × Pool

/-- Sums of one side, in words of 32 bits. -/
abbrev Sums := Vector Int32 blockSize

/-- What a cycle has gathered so far. -/
structure Mixing (ω : Type) where
  left : Sums := Vector.replicate blockSize 0
  right : Sums := Vector.replicate blockSize 0
  skipped : Nat := 0
  pool : Pool
  world : ω

namespace Mixing

variable {ω : Type}

/-- Adds a side of a block to the sums. -/
def addSide (sums : Sums) (block : Block) : Sums :=
  Vector.zipWith (fun sum sample => sum + sample.toInt32) sums block

/-- Takes in what a source delivered. -/
def collect (m : Mixing ω) (delivered : Option StereoBlock) : Mixing ω :=
  match delivered with
  | some block =>
    { m with
      left := addSide m.left block.left
      right := addSide m.right block.right
      pool := m.pool.releaseStereo block }
  | none => { m with skipped := m.skipped + 1 }

/-- A sum as a sample, bounded to 16 bits. -/
def saturate (sum : Int32) : Int16 := (max (-32768) (min sum 32767)).toInt16

/-- The block the sums make. -/
def output (m : Mixing ω) : StereoBlock :=
  { left := m.left.map saturate, right := m.right.map saturate }

end Mixing

/-- A silent pair of blocks. -/
def StereoBlock.silence : StereoBlock := { left := .filled 0, right := .filled 0 }

namespace Graph

variable {σ ω : Type}

/-- Asks the sources for their blocks, in slot order. -/
def playSlots (play : Playing σ ω) : Slots σ → Mixing ω → Slots σ × Mixing ω
  | [], m => ([], m)
  | none :: rest, m =>
    let (rest, m) := playSlots play rest m
    (none :: rest, m)
  | some connection :: rest, m =>
    let (delivered, source, world, pool) := play connection.source m.world m.pool
    let m := { m with world := world, pool := pool }.collect delivered
    let (rest, m) := playSlots play rest m
    (some { connection with source := source } :: rest, m)

/-- Runs one cycle and gives its block. -/
def nextBlock (play : Playing σ ω) (g : Graph σ) (world : ω) :
    StereoBlock × Graph σ × ω :=
  let g := g.applyCommands
  let (slots, m) := playSlots play g.slots { pool := g.pool, world := world }
  let block := if g.muted then .silence else m.output
  (block,
    { g with
      slots := slots
      pool := m.pool
      cycles := g.cycles + 1
      skipped := g.skipped + m.skipped },
    m.world)

end Graph

end Chiptune
