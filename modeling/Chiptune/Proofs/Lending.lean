import Chiptune.Proofs.Pool

/-!
# `Chiptune.Proofs.Lending`: a pool lends its blocks as a bounded stack

`Stacks` says what a stack of a bounded number of blocks does at an operation of a pool: which blocks
come out, and what is left. It does not say how a pool does it; a request for a pair, for instance,
is one step of the stack, and two requests and a release of the pool.

A `PoolHistory` is a pool with its user. A user has the blocks that came out of the pool and did not
go back, and it writes into them as it likes. What it gives back is one of these blocks or a foreign
one. All that is asked of it is that it gives away no block that it does not have.

* `Pool.Fits.lends`: each operation is a step of the stack, and counts a failure if it is a request
  that gives nothing.
* `Stacks.balance`: a stack with room for what it is given loses as many blocks as come out, and
  gains as many as it is given.
* `PoolHistory.Kept.step`: what holds of a history, whoever gives blocks back.
* `PoolHistory.balance_step`: as long as no foreign block is given back, the blocks in the pool and
  those of the user are as many as the pool was made with.

`Pool.bounded_stack` is the main statement.
-/

set_option autoImplicit false

namespace Chiptune

/-- What a stack of at most `capacity` blocks does at an operation: the blocks in it, the operation,
the blocks that come out, and the blocks that are left. The next block to come out is the first. -/
inductive Stacks (capacity : Nat) : List Block → PoolOp → List Block → List Block → Prop where
  | allocate {block : Block} {rest : List Block} :
    Stacks capacity (block :: rest) .allocate [block] rest
  | allocateEmpty : Stacks capacity [] .allocate [] []
  | allocateStereo {left right : Block} {rest : List Block} :
    Stacks capacity (left :: right :: rest) .allocateStereo [left, right] rest
  | allocateFew {blocks : List Block} (few : blocks.length < 2) :
    Stacks capacity blocks .allocateStereo [] blocks
  | release {block : Block} {blocks : List Block} (room : blocks.length < capacity) :
    Stacks capacity blocks (.release block) [] (block :: blocks)
  | releaseFull {block : Block} {blocks : List Block} (full : blocks.length = capacity) :
    Stacks capacity blocks (.release block) [] blocks
  | releaseStereo {pair : StereoBlock} {blocks between rest : List Block}
      (left : Stacks capacity blocks (.release pair.left) [] between)
      (right : Stacks capacity between (.release pair.right) [] rest) :
    Stacks capacity blocks (.releaseStereo pair) [] rest

/-- A list of operations, each with the blocks that came out. -/
inductive StacksRun (capacity : Nat) :
    List Block → List (PoolOp × List Block) → List Block → Prop where
  | nil {blocks : List Block} : StacksRun capacity blocks [] blocks
  | snoc {blocks between rest given : List Block} {calls : List (PoolOp × List Block)} {op : PoolOp}
      (run : StacksRun capacity blocks calls between)
      (step : Stacks capacity between op given rest) :
    StacksRun capacity blocks (calls ++ [(op, given)]) rest

/-- The blocks of a pool, the next to come out first. -/
def Pool.blocks (p : Pool) : List Block := p.free.toList.reverse

namespace PoolOp

/-- The blocks that come out of a pool at an operation, first one first. -/
def given (op : PoolOp) (p : Pool) : List Block :=
  match op with
  | .allocate => p.allocate.1.toList
  | .allocateStereo =>
    match p.allocateStereo.1 with
    | some pair => [pair.left, pair.right]
    | none => []
  | .release _ | .releaseStereo _ => []

/-- How many blocks are given back. -/
def returned : PoolOp → Nat
  | .allocate | .allocateStereo => 0
  | .release _ => 1
  | .releaseStereo _ => 2

/-- Whether the operation is a request that gave nothing. -/
def failed (call : PoolOp × List Block) : Bool :=
  match call with
  | (.allocate, given) | (.allocateStereo, given) => given.isEmpty
  | (.release _, _) | (.releaseStereo _, _) => false

/-- An operation does what it does to a stack, and counts a failure if it is a request that gives
nothing. -/
structure Lends (op : PoolOp) (p : Pool) : Prop where
  stack : Stacks p.capacity p.blocks op (op.given p) (op.run p).blocks
  capacity : (op.run p).capacity = p.capacity
  failures : (op.run p).failures = p.failures + (failed (op, op.given p)).toNat

end PoolOp

/-! ### Users -/

/-- A block to give back: one of those that the user has from the pool, by its place among them, or
a foreign one. -/
inductive Origin where
  | held (place : Nat)
  | foreign (block : Block)

namespace Origin

/-- Takes the block, if the user has it, out of those that it has from the pool. -/
def take (origin : Origin) (held : List Block) : Option (Block × List Block) :=
  match origin with
  | .held place => held[place]?.map fun block => (block, held.eraseIdx place)
  | .foreign block => some (block, held)

/-- Whether the block comes from the pool. -/
def own : Origin → Bool
  | held _ => true
  | foreign _ => false

end Origin

/-- Something that a user does with a pool and the blocks that it has from there. -/
inductive PoolUse where
  | allocate
  | allocateStereo
  /-- Writes into a block. -/
  | render (place : Nat) (block : Block)
  | release (origin : Origin)
  | releaseStereo (left right : Origin)

namespace PoolUse

/-- The operation that the pool is asked for, and the blocks that the user keeps. There is none if
the user only writes, or does not have the block that it is to give back. -/
def call (held : List Block) : PoolUse → Option (PoolOp × List Block)
  | allocate => some (.allocate, held)
  | allocateStereo => some (.allocateStereo, held)
  | render _ _ => none
  | release origin => (origin.take held).map fun taken => (.release taken.1, taken.2)
  | releaseStereo left right =>
    (left.take held).bind fun first =>
      (right.take first.2).map fun second => (.releaseStereo ⟨first.1, second.1⟩, second.2)

/-- Whether only blocks from the pool are given back. -/
def own : PoolUse → Bool
  | release origin => origin.own
  | releaseStereo left right => left.own && right.own
  | _ => true

end PoolUse

/-- A pool, the blocks that its user has from it, and the operations so far with what they gave. -/
structure PoolHistory where
  pool : Pool
  held : List Block := []
  calls : List (PoolOp × List Block) := []

namespace PoolHistory

def step (h : PoolHistory) (use : PoolUse) : PoolHistory :=
  match use, use.call h.held with
  | .render place block, _ => { h with held := h.held.set place block }
  | _, none => h
  | _, some (op, kept) =>
    { pool := op.run h.pool
      held := kept ++ op.given h.pool
      calls := h.calls ++ [(op, op.given h.pool)] }

/-- A new pool. -/
def create (blocks : Nat) : PoolHistory := { pool := .create blocks }

/-- The history after a list of uses. -/
def after (h : PoolHistory) (uses : List PoolUse) : PoolHistory := uses.foldl step h

/-- The invariant of every use. -/
structure Kept (capacity : Nat) (h : PoolHistory) : Prop where
  capacity_eq : h.pool.capacity = capacity
  fits : h.pool.Fits
  stacked : StacksRun capacity (List.replicate capacity (.filled 0)) h.calls h.pool.blocks
  failures : h.pool.failures = h.calls.countP PoolOp.failed

end PoolHistory

/-! ### Pools as stacks -/

/-- It is enough to know what an operation gives and the pool that it leaves. -/
theorem PoolOp.Lends.of_run {op : PoolOp} {p after : Pool} {given : List Block}
    (hgiven : op.given p = given) (hrun : op.run p = after)
    (stack : Stacks p.capacity p.blocks op given after.blocks)
    (capacity : after.capacity = p.capacity)
    (failures : after.failures = p.failures + (PoolOp.failed (op, given)).toNat) : op.Lends p := by
  subst hgiven hrun
  exact ⟨stack, capacity, failures⟩

namespace Stacks

variable {capacity : Nat} {blocks given rest : List Block} {op : PoolOp}

/-- A stack that has room for what it is given takes it all. -/
theorem balance (h : Stacks capacity blocks op given rest)
    (hroom : blocks.length + op.returned ≤ capacity) :
    rest.length + given.length = blocks.length + op.returned := by
  cases h with
  | allocate => rfl
  | allocateEmpty => rfl
  | allocateStereo => rfl
  | allocateFew few => rfl
  | release room => rfl
  | releaseFull full =>
    -- A full stack has no room for the block.
    rw [PoolOp.returned] at hroom
    omega
  | releaseStereo left right =>
    rw [PoolOp.returned] at hroom
    cases left with
    | releaseFull full => omega
    | release room =>
      cases right with
      | releaseFull full =>
        rw [List.length_cons] at full
        omega
      | release room => rfl

end Stacks

namespace Pool

variable {p : Pool}

@[simp] theorem length_blocks (p : Pool) : p.blocks.length = p.available := List.length_reverse

theorem blocks_of_push {rest : Array Block} {block : Block} (h : p.free = rest.push block) :
    p.blocks = block :: rest.toList.reverse := by
  rw [blocks, h, Array.toList_push, List.reverse_concat]

theorem blocks_create (n : Nat) : (create n).blocks = List.replicate n (.filled 0) := by
  rw [blocks, create, Array.toList_replicate, List.reverse_replicate]

theorem lends_allocate (p : Pool) : PoolOp.allocate.Lends p := by
  rcases p.free_cases with hempty | ⟨rest, block, hblock⟩
  · have hrun := allocate_of_empty hempty
    have hgiven : PoolOp.allocate.given p = [] := by rw [PoolOp.given, hrun]; rfl
    have hblocks : p.blocks = [] := by rw [blocks, hempty]; rfl
    refine .of_run hgiven (congrArg Prod.snd hrun) ?_ rfl rfl
    show Stacks _ p.blocks _ [] p.blocks
    rw [hblocks]
    exact .allocateEmpty
  · have hrun := allocate_of_push hblock
    have hgiven : PoolOp.allocate.given p = [block] := by rw [PoolOp.given, hrun]; rfl
    refine .of_run hgiven (congrArg Prod.snd hrun) ?_ rfl rfl
    rw [blocks_of_push hblock]
    exact .allocate

theorem Fits.lends_allocateStereo (h : p.Fits) : PoolOp.allocateStereo.Lends p := by
  rcases Nat.lt_or_ge p.available 2 with hfew | hmany
  · have hrun := allocateStereo_of_few h hfew
    have hgiven : PoolOp.allocateStereo.given p = [] := by rw [PoolOp.given, hrun]
    refine .of_run hgiven (congrArg Prod.snd hrun) ?_ rfl rfl
    exact .allocateFew (by rwa [length_blocks])
  · obtain ⟨left, right, rest, hfree, hrun⟩ := allocateStereo_of_many hmany
    have hgiven : PoolOp.allocateStereo.given p = [left, right] := by rw [PoolOp.given, hrun]
    have hblocks : p.blocks = left :: right :: rest.toList.reverse := by
      rw [blocks_of_push hfree, Array.toList_push, List.reverse_concat]
    refine .of_run hgiven (congrArg Prod.snd hrun) ?_ rfl rfl
    rw [hblocks]
    exact .allocateStereo

theorem Fits.lends_release (h : p.Fits) (block : Block) : (PoolOp.release block).Lends p := by
  rcases Nat.lt_or_ge p.available p.capacity with hroom | hfull
  · have hblocks : ({ p with free := p.free.push block } : Pool).blocks = block :: p.blocks :=
      blocks_of_push rfl
    refine .of_run rfl (release_of_lt hroom block) ?_ rfl rfl
    rw [hblocks]
    exact .release (by rwa [length_blocks])
  · refine .of_run rfl (release_of_le hfull block) ?_ rfl rfl
    exact .releaseFull (by rw [length_blocks]; exact Nat.le_antisymm h hfull)

/-- Every operation of a pool is that of a stack. -/
theorem Fits.lends (h : p.Fits) (op : PoolOp) : op.Lends p := by
  cases op with
  | allocate => exact lends_allocate p
  | allocateStereo => exact h.lends_allocateStereo
  | release block => exact h.lends_release block
  | releaseStereo pair =>
    have hleft := h.lends_release pair.left
    have hright := Fits.lends_release (h.release pair.left) pair.right
    -- The right block meets the pool that the left one leaves, of the same size.
    have hstack := hright.stack
    rw [show (p.release pair.left).capacity = p.capacity from hleft.capacity] at hstack
    exact
      { stack := .releaseStereo hleft.stack hstack
        capacity := hright.capacity.trans hleft.capacity
        failures := hright.failures.trans hleft.failures }

end Pool

namespace PoolHistory

variable {capacity : Nat} {h : PoolHistory} {op : PoolOp} {kept : List Block} {use : PoolUse}

theorem kept_create (capacity : Nat) : (create capacity).Kept capacity where
  capacity_eq := rfl
  fits := Pool.fits_create capacity
  stacked := by
    rw [create, Pool.blocks_create]
    exact .nil
  failures := rfl

/-- An operation keeps the invariant, whatever the user has in its hands. -/
theorem Kept.call (hkept : h.Kept capacity) (op : PoolOp) (held : List Block) :
    Kept capacity
      { pool := op.run h.pool, held := held, calls := h.calls ++ [(op, op.given h.pool)] } := by
  have hlends := hkept.fits.lends op
  have hstack := hlends.stack
  rw [hkept.capacity_eq] at hstack
  exact
    { capacity_eq := hlends.capacity.trans hkept.capacity_eq
      fits := hkept.fits.run op
      stacked := .snoc hkept.stacked hstack
      failures := by
        rw [hlends.failures, hkept.failures, List.countP_append, List.countP_singleton]
        cases PoolOp.failed (op, op.given h.pool)
        all_goals rfl }

theorem Kept.step (hkept : h.Kept capacity) (use : PoolUse) : (h.step use).Kept capacity := by
  unfold PoolHistory.step
  split
  · exact { hkept with }
  · exact hkept
  · exact hkept.call _ _

theorem Kept.after (hkept : h.Kept capacity) (uses : List PoolUse) :
    (h.after uses).Kept capacity := by
  induction uses generalizing h with
  | nil => exact hkept
  | cons use uses ih => exact ih (hkept.step use)

/-! ### Blocks in the pool and blocks with its user -/

theorem length_take {origin : Origin} {held : List Block} {block : Block}
    (hown : origin.own = true) (h : origin.take held = some (block, kept)) :
    kept.length + 1 = held.length := by
  cases origin with
  | foreign block => nomatch hown
  | held place =>
    obtain ⟨found, hfound, htaken⟩ := Option.map_eq_some_iff.mp h
    obtain ⟨hplace, -⟩ := List.getElem?_eq_some_iff.mp hfound
    obtain ⟨-, rfl⟩ := Prod.mk.inj htaken
    rw [List.length_eraseIdx_of_lt hplace]
    omega

/-- What is given back is what the user has no longer. -/
theorem length_call {held : List Block} (hown : use.own = true)
    (h : use.call held = some (op, kept)) : kept.length + op.returned = held.length := by
  cases use with
  | allocate | allocateStereo =>
    obtain ⟨rfl, rfl⟩ := Prod.mk.inj (Option.some.inj h)
    rfl
  | render place block => nomatch h
  | release origin =>
    obtain ⟨taken, htaken, heq⟩ := Option.map_eq_some_iff.mp h
    obtain ⟨rfl, rfl⟩ := Prod.mk.inj heq
    exact length_take hown htaken
  | releaseStereo left right =>
    obtain ⟨hleft, hright⟩ := Bool.and_eq_true_iff.mp hown
    obtain ⟨first, hfirst, hrest⟩ := Option.bind_eq_some_iff.mp h
    obtain ⟨second, hsecond, heq⟩ := Option.map_eq_some_iff.mp hrest
    obtain ⟨rfl, rfl⟩ := Prod.mk.inj heq
    have hone := length_take hleft hfirst
    have htwo := length_take hright hsecond
    rw [PoolOp.returned]
    omega

/-- A user that gives back only what it has from the pool leaves room for it. -/
theorem balance_step (hkept : h.Kept capacity)
    (hbalance : h.pool.available + h.held.length = capacity) (hown : use.own = true) :
    (h.step use).pool.available + (h.step use).held.length = capacity := by
  unfold step
  split
  · rw [List.length_set]
    exact hbalance
  · exact hbalance
  · next _ _ op kept _ hcall =>
    -- What goes back was outstanding, so the pool has room for it.
    have hreturned := length_call hown hcall
    have hlends := hkept.fits.lends op
    have hblocks := hlends.stack.balance (by rw [Pool.length_blocks, hkept.capacity_eq]; omega)
    rw [Pool.length_blocks, Pool.length_blocks] at hblocks
    show (op.run h.pool).available + (kept ++ op.given h.pool).length = capacity
    rw [List.length_append]
    omega

theorem balance_after (hkept : h.Kept capacity)
    (hbalance : h.pool.available + h.held.length = capacity) {uses : List PoolUse}
    (hown : ∀ use ∈ uses, use.own = true) :
    (h.after uses).pool.available + (h.after uses).held.length = capacity := by
  induction uses generalizing h with
  | nil => exact hbalance
  | cons use uses ih =>
    obtain ⟨huse, huses⟩ := List.forall_mem_cons.mp hown
    exact ih (hkept.step use) (balance_step hkept hbalance huse) huses

end PoolHistory

namespace Pool

variable {p : Pool}

/-- The block that was given back last is the next to come out. -/
theorem allocate_release (h : p.available < p.capacity) (block : Block) :
    (p.release block).allocate = (some block, p) := by
  rw [release_of_lt h, allocate_of_push rfl]

theorem Fits.allocateStereo_eq_none_iff (h : p.Fits) :
    p.allocateStereo.1 = none ↔ p.available < 2 := by
  rcases Nat.lt_or_ge p.available 2 with hfew | hmany
  · rw [allocateStereo_of_few h hfew]
    exact iff_of_true rfl hfew
  · obtain ⟨left, right, rest, -, hrun⟩ := allocateStereo_of_many hmany
    rw [hrun]
    exact iff_of_false (by simp) (Nat.not_lt_of_le hmany)

/-- A pool is a bounded stack. Whatever its user does, it never holds more blocks than it was made
with, what comes out and goes in is what a stack of that size gives and takes, and the failures are
the requests that gave nothing. A request for a pair fails if there are fewer than two blocks, and
then leaves them as they are, and a full pool does not change if a block is given to it. If only
blocks of the pool are given back, none is lost. -/
theorem bounded_stack (blocks : Nat) (uses : List PoolUse) :
    let h := (PoolHistory.create blocks).after uses
    h.pool.capacity = blocks ∧ h.pool.available ≤ blocks ∧
    StacksRun blocks (List.replicate blocks (.filled 0)) h.calls h.pool.blocks ∧
    (∀ block, if h.pool.available = blocks then h.pool.release block = h.pool
      else (h.pool.release block).allocate = (some block, h.pool)) ∧
    (h.pool.allocateStereo.1 = none ↔ h.pool.available < 2) ∧
    (h.pool.allocateStereo.1 = none →
      h.pool.allocateStereo.2 = { h.pool with failures := h.pool.failures + 1 }) ∧
    h.pool.failures = h.calls.countP PoolOp.failed ∧
    ((∀ use ∈ uses, use.own = true) → h.pool.available + h.held.length = blocks) := by
  intro h
  have hcreate := PoolHistory.kept_create blocks
  have hkept : h.Kept blocks := hcreate.after uses
  have hcapacity := hkept.capacity_eq
  have hle : h.pool.available ≤ blocks := Nat.le_trans hkept.fits (Nat.le_of_eq hcapacity)
  refine ⟨hcapacity, hle, hkept.stacked, ?_, hkept.fits.allocateStereo_eq_none_iff, ?_,
    hkept.failures, ?_⟩
  · intro block
    split
    · next hfull => exact release_of_le (by omega) block
    · next hroom => exact allocate_release (by omega) block
  · intro hnone
    rw [allocateStereo_of_few hkept.fits (hkept.fits.allocateStereo_eq_none_iff.mp hnone)]
  · intro hown
    exact PoolHistory.balance_after hcreate (by simp [PoolHistory.create, create, available]) hown

/-- Of three blocks one is left after a pair, and the next request for a pair fails. -/
theorem third_block_kept :
    let h := (PoolHistory.create 3).after [.allocateStereo, .allocateStereo, .release (.held 1)]
    h.pool.available = 2 ∧ h.held.length = 1 ∧ h.pool.failures = 1 := by
  intro h
  obtain ⟨-, -, -, -, -, -, hfailures, hbalance⟩ :=
    bounded_stack 3 [.allocateStereo, .allocateStereo, .release (.held 1)]
  have hheld : h.held.length = 1 := rfl
  have hthree : h.pool.available + h.held.length = 3 := hbalance (by simp [PoolUse.own, Origin.own])
  rw [hheld] at hthree
  exact ⟨Nat.succ.inj hthree, hheld, hfailures⟩

end Pool

end Chiptune
