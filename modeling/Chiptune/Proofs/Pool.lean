import Mathlib.Data.List.Forall2
import Chiptune.Pool

/-!
# `Chiptune.Proofs.Pool`: what requests do to a pool of blocks

A pool never holds more blocks than it was made with (`Pool.Fits`), whatever its users do. So
the single block that a request for a pair takes, and cannot use, finds its place again:
`Pool.allocateStereo_of_few` says that a request which fails leaves the blocks and their order
and counts one failure.

The count of failures is only reported. `Pool.uncounted` leaves it out, and no operation
depends on it.

Pools are `Alike` if they are of one size and hold equally many blocks, whatever the samples. A
request is met by both or by neither (`Pool.allocateStereo_cases`).

Pools match under a relation if besides it relates the blocks of the one to those of the other, each
at its place, and failures are equal (`Pool.Matches`). If users that do the same give related blocks
back, the pools go on to match (`Pool.Matches.run`).
-/

set_option autoImplicit false

namespace Chiptune

/-- Something that a user of a pool does. -/
inductive PoolOp where
  | allocate
  | allocateStereo
  | release (block : Block)
  | releaseStereo (block : StereoBlock)

/-- The pool after the operation. -/
def PoolOp.run (op : PoolOp) (p : Pool) : Pool :=
  match op with
  | .allocate => p.allocate.2
  | .allocateStereo => p.allocateStereo.2
  | .release block => p.release block
  | .releaseStereo block => p.releaseStereo block

/-- Two users do the same, with blocks that correspond. -/
inductive PoolOp.Matches (R : Block → Block → Prop) : PoolOp → PoolOp → Prop where
  | allocate : Matches R .allocate .allocate
  | allocateStereo : Matches R .allocateStereo .allocateStereo
  | release {block block' : Block} (whole : R block block') :
      Matches R (.release block) (.release block')
  | releaseStereo {pair pair' : StereoBlock} (left : R pair.left pair'.left)
      (right : R pair.right pair'.right) : Matches R (.releaseStereo pair) (.releaseStereo pair')

namespace Pool

/-- The pool holds no more blocks than it was made with. -/
def Fits (p : Pool) : Prop := p.available ≤ p.capacity

/-- The pool without its count of failures. -/
def uncounted (p : Pool) : Pool := { p with failures := 0 }

/-- The pools are of one size and hold equally many blocks. -/
structure Alike (p q : Pool) : Prop where
  available : p.available = q.available
  capacity : p.capacity = q.capacity

section
variable {p : Pool}

/-! ### Single blocks -/

theorem allocate_of_empty (h : p.free = #[]) :
    p.allocate = (none, { p with failures := p.failures + 1 }) := by
  rw [allocate, h]
  rfl

theorem allocate_of_push {rest : Array Block} {block : Block} (h : p.free = rest.push block) :
    p.allocate = (some block, { p with free := rest }) := by
  rw [allocate, h, Array.back?_push]
  dsimp only
  rw [Array.pop_push]

theorem release_of_lt (h : p.available < p.capacity) (block : Block) :
    p.release block = { p with free := p.free.push block } := if_pos h

theorem release_of_le (h : p.capacity ≤ p.available) (block : Block) : p.release block = p :=
  if_neg (Nat.not_lt_of_le h)

/-- The blocks of a pool are none, or one behind others. -/
theorem free_cases (p : Pool) :
    p.free = #[] ∨ ∃ (rest : Array Block) (block : Block), p.free = rest.push block := by
  by_cases h : p.free = #[]
  · exact Or.inl h
  · exact Or.inr (Array.exists_push_of_ne_empty h)

/-! ### Pairs -/

/-- A request that finds fewer than two blocks leaves them as they are and counts a failure. -/
theorem allocateStereo_of_few (hfits : p.Fits) (h : p.available < 2) :
    p.allocateStereo = (none, { p with failures := p.failures + 1 }) := by
  rcases p.free_cases with hempty | ⟨rest, left, hleft⟩
  · rw [allocateStereo, allocate_of_empty hempty]
  · -- One block: it is taken, no second one is there, and it goes back where it was.
    have hsize : rest.size + 1 = p.available := by rw [available, hleft, Array.size_push]
    have hnone : rest = #[] := Array.eq_empty_of_size_eq_zero (by omega)
    subst hnone
    have hroom : 0 < p.capacity := Nat.lt_of_lt_of_le (by omega) hfits
    rw [allocateStereo, allocate_of_push hleft]
    dsimp only
    rw [allocate_of_empty rfl]
    dsimp only
    rw [release_of_lt (p := { p with free := #[], failures := p.failures + 1 }) hroom, ← hleft]

/-- Any other request takes the last two blocks, the last one for the left side. -/
theorem allocateStereo_of_many (h : 2 ≤ p.available) :
    ∃ left right rest, p.free = (rest.push right).push left ∧
      p.allocateStereo = (some ⟨left, right⟩, { p with free := rest }) := by
  -- Neither of the two requests may find the pool empty, so its size is compared each time.
  rcases p.free_cases with hempty | ⟨more, left, hleft⟩
  · rw [available, hempty] at h
    nomatch h
  · rcases free_cases { p with free := more } with hempty | ⟨rest, right, hright⟩
    · have hmore : more = #[] := hempty
      rw [available, hleft, hmore, Array.size_push] at h
      nomatch h
    · have hmore : more = rest.push right := hright
      subst hmore
      refine ⟨left, right, rest, hleft, ?_⟩
      rw [allocateStereo, allocate_of_push hleft]
      dsimp only
      rw [allocate_of_push rfl]

/-- A request for a pair is refused and counted, or it takes two blocks. -/
theorem allocateStereo_cases (h : p.Fits) :
    (p.available < 2 ∧ p.allocateStereo = (none, { p with failures := p.failures + 1 })) ∨
    ∃ (stale : StereoBlock) (left : Pool), p.allocateStereo = (some stale, left) ∧
      left.available + 2 = p.available ∧ left.capacity = p.capacity ∧
      left.failures = p.failures := by
  rcases Nat.lt_or_ge p.available 2 with hfew | hmany
  · exact Or.inl ⟨hfew, allocateStereo_of_few h hfew⟩
  · obtain ⟨left, right, rest, hfree, heq⟩ := allocateStereo_of_many hmany
    refine Or.inr ⟨_, _, heq, ?_, rfl, rfl⟩
    rw [available, available, hfree, Array.size_push, Array.size_push]

/-! ### The size of a pool -/

theorem fits_create (blocks : Nat) : (create blocks).Fits :=
  Nat.le_of_eq Array.size_replicate

theorem Fits.allocate (h : p.Fits) : p.allocate.2.Fits := by
  rcases p.free_cases with hempty | ⟨rest, block, hblock⟩
  · rw [allocate_of_empty hempty]
    exact h
  · rw [allocate_of_push hblock]
    have hsize : rest.size + 1 = p.available := by rw [available, hblock, Array.size_push]
    exact Nat.le_trans (Nat.le_of_lt (Nat.lt_of_succ_le (Nat.le_of_eq hsize))) h

theorem Fits.release (h : p.Fits) (block : Block) : (p.release block).Fits := by
  rcases Nat.lt_or_ge p.available p.capacity with hlt | hle
  · rw [release_of_lt hlt, Fits, available, Array.size_push]
    exact hlt
  · rw [release_of_le hle]
    exact h

theorem Fits.allocateStereo (h : p.Fits) : p.allocateStereo.2.Fits := by
  rcases allocateStereo_cases h with ⟨-, hrefused⟩ | ⟨stale, left, htaken, hmore, hsize, -⟩
  · rw [hrefused]
    exact h
  · rw [htaken, Fits, hsize]
    exact Nat.le_trans (Nat.le.intro hmore) h

theorem Fits.run (h : p.Fits) (op : PoolOp) : (op.run p).Fits := by
  cases op with
  | allocate => exact h.allocate
  | allocateStereo => exact h.allocateStereo
  | release block => exact h.release block
  | releaseStereo block => exact (h.release block.left).release block.right

/-! ### Pools of one size -/

theorem Alike.refl (p : Pool) : p.Alike p := ⟨rfl, rfl⟩

theorem Alike.symm {q : Pool} (h : p.Alike q) : q.Alike p :=
  ⟨h.available.symm, h.capacity.symm⟩

theorem Alike.trans {q r : Pool} (h : p.Alike q) (h' : q.Alike r) : p.Alike r :=
  ⟨h.available.trans h'.available, h.capacity.trans h'.capacity⟩

theorem Alike.fits {q : Pool} (h : p.Alike q) (hfits : q.Fits) : p.Fits := by
  unfold Fits
  rw [h.available, h.capacity]
  exact hfits

/-- A pool that has room for a pair takes both blocks. -/
theorem alike_releaseStereo {q : Pool} (havailable : p.available + 2 = q.available)
    (hcapacity : p.capacity = q.capacity) (hfits : q.Fits) (block : StereoBlock) :
    (p.releaseStereo block).Alike q := by
  have hroom : p.available + 2 ≤ p.capacity := by
    rw [havailable, hcapacity]
    exact hfits
  have hleft := release_of_lt (Nat.lt_of_succ_lt hroom) block.left
  have hsize : (p.release block.left).available = p.available + 1 := by
    rw [hleft]
    exact Array.size_push _
  have hright : (p.release block.left).available < (p.release block.left).capacity := by
    rw [hsize, hleft]
    exact hroom
  unfold releaseStereo
  rw [release_of_lt hright]
  refine ⟨?_, ?_⟩
  · calc ((p.release block.left).free.push block.right).size
        = (p.release block.left).available + 1 := Array.size_push _
      _ = q.available := by rw [hsize]; exact havailable
  · show (p.release block.left).capacity = q.capacity
    rw [hleft]
    exact hcapacity

/-! ### Pools whose blocks correspond -/

/-- The pools are of one size, hold blocks of which each corresponds to the one at its place, and
have counted equally many failures. -/
structure Matches (R : Block → Block → Prop) (p q : Pool) : Prop where
  free : List.Forall₂ R p.free.toList q.free.toList
  capacity : p.capacity = q.capacity
  failures : p.failures = q.failures

theorem forall₂_concat {α : Type} {R : α → α → Prop} {as bs : List α} {a b : α} :
    List.Forall₂ R (as ++ [a]) (bs ++ [b]) ↔ List.Forall₂ R as bs ∧ R a b := by
  rw [← List.forall₂_reverse_iff, List.reverse_concat, List.reverse_concat, List.forall₂_cons,
    List.forall₂_reverse_iff, and_comm]

theorem matches_create {R : Block → Block → Prop} (hsilent : R (.filled 0) (.filled 0))
    (blocks : Nat) : (create blocks).Matches R (create blocks) where
  free := List.forall₂_same.mpr fun block hmem => by
    have hreplicate : block ∈ List.replicate blocks (.filled 0) := by
      rwa [create, Array.toList_replicate] at hmem
    rw [List.eq_of_mem_replicate hreplicate]
    exact hsilent
  capacity := rfl
  failures := rfl

namespace Matches

variable {q : Pool} {R : Block → Block → Prop}

theorem available (h : p.Matches R q) : p.available = q.available := h.free.length_eq

/-- Pools whose blocks are equal are equal. -/
protected theorem eq (h : p.Matches Eq q) : p = q := by
  have hfree : p.free = q.free := by
    rw [← Array.toList_inj, ← List.forall₂_eq_eq_eq]
    exact h.free
  have hcapacity := h.capacity
  have hfailures := h.failures
  cases p
  cases q
  rw [mk.injEq]
  exact ⟨hfree, hcapacity, hfailures⟩

/-- Blocks that are handed out correspond. -/
theorem allocate (h : p.Matches R q) :
    Option.Rel R p.allocate.1 q.allocate.1 ∧ p.allocate.2.Matches R q.allocate.2 := by
  have hsize : p.free.size = q.free.size := h.available
  rcases p.free_cases with hp | ⟨rest, block, hp⟩
  · rcases q.free_cases with hq | ⟨rest', block', hq⟩
    · rw [allocate_of_empty hp, allocate_of_empty hq]
      exact ⟨.none, h.free, h.capacity, congrArg (· + 1) h.failures⟩
    · simp [hp, hq] at hsize
  · rcases q.free_cases with hq | ⟨rest', block', hq⟩
    · simp [hp, hq] at hsize
    · have hfree := h.free
      rw [hp, hq, Array.toList_push, Array.toList_push, forall₂_concat] at hfree
      rw [allocate_of_push hp, allocate_of_push hq]
      exact ⟨.some hfree.2, hfree.1, h.capacity, h.failures⟩

theorem release (h : p.Matches R q) {block block' : Block} (hblock : R block block') :
    (p.release block).Matches R (q.release block') := by
  rcases Nat.lt_or_ge p.available p.capacity with hlt | hle
  · have hlt' : q.available < q.capacity := by rw [← h.available, ← h.capacity]; exact hlt
    rw [release_of_lt hlt, release_of_lt hlt']
    refine ⟨?_, h.capacity, h.failures⟩
    rw [Array.toList_push, Array.toList_push, forall₂_concat]
    exact ⟨h.free, hblock⟩
  · have hle' : q.capacity ≤ q.available := by rw [← h.available, ← h.capacity]; exact hle
    rw [release_of_le hle, release_of_le hle']
    exact h

/-- A pair is handed out by both or by neither. -/
theorem allocateStereo (h : p.Matches R q) :
    p.allocateStereo.1.isSome = q.allocateStereo.1.isSome ∧
      p.allocateStereo.2.Matches R q.allocateStereo.2 := by
  obtain ⟨hleft, hrest⟩ := h.allocate
  unfold Pool.allocateStereo
  -- The pools answer alike to the first request, and then to the second.
  generalize p.allocate = a, q.allocate = b at hleft hrest
  obtain ⟨_ | left, p'⟩ := a <;> obtain ⟨_ | left', q'⟩ := b
  · exact ⟨rfl, hrest⟩
  · nomatch hleft
  · nomatch hleft
  · obtain ⟨hright, hlast⟩ := hrest.allocate
    dsimp only at hright hlast ⊢
    generalize p'.allocate = a, q'.allocate = b at hright hlast
    obtain ⟨_ | right, p''⟩ := a <;> obtain ⟨_ | right', q''⟩ := b
    · cases hleft with
      | some hleft => exact ⟨rfl, hlast.release hleft⟩
    · nomatch hright
    · nomatch hright
    · exact ⟨rfl, hlast⟩

theorem run (h : p.Matches R q) {op op' : PoolOp} (hop : op.Matches R op') :
    (op.run p).Matches R (op'.run q) := by
  cases hop with
  | allocate => exact h.allocate.2
  | allocateStereo => exact h.allocateStereo.2
  | release whole => exact h.release whole
  | releaseStereo left right => exact (h.release left).release right

end Matches

/-! ### The count of failures -/

theorem Fits.uncounted (h : p.Fits) : p.uncounted.Fits := h

theorem uncounted_allocate (p : Pool) :
    p.uncounted.allocate.2.uncounted = p.allocate.2.uncounted := by
  rcases p.free_cases with hempty | ⟨rest, block, hblock⟩
  · rw [allocate_of_empty hempty, allocate_of_empty (p := p.uncounted) hempty]
    rfl
  · rw [allocate_of_push hblock, allocate_of_push (p := p.uncounted) hblock]
    rfl

theorem release_uncounted (p : Pool) (block : Block) :
    p.uncounted.release block = (p.release block).uncounted := by
  rcases Nat.lt_or_ge p.available p.capacity with hlt | hle
  · rw [release_of_lt hlt, release_of_lt (p := p.uncounted) hlt]
    rfl
  · rw [release_of_le hle, release_of_le (p := p.uncounted) hle]

/-- Whether a pair is handed out, and which, does not depend on the count of failures. -/
theorem uncounted_allocateStereo (h : p.Fits) :
    p.uncounted.allocateStereo.1 = p.allocateStereo.1 ∧
      p.uncounted.allocateStereo.2.uncounted = p.allocateStereo.2.uncounted := by
  rcases Nat.lt_or_ge p.available 2 with hfew | hmany
  · rw [allocateStereo_of_few h hfew, allocateStereo_of_few h.uncounted hfew]
    exact ⟨rfl, rfl⟩
  · obtain ⟨left, right, rest, hfree, heq⟩ := allocateStereo_of_many hmany
    obtain ⟨left', right', rest', hfree', heq'⟩ := allocateStereo_of_many (p := p.uncounted) hmany
    -- The blocks are the same, so the pairs are.
    obtain ⟨rfl, hright⟩ := Array.push_eq_push.mp (hfree.symm.trans hfree')
    obtain ⟨rfl, rfl⟩ := Array.push_eq_push.mp hright
    rw [heq, heq']
    exact ⟨rfl, rfl⟩

theorem uncounted_run (h : p.Fits) (op : PoolOp) :
    (op.run p.uncounted).uncounted = (op.run p).uncounted := by
  cases op with
  | allocate => exact p.uncounted_allocate
  | allocateStereo => exact (uncounted_allocateStereo h).2
  | release block =>
    show (p.uncounted.release block).uncounted = _
    rw [release_uncounted]
    rfl
  | releaseStereo block =>
    show ((p.uncounted.release block.left).release block.right).uncounted = _
    rw [release_uncounted, release_uncounted]
    rfl

end

end Pool

end Chiptune
