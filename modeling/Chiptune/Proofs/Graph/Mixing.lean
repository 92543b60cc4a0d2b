import Chiptune.Proofs.Graph.Muting
import Chiptune.Proofs.Graph.Sources
import Mathlib.Algebra.BigOperators.Group.List.Basic
import Mathlib.Algebra.Ring.Int.Defs

/-!
# `Chiptune.Proofs.Graph.Mixing`: a cycle makes the saturated sum

The sums of a cycle are words of 32 bits and their addition wraps. Eight samples of 16 bits are far
from that, so the sums are those of the integers (`Mixing.toInt_sums_foldl_hear`, the key lemma),
and a sample of the block is its sum bounded to 16 bits (`Mixing.toInt_saturate`).

`Graph.saturated_sum` is the main statement. Beside the samples it says what a cycle leaves of the
pool and the counts, that it does not matter where the sources sit, and that the mute flag changes
what is heard and nothing else. The sources are any that take a pair of blocks and deliver it or
that deliver nothing and leave the pool as full as it was (`Turn.Fair`). That they also do the same
in any order asks more of them (`Turn.Steady`, `Turn.Apart`): a source that watches the others, or
the samples that are left in the blocks, could do anything else.
-/

set_option autoImplicit false

namespace Chiptune

/-- One of the two sides. -/
inductive Side where
  | left
  | right
deriving DecidableEq, Repr

namespace Side

/-- The samples of the side. -/
def block (side : Side) (b : StereoBlock) : Block :=
  match side with
  | left => b.left
  | right => b.right

/-- The sums of the side. -/
def sums {ω : Type} (side : Side) (m : Mixing ω) : Sums :=
  match side with
  | left => m.left
  | right => m.right

/-- The sum of the samples that blocks have at a position of the side. -/
def total (side : Side) (blocks : List StereoBlock) (i : Fin blockSize) : Int :=
  (blocks.map fun b => (side.block b)[i].toInt).sum

@[simp] theorem total_cons (side : Side) (b : StereoBlock) (blocks : List StereoBlock)
    (i : Fin blockSize) :
    side.total (b :: blocks) i = (side.block b)[i].toInt + side.total blocks i :=
  List.sum_cons

theorem total_of_perm (side : Side) {blocks blocks' : List StereoBlock}
    (h : blocks.Perm blocks') (i : Fin blockSize) :
    side.total blocks i = side.total blocks' i := (h.map _).sum_eq

end Side

/-! ### Sums -/

namespace Mixing

variable {σ ω : Type}

/-- The addition of a sample to a sum that is far enough from the bounds. -/
theorem toInt_add_sample (sum : Int32) (sample : Int16) {n : Int} (hn : n ≤ 2 ^ 15)
    (hlower : -(2 ^ 15 * n) ≤ sum.toInt) (hupper : sum.toInt ≤ 2 ^ 15 * n) :
    (sum + sample.toInt32).toInt = sum.toInt + sample.toInt := by
  have hsample := sample.le_toInt
  have hsample' := sample.toInt_lt
  rw [Int32.toInt_add, Int16.toInt_toInt32]
  refine Int.bmod_eq_of_le ?_ ?_
  · omega
  · omega

theorem toInt_min (a b : Int32) : (min a b).toInt = min a.toInt b.toInt := by
  by_cases h : a ≤ b
  · have hmin : min a b = a := if_pos h
    rw [hmin, Int.min_eq_left (Int32.le_iff_toInt_le.mp h)]
  · have hmin : min a b = b := if_neg h
    have hle : b.toInt ≤ a.toInt := by
      rw [Int32.le_iff_toInt_le] at h
      omega
    rw [hmin, Int.min_eq_right hle]

theorem toInt_max (a b : Int32) : (max a b).toInt = max a.toInt b.toInt := by
  by_cases h : a ≤ b
  · have hmax : max a b = b := if_pos h
    rw [hmax, Int.max_eq_right (Int32.le_iff_toInt_le.mp h)]
  · have hmax : max a b = a := if_neg h
    have hle : b.toInt ≤ a.toInt := by
      rw [Int32.le_iff_toInt_le] at h
      omega
    rw [hmax, Int.max_eq_left hle]

/-- A sum bounded to 16 bits. -/
theorem toInt_saturate (sum : Int32) :
    (saturate sum).toInt = max (-32768) (min sum.toInt 32767) := by
  have hbounded : (max (-32768) (min sum 32767)).toInt = max (-32768) (min sum.toInt 32767) := by
    rw [toInt_max, toInt_min]
    rfl
  rw [saturate, Int32.toInt_toInt16, hbounded]
  refine Int.bmod_eq_of_le ?_ ?_
  · omega
  · omega

theorem sums_hear_of_none (side : Side) (m : Mixing ω) {turn : Turn σ ω}
    (h : turn.delivered = none) : side.sums (m.hear turn) = side.sums m := by
  rw [hear, h]
  cases side with
  | left => rfl
  | right => rfl

theorem sums_hear_of_some (side : Side) (m : Mixing ω) {turn : Turn σ ω} {b : StereoBlock}
    (h : turn.delivered = some b) :
    side.sums (m.hear turn) = addSide (side.sums m) (side.block b) := by
  rw [hear, h]
  cases side with
  | left => rfl
  | right => rfl

/-- The sums are those of the integers. After `k` turns they are at most `k` samples large, so
`n` more can be added as long as `k + n` is small enough. -/
theorem toInt_sums_foldl_hear (side : Side) (i : Fin blockSize) (turns : List (Turn σ ω))
    (m : Mixing ω) (k : Nat) (hk : k + turns.length ≤ 2 ^ 15)
    (hlower : -(2 ^ 15 * (k : Int)) ≤ (side.sums m)[i].toInt)
    (hupper : (side.sums m)[i].toInt ≤ 2 ^ 15 * (k : Int)) :
    (side.sums (turns.foldl hear m))[i].toInt
      = (side.sums m)[i].toInt + side.total (Turn.blocks turns) i := by
  induction turns generalizing m k with
  | nil => exact (Int.add_zero _).symm
  | cons turn rest ih =>
    rw [List.length_cons] at hk
    rw [List.foldl_cons]
    cases hdelivered : turn.delivered with
    | none =>
      have hsums := sums_hear_of_none side m hdelivered
      have hblocks : Turn.blocks (turn :: rest) = Turn.blocks rest :=
        List.filterMap_cons_none hdelivered
      rw [ih (m.hear turn) (k + 1) (by omega) (by rw [hsums]; omega) (by rw [hsums]; omega),
        hsums, hblocks]
    | some b =>
      have hblocks : Turn.blocks (turn :: rest) = b :: Turn.blocks rest :=
        List.filterMap_cons_some hdelivered
      have hsum : (side.sums (m.hear turn))[i].toInt
          = (side.sums m)[i].toInt + (side.block b)[i].toInt := by
        rw [sums_hear_of_some side m hdelivered, addSide]
        rw [Fin.getElem_fin, Vector.getElem_zipWith]
        exact toInt_add_sample _ _ (n := k) (by omega) hlower hupper
      -- One sample more, and one sample further from zero at most.
      have hsample := (side.block b)[i].le_toInt
      have hsample' := (side.block b)[i].toInt_lt
      rw [ih (m.hear turn) (k + 1) (by omega) (by rw [hsum]; push_cast; omega)
        (by rw [hsum]; push_cast; omega), hsum, hblocks, Side.total_cons, Int.add_assoc]

end Mixing

namespace Graph

variable {σ ω : Type} (play : Playing σ ω)

/-- What the first slots gather, from silence on. -/
theorem toInt_sums_playSlots (slots : Slots σ) (world : ω) (pool : Pool)
    (hslots : slots.length ≤ maxConnections) (side : Side) (i : Fin blockSize) :
    (side.sums (playSlots play slots { pool := pool, world := world }).2)[i].toInt
      = side.total (Turn.blocks (Turn.all play (Slots.connections slots) world pool)) i := by
  have hconnections : (Slots.connections slots).length ≤ maxConnections :=
    Nat.le_trans (List.length_filterMap_le ..) hslots
  have hzero : (side.sums { pool := pool, world := world : Mixing ω })[i].toInt = 0 := by
    cases side with
    | left => exact congrArg Int32.toInt (Vector.getElem_replicate i.isLt)
    | right => exact congrArg Int32.toInt (Vector.getElem_replicate i.isLt)
  obtain ⟨hmixing, -⟩ := playSlots_eq play slots { pool := pool, world := world }
  rw [hmixing, Mixing.toInt_sums_foldl_hear side i _ _ 0 _ _ _, hzero, Int.zero_add]
  · rw [Turn.length_all, Nat.zero_add]
    exact Nat.le_trans hconnections (by decide)
  · rw [hzero]
    decide
  · rw [hzero]
    decide

section
variable (g : Graph σ) (world : ω)

/-- A sample of the block is the sum of the samples that were delivered, bounded, or zero. -/
theorem toInt_nextBlock (hslots : g.slots.length = maxConnections) (side : Side)
    (i : Fin blockSize) :
    (side.block (g.nextBlock play world).1)[i].toInt
      = if g.muted then 0
        else max (-32768) (min (side.total (Turn.blocks (g.turns play world)) i) 32767) := by
  have hlength : g.applyCommands.slots.length ≤ maxConnections :=
    Nat.le_of_eq (g.length_slots_applyCommands.trans hslots)
  have hsums := toInt_sums_playSlots play g.applyCommands.slots world g.pool hlength side i
  obtain ⟨hmixing, -⟩ := playSlots_eq play g.applyCommands.slots { pool := g.pool, world := world }
  obtain ⟨hblock, -⟩ := g.nextBlock_eq play world
  rw [hblock]
  cases g.muted with
  | true =>
    cases side with
    | left => exact congrArg Int16.toInt (Vector.getElem_replicate i.isLt)
    | right => exact congrArg Int16.toInt (Vector.getElem_replicate i.isLt)
  | false =>
    -- The sums are those after the turns of the whole cycle.
    have hgathered : (side.block (g.gathered play world).output)[i]
        = Mixing.saturate (side.sums (g.gathered play world))[i] := by
      cases side with
      | left => exact Vector.getElem_map _ i.isLt
      | right => exact Vector.getElem_map _ i.isLt
    rw [hmixing] at hsums
    show (side.block (g.gathered play world).output)[i].toInt = max (-32768) (min _ 32767)
    rw [hgathered, Mixing.toInt_saturate]
    exact congrArg (fun sum => max (-32768) (min sum 32767)) hsums

end

/-- Blocks with the same samples are the same. -/
theorem block_ext {b b' : StereoBlock}
    (h : ∀ (side : Side) (i : Fin blockSize),
      (side.block b)[i].toInt = (side.block b')[i].toInt) : b = b' := by
  have hside (side : Side) : side.block b = side.block b' :=
    Vector.ext fun i hi => Int16.toInt_inj.mp (h side ⟨i, hi⟩)
  have hleft : b.left = b'.left := hside .left
  have hright : b.right = b'.right := hside .right
  cases b
  cases b'
  cases hleft
  cases hright
  rfl

/-- Which source delivered which block does not matter, nor in which order they did. -/
theorem nextBlock_of_blocks_perm {g g' : Graph σ} {world world' : ω}
    (hslots : g.slots.length = maxConnections) (hslots' : g'.slots.length = maxConnections)
    (hmuted : g'.muted = g.muted)
    (hperm : (Turn.blocks (g'.turns play world')).Perm (Turn.blocks (g.turns play world))) :
    (g'.nextBlock play world').1 = (g.nextBlock play world).1 := by
  refine block_ext ?_
  intro side i
  rw [toInt_nextBlock play g' world' hslots', toInt_nextBlock play g world hslots, hmuted,
    side.total_of_perm hperm]

/-- With other samples in the blocks, steady sources make the same of a cycle, but for what is in
the blocks afterwards. -/
theorem nextBlock_of_alike {g : Graph σ} {world : ω} {pool : Pool}
    (hslots : g.slots.length = maxConnections)
    (hsteady : ∀ connection ∈ g.seated, Turn.Steady play connection) (hfits : g.pool.Fits)
    (halike : g.pool.Alike pool) :
    let played := g.nextBlock play world
    let played' := { g with pool := pool }.nextBlock play world
    played' = (played.1, { played.2.1 with pool := played'.2.1.pool }, played.2.2) := by
  let g' : Graph σ := { g with pool := pool }
  have haside := (unseen_restock (σ := σ) (fun _ => pool) id).toAside
  have hcommands : g'.applyCommands = { g.applyCommands with pool := pool } :=
    haside.applyCommands g
  have hseated : g'.seated = g.seated := haside.seated g
  obtain ⟨-, hconnections, hplaces, hmixer, hworld⟩ := g.nextBlock_eq play world
  obtain ⟨-, hconnections', hplaces', hmixer', hworld'⟩ := g'.nextBlock_eq play world
  have hturns : g'.turns play world = Turn.all play g.seated world pool := by
    rw [turns, hseated]
  obtain ⟨hgiven, hlast⟩ :
      (g.turns play world).map Turn.given = (g'.turns play world).map Turn.given ∧
        Turn.lastWorld world (g.turns play world) = Turn.lastWorld world (g'.turns play world) := by
    rw [hturns]
    exact Turn.outcomes_of_alike world hsteady hfits halike
  obtain ⟨hblocks, hsilent, hafter⟩ := Turn.same_of_given hgiven
  have hsame : (g'.nextBlock play world).2.1.slots = (g.nextBlock play world).2.1.slots := by
    refine slots_ext ?_ ?_
    · rw [hplaces', hplaces, hcommands]
    · rw [hconnections', hconnections, hafter]
  have hskipped : (g'.nextBlock play world).2.1.skipped = (g.nextBlock play world).2.1.skipped := by
    have hcount := congrArg MixerState.skipped hmixer
    have hcount' := congrArg MixerState.skipped hmixer'
    rw [← hsilent] at hcount'
    exact hcount'.trans hcount.symm
  have hblock : (g'.nextBlock play world).1 = (g.nextBlock play world).1 :=
    nextBlock_of_blocks_perm play hslots hslots rfl (.of_eq hblocks.symm)
  have hgraph : (g'.nextBlock play world).2.1
      = { (g.nextBlock play world).2.1 with pool := (g'.nextBlock play world).2.1.pool } := by
    -- A cycle changes the slots, the pool and the counts, and nothing else.
    calc (g'.nextBlock play world).2.1
        = { g'.applyCommands with
            slots := (g'.nextBlock play world).2.1.slots
            pool := (g'.nextBlock play world).2.1.pool
            cycles := g'.applyCommands.cycles + 1
            skipped := (g'.nextBlock play world).2.1.skipped } := rfl
      _ = { (g.nextBlock play world).2.1 with pool := (g'.nextBlock play world).2.1.pool } := by
        rw [hsame, hskipped, hcommands]
        rfl
  exact Prod.ext hblock (Prod.ext hgraph (hworld'.trans (hlast.symm.trans hworld.symm)))

section
variable {g g' : Graph σ} {world : ω}

/-- Where the empty slots are does not matter. -/
theorem nextBlock_of_seated_eq (hsame : g'.mixer = g.mixer) (hseated : g'.seated = g.seated) :
    let played := g.nextBlock play world
    let played' := g'.nextBlock play world
    played'.1 = played.1 ∧
      Slots.connections played'.2.1.slots = Slots.connections played.2.1.slots ∧
      played'.2.1.mixer = played.2.1.mixer ∧ played'.2.2 = played.2.2 := by
  obtain ⟨hblock, hconnections, -, hmixer, hworld⟩ := g.nextBlock_eq play world
  obtain ⟨hblock', hconnections', -, hmixer', hworld'⟩ := g'.nextBlock_eq play world
  have hpool : g'.pool = g.pool := congrArg MixerState.pool hsame
  have hmuted : g'.muted = g.muted := congrArg MixerState.muted hsame
  have hcycles : g'.cycles = g.cycles := congrArg MixerState.cycles hsame
  have hskipped : g'.skipped = g.skipped := congrArg MixerState.skipped hsame
  have hturns : g'.turns play world = g.turns play world := by
    unfold turns
    rw [hseated, hpool]
  have hgathered : g'.gathered play world = g.gathered play world := by
    unfold gathered
    rw [hturns, hpool]
  intro played played'
  refine ⟨?_, ?_, ?_, ?_⟩
  · rw [hblock', hblock, hmuted, hgathered]
  · rw [hconnections', hconnections, hturns]
  · rw [hmixer', hmixer, hpool, hmuted, hcycles, hskipped, hturns]
  · rw [hworld', hworld, hturns]

/-- Where steady sources are that are apart does not matter either. -/
theorem nextBlock_of_seated_perm (hslots : g.slots.length = maxConnections)
    (hslots' : g'.slots.length = maxConnections) (hmuted : g'.muted = g.muted)
    (hfits : g.pool.Fits) (halike : g.pool.Alike g'.pool) (hseated : g.seated.Perm g'.seated)
    (hsteady : ∀ connection ∈ g.seated, Turn.Steady play connection)
    (hapart : g.seated.Pairwise (Turn.Apart play)) :
    let played := g.nextBlock play world
    let played' := g'.nextBlock play world
    played'.1 = played.1 ∧
      (Slots.connections played.2.1.slots).Perm (Slots.connections played'.2.1.slots) ∧
      Turn.silent (g'.turns play world) = Turn.silent (g.turns play world) ∧
      played'.2.2 = played.2.2 := by
  obtain ⟨-, hconnections, -, -, hworld⟩ := g.nextBlock_eq play world
  obtain ⟨-, hconnections', -, -, hworld'⟩ := g'.nextBlock_eq play world
  obtain ⟨hgiven, hlast⟩ := Turn.outcomes_of_perm world hseated hsteady hapart hfits halike
  have hblocks : (Turn.blocks (g'.turns play world)).Perm (Turn.blocks (g.turns play world)) := by
    rw [Turn.blocks_eq, Turn.blocks_eq]
    exact (hgiven.filterMap Prod.fst).symm
  have hsilent : Turn.silent (g'.turns play world) = Turn.silent (g.turns play world) := by
    rw [Turn.silent_eq, Turn.silent_eq]
    exact (hgiven.countP_eq _).symm
  intro played played'
  refine ⟨nextBlock_of_blocks_perm play hslots hslots' hmuted hblocks, ?_, hsilent, ?_⟩
  · rw [hconnections, hconnections', Turn.map_after_eq, Turn.map_after_eq]
    exact hgiven.map Prod.snd
  · rw [hworld', hworld]
    exact hlast.symm

end

/-- So may the sources of a player, if none keeps its blocks and no two play the same engine or
relay. -/
theorem nextBlock_of_sources_perm {g g' : Graph Source} {studio : Studio}
    (hslots : g.slots.length = maxConnections) (hslots' : g'.slots.length = maxConnections)
    (hmuted : g'.muted = g.muted) (hfits : g.pool.Fits) (halike : g.pool.Alike g'.pool)
    (hseated : g.seated.Perm g'.seated)
    (hkeeps : ∀ connection ∈ g.seated, connection.source ≠ .hoarder)
    (hplaces : g.seated.Pairwise fun one other =>
      one.source ≠ other.source ∨ one.source.isSignal = true) :
    (g'.nextBlock Source.play studio).1 = (g.nextBlock Source.play studio).1 ∧
      (g'.nextBlock Source.play studio).2.2 = (g.nextBlock Source.play studio).2.2 := by
  have hsteady : ∀ connection ∈ g.seated, Turn.Steady Source.play connection :=
    fun connection hmem => Source.steady connection.id (hkeeps connection hmem)
  have hapart : g.seated.Pairwise (Turn.Apart Source.play) :=
    hplaces.imp fun h => Source.apart _ _ h
  obtain ⟨hblock, -, -, hworld⟩ :=
    nextBlock_of_seated_perm Source.play hslots hslots' hmuted hfits halike hseated hsteady hapart
  exact ⟨hblock, hworld⟩

/-- The block of a cycle is the saturated sum of the blocks of the sources and depends on nothing
else. The sources take a pair of blocks and deliver it, or deliver nothing and leave the pool as
full as it was. -/
theorem saturated_sum (g : Graph σ) (world : ω) (hslots : g.slots.length = maxConnections)
    (hfits : g.pool.Fits) (hfair : ∀ turn ∈ g.turns play world, turn.Fair) :
    let turns := g.turns play world
    let played := g.nextBlock play world
    -- Every sample is the sum of the samples, bounded to 16 bits, or zero if it is not heard.
    (∀ (side : Side) (i : Fin blockSize),
      (side.block played.1)[i].toInt
        = if g.muted then 0
          else max (-32768) (min (side.total (Turn.blocks turns) i) 32767)) ∧
    -- The words of 32 bits hold the sums of the integers, after any number of slots.
    (∀ (n : Nat) (side : Side) (i : Fin blockSize),
      let slots := g.applyCommands.slots.take n
      (side.sums (playSlots play slots { pool := g.pool, world := world }).2)[i].toInt
        = side.total (Turn.blocks (turns.take (Slots.connections slots).length)) i) ∧
    -- The pool is as full as before, and the counts say what happened.
    played.2.1.pool.Alike g.pool ∧
    played.2.1.skipped = g.skipped + Turn.silent turns ∧
    played.2.1.cycles = g.cycles + 1 ∧
    -- Empty slots may be anywhere.
    (∀ g' : Graph σ, g'.mixer = g.mixer → g'.seated = g.seated →
      let played' := g'.nextBlock play world
      played'.1 = played.1 ∧
        Slots.connections played'.2.1.slots = Slots.connections played.2.1.slots ∧
        played'.2.1.mixer = played.2.1.mixer ∧ played'.2.2 = played.2.2) ∧
    -- Of what the sources deliver, the order does not matter.
    (∀ (g' : Graph σ) (world' : ω), g'.slots.length = maxConnections → g'.muted = g.muted →
      (Turn.blocks (g'.turns play world')).Perm (Turn.blocks turns) →
      (g'.nextBlock play world').1 = played.1) ∧
    -- Sources that keep apart may sit anywhere.
    (∀ g' : Graph σ, g'.slots.length = maxConnections → g'.muted = g.muted →
      g.pool.Alike g'.pool → g.seated.Perm g'.seated →
      (∀ connection ∈ g.seated, Turn.Steady play connection) →
      g.seated.Pairwise (Turn.Apart play) →
      let played' := g'.nextBlock play world
      played'.1 = played.1 ∧
        (Slots.connections played.2.1.slots).Perm (Slots.connections played'.2.1.slots) ∧
        Turn.silent (g'.turns play world) = Turn.silent turns ∧ played'.2.2 = played.2.2) ∧
    -- The mute flag decides what is heard of a cycle,
    (∀ muted : Bool,
      (g.withMuted muted).nextBlock play world
        = (if muted then .silence else ((g.withMuted false).nextBlock play world).1,
          played.2.1.withMuted muted, played.2.2)) ∧
    -- and of a whole run, with the host changing the graph between the cycles.
    (∀ (h : GraphHistory σ) (steps : List (GraphStep σ ω)),
      (h.run play steps).unmute = h.unmute.run play (steps.flatMap GraphStep.aloud) ∧
        List.Forall₂ GraphHistory.HeardOf (h.blocks play steps)
          (h.unmute.blocks play (steps.flatMap GraphStep.aloud))) := by
  intro turns played
  obtain ⟨-, -, -, hmixer, -⟩ := g.nextBlock_eq play world
  refine ⟨toInt_nextBlock play g world hslots, ?_, ?_, congrArg MixerState.skipped hmixer,
    congrArg MixerState.cycles hmixer, ?_, ?_, ?_, nextBlock_withMuted play g world,
    fun h steps => ⟨h.unmute_run play steps, h.blocks_aloud play steps⟩⟩
  · -- The turns of the first slots are the first turns.
    intro n side i slots
    have hlength : slots.length ≤ maxConnections := by
      rw [List.length_take, g.length_slots_applyCommands, hslots]
      exact Nat.min_le_right _ _
    have hfirst : Slots.connections slots = g.seated.take (Slots.connections slots).length :=
      List.prefix_iff_eq_take.mp ((List.take_prefix n g.applyCommands.slots).filterMap id)
    have hturns : Turn.all play (Slots.connections slots) world g.pool
        = turns.take (Slots.connections slots).length := by
      rw [hfirst, Turn.all_take, ← hfirst]
      rfl
    rw [toInt_sums_playSlots play slots world g.pool hlength, hturns]
  · have hpool : played.2.1.pool = Turn.lastPool g.pool turns := congrArg MixerState.pool hmixer
    rw [hpool]
    exact Turn.alike_all hfits hfair
  · intro g' hsame hseated
    exact nextBlock_of_seated_eq play hsame hseated
  · intro g' world' hslots' hmuted hperm
    exact nextBlock_of_blocks_perm play hslots hslots' hmuted hperm
  · intro g' hslots' hmuted halike hperm hsteady hapart
    exact nextBlock_of_seated_perm play hslots hslots' hmuted hfits halike hperm hsteady hapart

/-- Two constants add up to more than a sample can be. Between them is a source that delivers
nothing, which takes its slot at the beginning of the cycle. -/
theorem two_constants_saturate :
    let g : Graph Source :=
      { pool := .create 2
        commands := { capacity := commandRingCapacity, queue := .ofList [.connect ⟨3, .idle⟩] }
        slots := [some ⟨1, .constant 30000⟩, none, some ⟨2, .constant 20000⟩, none, none, none,
          none, none] }
    g.slots.length = maxConnections ∧ g.pool.Fits ∧
      (∀ turn ∈ g.turns Source.play {}, turn.Fair) ∧
      (∀ i : Fin blockSize, (Side.left.block (g.nextBlock Source.play {}).1)[i].toInt = 32767) ∧
      (∀ i : Fin blockSize, (Side.right.block (g.nextBlock Source.play {}).1)[i].toInt = -32768) ∧
      (g.nextBlock Source.play {}).2.1.pool.available = 2 ∧
      (g.nextBlock Source.play {}).2.1.skipped = 1 := by
  intro g
  have hseated : g.seated = [⟨1, .constant 30000⟩, ⟨3, .idle⟩, ⟨2, .constant 20000⟩] := rfl
  have hsteady : ∀ connection ∈ g.seated, Turn.Steady Source.play connection := by
    intro connection hmem
    rw [hseated] at hmem
    rcases List.mem_cons.mp hmem with rfl | hmem
    · exact Source.steady 1 (by decide)
    rcases List.mem_cons.mp hmem with rfl | hmem
    · exact Source.steady 3 (by decide)
    · exact List.mem_singleton.mp hmem ▸ Source.steady 2 (by decide)
  have hfits : g.pool.Fits := Pool.fits_create 2
  have hfair : ∀ turn ∈ g.turns Source.play {}, turn.Fair := Turn.fair_of_steady hsteady hfits
  obtain ⟨hsamples, -, hpool, hskipped, -⟩ := saturated_sum Source.play g {} rfl hfits hfair
  have hdelivered : (g.turns Source.play {}).map (·.delivered)
      = [some ⟨.filled 30000, .filled (-30000)⟩, none,
        some ⟨.filled 20000, .filled (-20000)⟩] := rfl
  have hblocks : Turn.blocks (g.turns Source.play {})
      = [⟨.filled 30000, .filled (-30000)⟩, ⟨.filled 20000, .filled (-20000)⟩] := by
    have hfilter := congrArg (List.filterMap id) hdelivered
    rw [List.filterMap_map] at hfilter
    exact hfilter
  have hsilent : Turn.silent (g.turns Source.play {}) = 1 := by
    have hcount := congrArg (List.countP Option.isNone) hdelivered
    rw [List.countP_map] at hcount
    exact hcount
  have hfilled (sample : Int16) (i : Fin blockSize) : (Block.filled sample)[i] = sample :=
    Vector.getElem_replicate i.isLt
  have hsize : g.pool.available = 2 := Array.size_replicate
  refine ⟨rfl, hfits, hfair, ?_, ?_, hpool.available.trans hsize, ?_⟩
  · intro i
    rw [hsamples .left i, hblocks]
    simp only [Side.total_cons, Side.block, hfilled]
    rfl
  · intro i
    rw [hsamples .right i, hblocks]
    simp only [Side.total_cons, Side.block, hfilled]
    rfl
  · rw [hskipped, hsilent]

end Graph

end Chiptune
