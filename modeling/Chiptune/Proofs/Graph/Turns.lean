import Chiptune.Proofs.Graph.Commands
import Chiptune.Proofs.Pool

/-!
# `Chiptune.Proofs.Graph.Turns`: a cycle of the graph, source by source

In a cycle every connected source has its turn: it finds the pool as the turns before it have left
it, delivers a block or none, and a block that it delivers goes back to the pool. `Turn.all` lists
the turns of the connections in slot order, and `Graph.turns` those of a whole cycle. Empty slots
have no turn, so where the holes are does not matter (`Graph.playSlots_eq`).

A turn is `Fair` if the source takes a pair of blocks and delivers it, or delivers nothing and
leaves the pool as full as it was. After fair turns the pool is `Alike` the one before
(`Turn.alike_all`).

A source is `Steady` if its turns are fair and what it does depends on nothing in the pool but how
many blocks there are. Steady sources do the same with other samples in the blocks
(`Turn.outcomes_of_alike`). If they do not meddle with each other either (`Apart`), they do the same
in any order (`Turn.outcomes_of_perm`).
-/

set_option autoImplicit false

namespace Chiptune

/-- What a source does in a cycle. -/
structure Turn (σ ω : Type) where
  /-- The pool that the source finds. -/
  found : Pool
  delivered : Option StereoBlock
  /-- The connection with the source as it is afterwards. -/
  after : Connection σ
  world : ω
  /-- The pool that the source leaves. -/
  left : Pool

namespace Turn

variable {σ ω : Type}

/-- The turn of a connection. -/
def of (play : Playing σ ω) (connection : Connection σ) (world : ω) (pool : Pool) : Turn σ ω :=
  let (delivered, source, world, left) := play connection.source world pool
  { found := pool
    delivered := delivered
    after := { connection with source := source }
    world := world
    left := left }

/-- The pool with what was delivered given back. -/
def back (turn : Turn σ ω) : Pool :=
  match turn.delivered with
  | some block => turn.left.releaseStereo block
  | none => turn.left

/-- The turns of connections, one after the other. -/
def all (play : Playing σ ω) : List (Connection σ) → ω → Pool → List (Turn σ ω)
  | [], _, _ => []
  | connection :: rest, world, pool =>
    let turn := of play connection world pool
    turn :: all play rest turn.world turn.back

/-- The surroundings after some turns. -/
def lastWorld (world : ω) (turns : List (Turn σ ω)) : ω :=
  turns.foldl (fun _ turn => turn.world) world

/-- The pool after some turns. -/
def lastPool (pool : Pool) (turns : List (Turn σ ω)) : Pool :=
  turns.foldl (fun _ turn => turn.back) pool

/-- What the turns deliver, first one first. -/
def blocks (turns : List (Turn σ ω)) : List StereoBlock := turns.filterMap (·.delivered)

/-- Turns that deliver nothing. -/
def silent (turns : List (Turn σ ω)) : Nat := turns.countP (·.delivered.isNone)

/-- The source delivers a pair of blocks that it took out of the pool, or it delivers nothing and
the pool is as it was. -/
structure Fair (turn : Turn σ ω) : Prop where
  capacity : turn.left.capacity = turn.found.capacity
  available :
    match turn.delivered with
    | some _ => turn.left.available + 2 = turn.found.available
    | none => turn.left.available = turn.found.available

section
variable {play : Playing σ ω} {connection : Connection σ} {connections : List (Connection σ)}
  {world : ω} {pool : Pool} {turn : Turn σ ω}

theorem all_cons :
    all play (connection :: connections) world pool
      = of play connection world pool
        :: all play connections (of play connection world pool).world
            (of play connection world pool).back := rfl

theorem lastWorld_cons (turn : Turn σ ω) (turns : List (Turn σ ω)) :
    lastWorld world (turn :: turns) = lastWorld turn.world turns := rfl

@[simp] theorem length_all : (all play connections world pool).length = connections.length := by
  induction connections generalizing world pool with
  | nil => rfl
  | cons connection rest ih =>
    rw [all_cons, List.length_cons, ih]
    rfl

/-- The turns of the first connections are the first turns. -/
theorem all_take (n : Nat) :
    all play (connections.take n) world pool = (all play connections world pool).take n := by
  induction connections generalizing world pool n with
  | nil => simp [all]
  | cons connection rest ih =>
    cases n with
    | zero => rfl
    | succ n => rw [List.take_succ_cons, all_cons, all_cons, List.take_succ_cons, ih]

/-! ### Fair turns -/

/-- After a fair turn, and with its block given back, the pool is as full as before. -/
theorem Fair.alike_back (hfair : turn.Fair) (hfits : turn.found.Fits) :
    turn.back.Alike turn.found := by
  have havailable := hfair.available
  unfold back
  cases hdelivered : turn.delivered with
  | none =>
    rw [hdelivered] at havailable
    exact ⟨havailable, hfair.capacity⟩
  | some block =>
    rw [hdelivered] at havailable
    exact Pool.alike_releaseStereo havailable hfair.capacity hfits block

/-- So it is after any number of them. -/
theorem alike_all (hfits : pool.Fits)
    (hfair : ∀ turn ∈ all play connections world pool, turn.Fair) :
    (lastPool pool (all play connections world pool)).Alike pool := by
  induction connections generalizing world pool with
  | nil => exact Pool.Alike.refl pool
  | cons connection rest ih =>
    rw [all_cons] at hfair ⊢
    obtain ⟨hfirst, hrest⟩ := List.forall_mem_cons.mp hfair
    have hback : (of play connection world pool).back.Alike pool := hfirst.alike_back hfits
    exact (ih (hback.fits hfits) hrest).trans hback

end

/-! ### Steady sources -/

/-- What a source gives, and what it becomes. -/
def given (turn : Turn σ ω) : Option StereoBlock × Connection σ := (turn.delivered, turn.after)

section
variable (turns : List (Turn σ ω))

theorem blocks_eq : blocks turns = (turns.map given).filterMap Prod.fst := by
  rw [List.filterMap_map]
  rfl

theorem silent_eq : silent turns = (turns.map given).countP (·.1.isNone) := by
  rw [List.countP_map]
  rfl

theorem map_after_eq : turns.map (·.after) = (turns.map given).map Prod.snd := by
  rw [List.map_map]
  rfl

/-- Turns that give the same deliver the same blocks, are silent as often and leave the same
sources. -/
theorem same_of_given {turns turns' : List (Turn σ ω)} (h : turns.map given = turns'.map given) :
    blocks turns = blocks turns' ∧ silent turns = silent turns' ∧
      turns.map (·.after) = turns'.map (·.after) := by
  rw [blocks_eq, silent_eq, map_after_eq, h]
  exact ⟨(blocks_eq _).symm, (silent_eq _).symm, (map_after_eq _).symm⟩

end

/-- The turns of the source are fair, and nothing in the pool but the number of its blocks makes a
difference to them. -/
structure Steady (play : Playing σ ω) (connection : Connection σ) : Prop where
  fair : ∀ world (pool : Pool), pool.Fits → (of play connection world pool).Fair
  given : ∀ world {pool pool' : Pool}, pool.Fits → pool.Alike pool' →
    (of play connection world pool).given = (of play connection world pool').given
  world : ∀ world {pool pool' : Pool}, pool.Fits → pool.Alike pool' →
    (of play connection world pool).world = (of play connection world pool').world

/-- Whether one of the sources has had its turn makes no difference to the other. -/
structure Apart (play : Playing σ ω) (one other : Connection σ) : Prop where
  given_other : ∀ world pool,
    (of play other (of play one world pool).world pool).given = (of play other world pool).given
  given_one : ∀ world pool,
    (of play one (of play other world pool).world pool).given = (of play one world pool).given
  world : ∀ world pool,
    (of play other (of play one world pool).world pool).world
      = (of play one (of play other world pool).world pool).world

section
variable {play : Playing σ ω} {connection one other : Connection σ}
  {connections : List (Connection σ)} {world : ω} {pool pool' : Pool}

theorem Apart.symm (h : Apart play one other) : Apart play other one :=
  ⟨h.given_one, h.given_other, fun world pool => (h.world world pool).symm⟩

theorem Steady.alike_back (h : Steady play connection) (world : ω) (hfits : pool.Fits) :
    (of play connection world pool).back.Alike pool :=
  (h.fair world pool hfits).alike_back hfits

/-- The turns of steady sources are fair. -/
theorem fair_of_steady (hsteady : ∀ connection ∈ connections, Steady play connection)
    (hfits : pool.Fits) : ∀ turn ∈ all play connections world pool, turn.Fair := by
  induction connections generalizing world pool with
  | nil =>
    intro turn hmem
    nomatch hmem
  | cons connection rest ih =>
    obtain ⟨hfirst, hrest⟩ := List.forall_mem_cons.mp hsteady
    rw [all_cons]
    refine List.forall_mem_cons.mpr ⟨hfirst.fair world pool hfits, ?_⟩
    exact ih hrest ((hfirst.alike_back world hfits).fits hfits)

/-- Steady sources do the same whatever is in the blocks. -/
theorem outcomes_of_alike (world : ω)
    (hsteady : ∀ connection ∈ connections, Steady play connection) (hfits : pool.Fits)
    (halike : pool.Alike pool') :
    (all play connections world pool).map given = (all play connections world pool').map given ∧
      lastWorld world (all play connections world pool)
        = lastWorld world (all play connections world pool') := by
  induction connections generalizing world pool pool' with
  | nil => exact ⟨rfl, rfl⟩
  | cons connection rest ih =>
    obtain ⟨hfirst, hrest⟩ := List.forall_mem_cons.mp hsteady
    have hworld := hfirst.world world hfits halike
    -- Each pool is as full after the turn as before, so the two stay alike.
    have hback := hfirst.alike_back world hfits
    have hback' := hfirst.alike_back world (halike.symm.fits hfits)
    obtain ⟨hgiven, hlast⟩ := ih (of play connection world pool).world hrest
      (hback.fits hfits) (hback.trans (halike.trans hback'.symm))
    simp only [all_cons, List.map_cons, lastWorld_cons]
    rw [← hworld, ← hfirst.given world hfits halike]
    exact ⟨congrArg (_ :: ·) hgiven, hlast⟩

/-- Two steady sources that are apart do the same whichever is first, and leave pools like the one
that they found. -/
theorem outcomes_of_swap (hone : Steady play one) (hother : Steady play other)
    (hapart : Apart play one other) (world : ω) (hfits : pool.Fits) (halike : pool.Alike pool') :
    let first := of play one world pool
    let second := of play other first.world first.back
    let first' := of play other world pool'
    let second' := of play one first'.world first'.back
    second.given = first'.given ∧ second'.given = first.given ∧ second.world = second'.world ∧
      second.back.Alike pool ∧ second'.back.Alike pool := by
  intro first second first' second'
  have hfits' : pool'.Fits := halike.symm.fits hfits
  -- All four turns find pools like the first one.
  have hback : first.back.Alike pool := hone.alike_back world hfits
  have hback' : first'.back.Alike pool := (hother.alike_back world hfits').trans halike.symm
  have hworld' : first'.world = (of play other world pool).world :=
    hother.world world hfits' halike.symm
  refine ⟨?_, ?_, ?_, ?_, ?_⟩
  · rw [hother.given _ (hback.fits hfits) hback, hapart.given_other, hother.given _ hfits halike]
  · rw [hone.given _ (hback'.fits hfits) hback', hworld', hapart.given_one]
  · rw [hother.world _ (hback.fits hfits) hback, hapart.world,
      hone.world _ (hback'.fits hfits) hback', hworld']
  · exact (hother.alike_back _ (hback.fits hfits)).trans hback
  · exact (hone.alike_back _ (hback'.fits hfits)).trans hback'

/-- Steady sources that are apart do the same in any order. -/
theorem outcomes_of_perm {connections' : List (Connection σ)} (world : ω)
    (hperm : connections.Perm connections')
    (hsteady : ∀ connection ∈ connections, Steady play connection)
    (hapart : connections.Pairwise (Apart play)) (hfits : pool.Fits)
    (halike : pool.Alike pool') :
    ((all play connections world pool).map given).Perm
        ((all play connections' world pool').map given) ∧
      lastWorld world (all play connections world pool)
        = lastWorld world (all play connections' world pool') := by
  induction hperm generalizing world pool pool' with
  | nil => exact ⟨List.Perm.nil, rfl⟩
  | @cons connection rest rest' hperm ih =>
    obtain ⟨hfirst, hrest⟩ := List.forall_mem_cons.mp hsteady
    have hworld := hfirst.world world hfits halike
    have hback := hfirst.alike_back world hfits
    have hback' := hfirst.alike_back world (halike.symm.fits hfits)
    obtain ⟨hgiven, hlast⟩ := ih (of play connection world pool).world hrest
      (List.pairwise_cons.mp hapart).2 (hback.fits hfits)
      (hback.trans (halike.trans hback'.symm))
    simp only [all_cons, List.map_cons, lastWorld_cons]
    rw [← hworld, ← hfirst.given world hfits halike]
    exact ⟨hgiven.cons _, hlast⟩
  | swap one other rest =>
    obtain ⟨hother, hmore⟩ := List.forall_mem_cons.mp hsteady
    obtain ⟨hone, hrest⟩ := List.forall_mem_cons.mp hmore
    have hpair : Apart play other one := (List.pairwise_cons.mp hapart).1 one List.mem_cons_self
    obtain ⟨hgivenOne, hgivenOther, hworld, hfound, hfound'⟩ :=
      outcomes_of_swap hother hone hpair world hfits halike
    obtain ⟨hgiven, hlast⟩ := outcomes_of_alike _ hrest (hfound.fits hfits)
      (hfound.trans hfound'.symm)
    simp only [all_cons, List.map_cons, lastWorld_cons]
    rw [hgivenOne, hgivenOther, ← hworld, hgiven]
    exact ⟨List.Perm.swap _ _ _, hlast⟩
  | trans hfirst hsecond ihfirst ihsecond =>
    obtain ⟨hgiven, hworld⟩ := ihfirst world hsteady hapart hfits (.refl pool)
    obtain ⟨hgiven', hworld'⟩ := ihsecond world
      (fun connection hmem => hsteady connection (hfirst.mem_iff.mpr hmem))
      ((hfirst.pairwise_iff Apart.symm).mp hapart) hfits halike
    exact ⟨hgiven.trans hgiven', hworld.trans hworld'⟩

end

end Turn

/-! ### The turns of a cycle -/

namespace Mixing

variable {σ ω : Type}

/-- Takes in a turn. -/
def hear (m : Mixing ω) (turn : Turn σ ω) : Mixing ω :=
  { m with world := turn.world, pool := turn.left }.collect turn.delivered

section
variable (m : Mixing ω) (turn : Turn σ ω) (turns : List (Turn σ ω))

theorem pool_hear : (m.hear turn).pool = turn.back := by
  unfold hear Turn.back
  cases turn.delivered with
  | some block => rfl
  | none => rfl

theorem world_hear : (m.hear turn).world = turn.world := by
  unfold hear
  cases turn.delivered with
  | some block => rfl
  | none => rfl

theorem skipped_hear :
    (m.hear turn).skipped = m.skipped + if turn.delivered.isNone then 1 else 0 := by
  unfold hear
  cases turn.delivered with
  | some block => rfl
  | none => rfl

theorem pool_foldl_hear : (turns.foldl hear m).pool = Turn.lastPool m.pool turns := by
  induction turns generalizing m with
  | nil => rfl
  | cons turn rest ih =>
    rw [List.foldl_cons, ih, pool_hear]
    rfl

theorem world_foldl_hear : (turns.foldl hear m).world = Turn.lastWorld m.world turns := by
  induction turns generalizing m with
  | nil => rfl
  | cons turn rest ih =>
    rw [List.foldl_cons, ih, world_hear]
    rfl

theorem skipped_foldl_hear : (turns.foldl hear m).skipped = m.skipped + Turn.silent turns := by
  induction turns generalizing m with
  | nil => rfl
  | cons turn rest ih =>
    rw [List.foldl_cons, ih, skipped_hear, Turn.silent, Turn.silent, List.countP_cons]
    omega

end

end Mixing

namespace Graph

variable {σ ω : Type} (play : Playing σ ω)

/-- The connections in slots once the queued commands are carried out, in slot order. -/
def seated (g : Graph σ) : List (Connection σ) := Slots.connections g.applyCommands.slots

theorem Aside.seated {f : Graph σ → Graph σ} (hf : Aside f) (g : Graph σ) :
    (f g).seated = g.seated := by
  rw [Graph.seated, hf.applyCommands, hf.slots, Graph.seated]

/-- The turns of the next cycle. -/
def turns (g : Graph σ) (world : ω) : List (Turn σ ω) :=
  Turn.all play g.seated world g.pool

/-- Playing the slots gives every connection its turn and keeps it where it is. -/
theorem playSlots_eq (slots : Slots σ) (m : Mixing ω) :
    let turns := Turn.all play (Slots.connections slots) m.world m.pool
    (playSlots play slots m).2 = turns.foldl Mixing.hear m ∧
      Slots.connections (playSlots play slots m).1 = turns.map (·.after) ∧
      (playSlots play slots m).1.map Option.isSome = slots.map Option.isSome := by
  induction slots generalizing m with
  | nil => exact ⟨rfl, rfl, rfl⟩
  | cons slot rest ih =>
    cases slot with
    | none =>
      obtain ⟨hmixing, hconnections, hslots⟩ := ih m
      exact ⟨hmixing, hconnections, congrArg (false :: ·) hslots⟩
    | some connection =>
      -- The turns of the others start from where this one ends.
      have hrest := ih (m.hear (.of play connection m.world m.pool))
      rw [Mixing.world_hear, Mixing.pool_hear] at hrest
      obtain ⟨hmixing, hconnections, hslots⟩ := hrest
      exact ⟨hmixing, congrArg (_ :: ·) hconnections, congrArg (true :: ·) hslots⟩

/-- Slots that have the same connections and are empty at the same places are the same. -/
theorem slots_ext {slots slots' : Slots σ}
    (hplaces : slots.map Option.isSome = slots'.map Option.isSome)
    (hconnections : Slots.connections slots = Slots.connections slots') : slots = slots' := by
  induction slots generalizing slots' with
  | nil =>
    cases slots' with
    | nil => rfl
    | cons slot' rest' => nomatch hplaces
  | cons slot rest ih =>
    cases slots' with
    | nil => nomatch hplaces
    | cons slot' rest' =>
      obtain ⟨hslot, hrest⟩ := List.cons.inj hplaces
      cases slot with
      | none =>
        cases slot' with
        | none => exact congrArg (none :: ·) (ih hrest hconnections)
        | some connection' => nomatch hslot
      | some connection =>
        cases slot' with
        | none => nomatch hslot
        | some connection' =>
          obtain ⟨rfl, hmore⟩ := List.cons.inj hconnections
          exact congrArg (some connection :: ·) (ih hrest hmore)

section
variable (g : Graph σ) (world : ω)

/-- What a cycle has gathered when every source has had its turn. -/
def gathered : Mixing ω :=
  (g.turns play world).foldl Mixing.hear { pool := g.pool, world := world }

/-- A cycle in terms of its turns. -/
theorem nextBlock_eq :
    let played := g.nextBlock play world
    played.1 = (if g.muted then .silence else (g.gathered play world).output) ∧
      Slots.connections played.2.1.slots = (g.turns play world).map (·.after) ∧
      played.2.1.slots.map Option.isSome = g.applyCommands.slots.map Option.isSome ∧
      played.2.1.mixer =
        { pool := Turn.lastPool g.pool (g.turns play world)
          muted := g.muted
          cycles := g.cycles + 1
          skipped := g.skipped + Turn.silent (g.turns play world) } ∧
      played.2.2 = Turn.lastWorld world (g.turns play world) := by
  have hmixer := g.mixer_applyCommands
  have hpool : g.applyCommands.pool = g.pool := congrArg MixerState.pool hmixer
  have hmuted : g.applyCommands.muted = g.muted := congrArg MixerState.muted hmixer
  have hcycles : g.applyCommands.cycles = g.cycles := congrArg MixerState.cycles hmixer
  have hskipped : g.applyCommands.skipped = g.skipped := congrArg MixerState.skipped hmixer
  obtain ⟨hmixing, hconnections, hslots⟩ :=
    playSlots_eq play g.applyCommands.slots { pool := g.pool, world := world }
  have hcounted := Mixing.skipped_foldl_hear { pool := g.pool, world := world } (g.turns play world)
  rw [Nat.zero_add] at hcounted
  simp only [nextBlock, mixer, hpool, hmuted, hcycles, hskipped, hmixing]
  refine ⟨rfl, hconnections, hslots, ?_, Mixing.world_foldl_hear _ _⟩
  congr 1
  · exact Mixing.pool_foldl_hear _ _
  · exact congrArg (g.skipped + ·) hcounted

end

end Graph

end Chiptune
