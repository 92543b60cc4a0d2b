import Chiptune.Proofs.Graph.Refusals
import Mathlib.Data.List.Forall2

/-!
# `Chiptune.Proofs.Graph.Muting`: what the mute flag does not touch

The mute flag is read once a cycle, when the sums have been made, and decides whether they are
heard. Nothing else reads it: its change is `Graph.Unseen` (`Graph.unseen_withMuted`), and a cycle
with another flag leaves the same graph but for the flag (`Graph.nextBlock_withMuted`).

So a run can be compared with one that is never muted. `GraphStep.aloud` takes the muting out of a
step: a call of `muteAndDisconnect` becomes one of `disconnectAll`, and a call of `unmute` becomes
nothing. `GraphHistory.unmute_run` is the main result: the run without the muting goes through the
same states but for the flag, and `GraphHistory.blocks_aloud` says of its blocks that each one is
the one that is heard in the other run or that silence is heard there.
-/

set_option autoImplicit false

namespace Chiptune

namespace Graph

variable {σ ω : Type}

/-- The graph with another mute flag. -/
def withMuted (g : Graph σ) (muted : Bool) : Graph σ := { g with muted := muted }

theorem unseen_withMuted (muted : Bool) : Unseen fun g : Graph σ => g.withMuted muted where
  queue _ := rfl
  slots _ := rfl
  returned _ := rfl
  live _ := rfl
  dequeued _ _ := rfl
  placed _ _ := rfl
  giveBack _ _ := rfl
  fetched _ _ := rfl
  forget _ _ := rfl
  nextId _ := rfl
  send _ _ := rfl
  enlist _ _ := rfl
  forgetAll _ := rfl

/-- A cycle with another flag is heard or not, and leaves the same graph but for the flag. -/
theorem nextBlock_withMuted (play : Playing σ ω) (g : Graph σ) (world : ω) (muted : Bool) :
    (g.withMuted muted).nextBlock play world
      = (if muted then .silence else ((g.withMuted false).nextBlock play world).1,
        (g.nextBlock play world).2.1.withMuted muted, (g.nextBlock play world).2.2) := by
  unfold nextBlock
  rw [(unseen_withMuted muted).applyCommands, (unseen_withMuted false).applyCommands]
  rfl

end Graph

namespace GraphStep

variable {σ ω : Type}

/-- The step with what it does to the mute flag taken out. -/
def aloud : GraphStep σ ω → List (GraphStep σ ω)
  | call .muteAndDisconnect => [call .disconnectAll]
  | call .unmute => []
  | other => [other]

end GraphStep

namespace GraphHistory

variable {σ ω : Type}

/-- The history with the mute flag taken back. -/
def unmute (h : GraphHistory σ) : GraphHistory σ := h.onGraph fun g => g.withMuted false

/-- A step and what is left of it do the same to everything but the flag. -/
theorem unmute_step (play : Playing σ ω) (h : GraphHistory σ) (s : GraphStep σ ω) :
    (h.step play s).unmute = h.unmute.run play s.aloud := by
  have hunseen := Graph.unseen_withMuted (σ := σ) false
  cases s with
  | call call =>
    obtain ⟨graph, phase, connected, collected⟩ := h
    -- A call in the middle of another one is not begun, muting or not.
    cases phase with
    | idle =>
      cases call with
      | connect source => exact (begin_onGraph hunseen _ (.connect source) nofun).symm
      | disconnect id => exact (begin_onGraph hunseen _ (.disconnect id) nofun).symm
      | disconnectAll => exact (begin_onGraph hunseen _ .disconnectAll nofun).symm
      | muteAndDisconnect =>
        show (if graph.live.isEmpty then _ else _ : GraphHistory σ).unmute
          = { graph := graph.withMuted false
              phase := if graph.live.isEmpty then .collecting else .sending .all
              connected := connected
              collected := collected }
        split
        · rfl
        · rfl
      | reclaim => exact (begin_onGraph hunseen _ .reclaim nofun).symm
      | unmute => rfl
    | _ =>
      cases call with
      | _ => rfl
  | proceed => exact (proceed_onGraph hunseen h).symm
  | cycle world =>
    have hblock := Graph.nextBlock_withMuted play h.graph world false
    have hgraph : (h.graph.nextBlock play world).2.1.withMuted false
        = ((h.graph.withMuted false).nextBlock play world).2.1 :=
      (congrArg (fun played => played.2.1) hblock).symm
    exact congrArg (GraphHistory.mk · h.phase h.connected h.collected) hgraph

theorem run_append (play : Playing σ ω) (h : GraphHistory σ) (steps more : List (GraphStep σ ω)) :
    h.run play (steps ++ more) = (h.run play steps).run play more := List.foldl_append

/-- A run and the same run without the muting go through the same states but for the flag. -/
theorem unmute_run (play : Playing σ ω) (h : GraphHistory σ) (steps : List (GraphStep σ ω)) :
    (h.run play steps).unmute = h.unmute.run play (steps.flatMap GraphStep.aloud) := by
  induction steps generalizing h with
  | nil => rfl
  | cons s rest ih =>
    rw [List.flatMap_cons, run_append, ← unmute_step]
    exact ih (h.step play s)

/-- What is heard of a block, in the same surroundings, is the block or silence. -/
def HeardOf (heard played : StereoBlock × ω) : Prop :=
  heard.2 = played.2 ∧ (heard.1 = played.1 ∨ heard.1 = .silence)

/-- A cycle that may be muted against one that is not. -/
theorem heardOf_nextBlock (play : Playing σ ω) (g : Graph σ) (world : ω) :
    let heard := g.nextBlock play world
    let played := (g.withMuted false).nextBlock play world
    HeardOf (heard.1, heard.2.2) (played.1, played.2.2) := by
  have hheard := Graph.nextBlock_withMuted play g world g.muted
  have hplayed := Graph.nextBlock_withMuted play g world false
  have hsame : g.withMuted g.muted = g := rfl
  rw [hsame] at hheard
  intro heard played
  refine ⟨(congrArg (fun played => played.2.2) hplayed).symm, ?_⟩
  have hblock : heard.1 = if g.muted then .silence else played.1 := congrArg Prod.fst hheard
  rw [hblock]
  cases g.muted with
  | true => exact Or.inr rfl
  | false => exact Or.inl rfl

/-- Every block of a run is that of the run without the muting, or silence. -/
theorem blocks_aloud (play : Playing σ ω) (h : GraphHistory σ) (steps : List (GraphStep σ ω)) :
    List.Forall₂ HeardOf (h.blocks play steps)
      (h.unmute.blocks play (steps.flatMap GraphStep.aloud)) := by
  induction steps generalizing h with
  | nil => exact .nil
  | cons s rest ih =>
    have hrest := ih (h.step play s)
    rw [unmute_step] at hrest
    cases s with
    | call call =>
      cases call with
      | _ => exact hrest
    | proceed => exact hrest
    | cycle world => exact .cons (heardOf_nextBlock play h.graph world) hrest

end GraphHistory

end Chiptune
