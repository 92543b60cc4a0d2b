import Chiptune.Engine.Pacer
import Mathlib.Algebra.Group.Nat.Defs

/-!
# `Chiptune.Proofs.Engine.Pacer`: what the pacer's words stand for

The pacer counts ticks modulo `2 ^ 32`. `Pacer.Tracks p count` says what its words stand for
once `count` ticks have been observed: `consumed` is the number of ticks released or dropped,
and the ticks that wait make up the rest. The phase does not enter, so `advance` keeps it
whatever the phase does (`Tracks.advance`). `observe` keeps it as long as the ticks that are
new fit a word together with the backlog (`Tracks.observe`).

A stamp is compared with `consumed` by the sign of a difference of words. Near enough to
`consumed` that is the comparison of the numbers (`Tracks.hasReached_iff`).
-/

set_option autoImplicit false

namespace Chiptune

/-! ### Differences of words -/

/-- A word read as a signed number is not positive if it is zero or has its top bit set. -/
theorem toInt32_nonpos_iff (x : UInt32) : x.toInt32 ≤ 0 ↔ x.toNat = 0 ∨ 2 ^ 31 ≤ x.toNat := by
  have hsigned : x.toInt32.toInt = x.toBitVec.toInt := rfl
  have hword : x.toBitVec.toNat = x.toNat := rfl
  have hzero : (0 : Int32).toInt = 0 := rfl
  have hlt : x.toNat < 2 ^ 32 := x.toNat_lt
  rw [Int32.le_iff_toInt_le, hsigned, BitVec.toInt_eq_toNat_cond, hword, hzero]
  split
  · omega
  · omega

theorem toNat_ofNat_sub_ofNat (a b : Nat) :
    (UInt32.ofNat a - UInt32.ofNat b).toNat
      = (2 ^ 32 - b % 2 ^ 32 + a % 2 ^ 32) % 2 ^ 32 := by
  rw [UInt32.toNat_sub, UInt32.toNat_ofNat', UInt32.toNat_ofNat']

/-- A difference that fits a word is read off the words. -/
theorem toNat_ofNat_add_sub (a : Nat) {b : Nat} (h : b < 2 ^ 32) :
    (UInt32.ofNat (a + b) - UInt32.ofNat a).toNat = b := by
  rw [toNat_ofNat_sub_ofNat]
  omega

namespace Pacer

/-- Ticks that the pacer is done with, released or dropped. -/
def done (p : Pacer) : Nat := p.applied + p.dropped

/-- The words of the pacer stand for the numbers of ticks, of which `count` have been
observed, and no more than a second of them waits. -/
structure Tracks (p : Pacer) (count : Nat) : Prop where
  consumed : p.consumed = UInt32.ofNat p.done
  seen : p.seen = UInt32.ofNat count
  total : p.done + p.pending = count
  pending_le : p.pending ≤ maxBacklog

theorem tracks_create (sampleRate : UInt32) : (create sampleRate).Tracks 0 where
  consumed := rfl
  seen := rfl
  total := rfl
  pending_le := Nat.zero_le _

/-- Moving on by a sample changes the phase, and releases at most one of the ticks that
wait. -/
theorem advance_cases (p : Pacer) :
    (∃ phase, p.advance = (false, { p with phase := phase })) ∨
    ∃ phase, 0 < p.pending ∧
      p.advance
        = (true,
            { p with
              phase := phase
              pending := p.pending - 1
              consumed := p.consumed + 1
              applied := p.applied + 1 }) := by
  unfold advance
  -- Either nothing waits, or the next tick is early, or it is released.
  by_cases hidle : p.pending = 0
  · rw [if_pos hidle]
    exact Or.inl ⟨_, rfl⟩
  · rw [if_neg hidle]
    by_cases hearly : p.phase + 1.0 < p.currentInterval
    · rw [if_pos hearly]
      exact Or.inl ⟨_, rfl⟩
    · rw [if_neg hearly]
      exact Or.inr ⟨_, Nat.pos_of_ne_zero hidle, rfl⟩

section
variable {p : Pacer} {count : Nat}

theorem Tracks.withPhase (h : p.Tracks count) (phase : Float32) :
    Tracks { p with phase := phase } count :=
  ⟨h.consumed, h.seen, h.total, h.pending_le⟩

theorem Tracks.retune (h : p.Tracks count) (sampleRate : UInt32) :
    (p.retune sampleRate).Tracks count :=
  ⟨h.consumed, h.seen, h.total, h.pending_le⟩

/-- Releasing a tick moves it from those that wait to those that are done. -/
theorem Tracks.release (h : p.Tracks count) (hwaits : 0 < p.pending) (phase : Float32) :
    Tracks
      { p with
        phase := phase
        pending := p.pending - 1
        consumed := p.consumed + 1
        applied := p.applied + 1 } count := by
  have hdone : p.applied + 1 + p.dropped = p.done + 1 := Nat.add_right_comm ..
  have htotal := h.total
  have hle := h.pending_le
  refine ⟨?_, h.seen, ?_, ?_⟩
  · show p.consumed + 1 = UInt32.ofNat (p.applied + 1 + p.dropped)
    rw [hdone, UInt32.ofNat_add, h.consumed]
    rfl
  · show p.applied + 1 + p.dropped + (p.pending - 1) = count
    rw [hdone]
    omega
  · show p.pending - 1 ≤ maxBacklog
    omega

theorem Tracks.advance (h : p.Tracks count) : p.advance.2.Tracks count := by
  rcases advance_cases p with ⟨phase, heq⟩ | ⟨phase, hwaits, heq⟩
  · rw [heq]
    exact h.withPhase phase
  · rw [heq]
    exact h.release hwaits phase

/-- Taking in `fresh` new ticks drops what the backlog is too long by, and nothing else. -/
theorem Tracks.observe_eq (h : p.Tracks count) {fresh : Nat}
    (hfresh : fresh < 2 ^ 32 - maxBacklog) :
    p.observe (UInt32.ofNat (count + fresh))
      = { p with
          seen := UInt32.ofNat (count + fresh)
          pending := p.pending + fresh - (p.pending + fresh - maxBacklog)
          consumed := p.consumed + UInt32.ofNat (p.pending + fresh - maxBacklog)
          dropped := p.dropped + (p.pending + fresh - maxBacklog) } := by
  have hbacklog : maxBacklog = 240 := rfl
  have hword : maxWord = 2 ^ 32 - 1 := rfl
  have hle := h.pending_le
  -- The words wrap, but their difference is the number of new ticks.
  have hnew : (UInt32.ofNat (count + fresh) - p.seen).toNat = fresh := by
    rw [h.seen]
    exact toNat_ofNat_add_sub count (by omega)
  -- Backlog and new ticks together fit a word, so the sum does not stay short of it.
  have hsum : min (p.pending + fresh) maxWord = p.pending + fresh := by omega
  unfold observe
  rw [hnew, hsum]

theorem Tracks.observe (h : p.Tracks count) {fresh : Nat}
    (hfresh : fresh < 2 ^ 32 - maxBacklog) :
    (p.observe (UInt32.ofNat (count + fresh))).Tracks (count + fresh) := by
  have htotal := h.total
  have hexcess : p.pending + fresh - maxBacklog ≤ p.pending + fresh := Nat.sub_le ..
  have hkept : p.pending + fresh - (p.pending + fresh - maxBacklog) ≤ maxBacklog := by omega
  rw [h.observe_eq hfresh]
  -- How the excess comes about does not matter from here on.
  generalize p.pending + fresh - maxBacklog = excess at hexcess hkept ⊢
  refine ⟨?_, rfl, ?_, hkept⟩
  · show p.consumed + UInt32.ofNat excess = UInt32.ofNat (p.applied + (p.dropped + excess))
    rw [← Nat.add_assoc, UInt32.ofNat_add, h.consumed]
    rfl
  · show p.applied + (p.dropped + excess) + (p.pending + fresh - excess) = count + fresh
    unfold done at htotal
    omega

/-- The sign of the difference decides whether a stamp has been reached, for stamps that are
not ahead of the ticks observed and fewer than `2 ^ 31` behind the ticks done. -/
theorem Tracks.hasReached_iff (h : p.Tracks count) {stamp : Nat} (hahead : stamp ≤ count)
    (hbehind : p.done < stamp + 2 ^ 31) :
    p.hasReached (UInt32.ofNat stamp) = true ↔ stamp ≤ p.done := by
  -- A stamp ahead is at most a backlog ahead, so its difference is small and positive.
  -- One behind has a difference with the top bit set.
  have hbacklog : maxBacklog = 240 := rfl
  have htotal := h.total
  have hle := h.pending_le
  rw [hasReached, decide_eq_true_iff, h.consumed, toInt32_nonpos_iff, toNat_ofNat_sub_ofNat]
  omega

end

end Pacer

end Chiptune
