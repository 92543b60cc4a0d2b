import Chiptune.Proofs.Relay.Run
import Chiptune.Proofs.Ring

/-!
# `Chiptune.Proofs.Relay.Silence`: silence is queued as far as it fits

Silence is queued in chunks of 256 zeros, the last of which may be smaller, until there is enough or
a chunk finds too little space. `Relay.ZeroRounds` is that loop with the number of its rounds. A
round that is not the last queues a whole chunk, which is never empty, so what is left to queue
falls; and where the space ends inside a chunk or in front of one, one more round finds that out.

* `Relay.zeroRounds_queueZeros`: the loop comes to its end, and after how many rounds.
* `Relay.queueZeros_eq`, of `Chiptune.Proofs.Relay.Run`, is what it leaves.

`Relay.silence_exact` is the main statement.
-/

set_option autoImplicit false

namespace Chiptune

namespace Relay

/-- The loop that queues zeros, from a ring and the number written so far: its rounds, and the number
written and the ring at its end. -/
inductive ZeroRounds (wanted : Nat) : Ring Int16 → Nat → Nat → Nat × Ring Int16 → Prop where
  | enough {ring : Ring Int16} {written : Nat} (h : wanted ≤ written) :
    ZeroRounds wanted ring written 0 (written, ring)
  | short {ring filled : Ring Int16} {written count : Nat} (h : written < wanted)
      (part : ring.writeSlice (List.replicate (min (wanted - written) silenceChunk) 0)
        = (count, filled))
      (less : count < min (wanted - written) silenceChunk) :
    ZeroRounds wanted ring written 1 (written + count, filled)
  | whole {ring filled : Ring Int16} {written rounds : Nat} {out : Nat × Ring Int16}
      (h : written < wanted)
      (all : ring.writeSlice (List.replicate (min (wanted - written) silenceChunk) 0)
        = (min (wanted - written) silenceChunk, filled))
      (rest : ZeroRounds wanted filled (written + min (wanted - written) silenceChunk) rounds out) :
    ZeroRounds wanted ring written (rounds + 1) out

/-- The loop comes to its end. It takes a round for each chunk that is begun, of the zeros that are
wanted or of those that fit and one more. -/
theorem zeroRounds_queueZeros (wanted : Nat) (ring : Ring Int16) (written : Nat) :
    ZeroRounds wanted ring written
      ((min (wanted - written) (ring.space + 1) + (silenceChunk - 1)) / silenceChunk)
      (queueZeros wanted ring written) := by
  induction ring, written using queueZeros.induct wanted with
  | case1 ring written more chunk count filled hslice short =>
    obtain ⟨hcount, -⟩ := space_of_writeSlice hslice
    have hlast : (min (wanted - written) (ring.space + 1) + (silenceChunk - 1)) / silenceChunk
        = 1 := by
      simp only [silenceChunk, chunk] at short hcount ⊢
      omega
    rw [queueZeros_of_short more hslice short, hlast]
    exact .short more hslice short
  | case2 ring written more chunk count filled hslice whole ih =>
    obtain ⟨hcount, hspace⟩ := space_of_writeSlice hslice
    obtain rfl : count = chunk := by omega
    have hnext : (min (wanted - written) (ring.space + 1) + (silenceChunk - 1)) / silenceChunk
        = (min (wanted - (written + chunk)) (filled.space + 1) + (silenceChunk - 1)) / silenceChunk
          + 1 := by
      rw [hspace]
      simp only [silenceChunk, chunk] at hcount ⊢
      omega
    rw [queueZeros_of_whole more hslice whole, hnext]
    exact .whole more hslice ih
  | case3 ring written done =>
    have henough : wanted ≤ written := Nat.le_of_not_lt done
    rw [queueZeros_of_enough done, Nat.sub_eq_zero_of_le henough, Nat.zero_min]
    exact .enough henough

/-- Silence is queued exactly. However much is asked for and however full the queue is, the loop
ends, as many zeros as fit are behind what was queued, their number is given, and nothing else has
changed, so that nothing is counted as refused. -/
theorem silence_exact (r : Relay) (samples : Nat) :
    let free := r.ring.capacity - 1 - r.ring.toList.length
    let n := min samples free
    ∃ ring,
      r.prefillSilence samples
        = { result := n, state := { r with ring := ring }, notices := [.relayPrefilled n] } ∧
      r.ring.Refilled (r.ring.toList ++ List.replicate n 0) ring ∧
      ring.overruns = r.ring.overruns ∧
      ZeroRounds (min samples (r.ring.capacity - 1)) r.ring 0
        ((min (min samples (r.ring.capacity - 1)) (free + 1) + 255) / 256) (n, ring) := by
  intro free n
  have hspace : r.ring.space = free := by
    rw [Ring.space, Ring.available_eq_length]
    rfl
  have hn : min (min samples (r.ring.capacity - 1) - 0) r.ring.space = n := by omega
  have hrounds := zeroRounds_queueZeros (min samples (r.ring.capacity - 1)) r.ring 0
  obtain ⟨queue, hzeros, htoList⟩ := queueZeros_eq (min samples (r.ring.capacity - 1)) r.ring 0
  rw [hn, Nat.zero_add] at hzeros
  rw [hn] at htoList
  rw [hzeros, hspace] at hrounds
  refine ⟨{ r.ring with queue := queue }, ?_, ⟨queue, rfl, htoList⟩, rfl, hrounds⟩
  rw [prefillSilence, Ring.limit, hzeros]

end Relay

end Chiptune
