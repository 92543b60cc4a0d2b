/-!
# Producing frames

`produce` runs a step a number of times and collects what it gives, in order. Buffers that
already hold samples are overwritten from their start.

* `produce_succ`: the first value, then the values from the state it leaves.
* `produce_add`: in one go or in two parts, the values are the same.
* `produce_of_semiconj`: what does not matter to a step does not matter to the values.
* `length_produce`: as many values as asked for.
* `fillPair_of_length`: buffers of one length keep nothing of what they held.
-/

set_option autoImplicit false

namespace Chiptune

/-- A left and a right sample. -/
abbrev Frame := Int16 × Int16

/-- Collects `n` values behind those already collected, newest first. -/
def produceOnto {σ α : Type} (next : σ → α × σ) : Nat → σ → List α → List α × σ
  | 0, s, done => (done.reverse, s)
  | n + 1, s, done =>
    match next s with
    | (a, s) => produceOnto next n s (a :: done)

/-- The first `n` values that `next` gives from `s`, and the state after them. -/
def produce {σ α : Type} (next : σ → α × σ) (n : Nat) (s : σ) : List α × σ :=
  produceOnto next n s []

section
variable {σ α : Type} (next : σ → α × σ)

theorem produceOnto_eq (n : Nat) (s : σ) (done : List α) :
    produceOnto next n s done
      = (done.reverse ++ (produce next n s).1, (produce next n s).2) := by
  induction n generalizing s done with
  | zero => simp [produceOnto, produce]
  | succ n ih =>
    simp only [produce, produceOnto]
    rw [ih (next s).2 ((next s).1 :: done), ih (next s).2 [(next s).1]]
    simp

@[simp] theorem produce_zero (s : σ) : produce next 0 s = ([], s) := rfl

theorem produce_succ (n : Nat) (s : σ) :
    produce next (n + 1) s
      = ((next s).1 :: (produce next n (next s).2).1, (produce next n (next s).2).2) := by
  simp only [produce, produceOnto]
  rw [produceOnto_eq]
  simp [produce]

theorem produce_add (m n : Nat) (s : σ) :
    produce next (m + n) s
      = ((produce next m s).1 ++ (produce next n (produce next m s).2).1,
        (produce next n (produce next m s).2).2) := by
  induction m generalizing s with
  | zero => simp
  | succ m ih =>
    rw [Nat.succ_add, produce_succ, ih, produce_succ]
    simp

/-- If a step takes `f s` to where `f` takes what it makes of `s`, so do `n` steps, and the values
are the same. -/
theorem produce_of_semiconj {next : σ → α × σ} {f : σ → σ}
    (h : ∀ s, next (f s) = ((next s).1, f (next s).2)) (n : Nat) (s : σ) :
    produce next n (f s) = ((produce next n s).1, f (produce next n s).2) := by
  induction n generalizing s with
  | zero => rfl
  | succ n ih => rw [produce_succ, produce_succ, h, ih]

@[simp] theorem length_produce (n : Nat) (s : σ) : (produce next n s).1.length = n := by
  induction n generalizing s with
  | zero => rfl
  | succ n ih => simp [produce_succ, ih]

end

/-- A buffer whose first samples are replaced. -/
def overwrite {α : Type} (fresh old : List α) : List α := fresh ++ old.drop fresh.length

/-- Replaces the frames that two buffers share by frames that `next` gives; the longer
buffer keeps its rest. -/
def fillPair {σ : Type} (next : σ → Frame × σ) (left right : List Int16) (s : σ) :
    (List Int16 × List Int16) × σ :=
  let (frames, s) := produce next (min left.length right.length) s
  ((overwrite (frames.map Prod.fst) left, overwrite (frames.map Prod.snd) right), s)

theorem length_overwrite {α : Type} {fresh old : List α} (h : fresh.length ≤ old.length) :
    (overwrite fresh old).length = old.length := by
  rw [overwrite, List.length_append, List.length_drop]
  omega

/-- A buffer of the same length is overwritten whole. -/
theorem overwrite_of_length {α : Type} {fresh old : List α} (h : fresh.length = old.length) :
    overwrite fresh old = fresh := by
  rw [overwrite, List.drop_of_length_le (Nat.le_of_eq h.symm), List.append_nil]

section
variable {σ : Type} (next : σ → Frame × σ) (left right : List Int16) (s : σ)

@[simp] theorem length_fillPair_left : (fillPair next left right s).1.1.length = left.length := by
  simp only [fillPair]
  rw [length_overwrite]
  rw [List.length_map, length_produce]
  exact Nat.min_le_left _ _

@[simp] theorem length_fillPair_right :
    (fillPair next left right s).1.2.length = right.length := by
  simp only [fillPair]
  rw [length_overwrite]
  rw [List.length_map, length_produce]
  exact Nat.min_le_right _ _

/-- So are two of one length. -/
theorem fillPair_of_length {left right : List Int16} {n : Nat} (hleft : left.length = n)
    (hright : right.length = n) :
    fillPair next left right s
      = (((produce next n s).1.map Prod.fst, (produce next n s).1.map Prod.snd),
        (produce next n s).2) := by
  have hframes (side : Frame → Int16) : ((produce next n s).1.map side).length = n := by
    rw [List.length_map, length_produce]
  simp only [fillPair, hleft, hright, Nat.min_self]
  rw [overwrite_of_length ((hframes _).trans hleft.symm),
    overwrite_of_length ((hframes _).trans hright.symm)]

end

end Chiptune
