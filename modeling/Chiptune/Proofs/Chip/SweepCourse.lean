import Mathlib.Order.Iterate
import Chiptune.Proofs.Chip.Gating

/-!
# `Chiptune.Proofs.Chip.SweepCourse`: the course of a sweep

Between two writes, a pulse's period changes by its sweep alone, and the sweep acts at the expiries
of its divider alone. So the course of the period is told by two things: how many expiries a run
goes through (`Pulse.sweepExpiries`), and what one expiry makes of a period (`Sweep.moved`).

The sweep unit asks its mute flag whether it may change the period. `Sweep.moved` does not: a target
in range is one that does not mute, and the flag is settled in every state that a run reaches
(`Pulse.Settled`).

* `Pulse.sweepExpiries_of_reload`: the expiries after a write to the sweep register.
* `Pulse.Settled.period_after`: after a run, the period is moved once for each expiry.
* `Pulse.sweep_course`: the main statement.
-/

set_option autoImplicit false

namespace Chiptune

namespace Sweep

variable {s : Sweep} {period : Nat}

/-! ### One expiry -/

/-- Ones' complement takes one more off. -/
theorem target_eq (s : Sweep) (period : Nat) :
    s.target period
      = if s.negate then period - (period >>> s.shift + s.onesComplement.toNat)
        else period + period >>> s.shift := by
  unfold target
  cases s.onesComplement with
  | true => rfl
  | false => rfl

/-- What an expiry makes of a period. -/
def moved (s : Sweep) (period : Nat) : Nat :=
  if s.enabled = true ∧ 0 < s.shift ∧ 8 ≤ s.target period ∧ s.target period ≤ 0x7FF then
    s.target period
  else
    period

/-- A period in range stays there. -/
theorem moved_range (h : 8 ≤ period ∧ period ≤ 0x7FF) :
    8 ≤ s.moved period ∧ s.moved period ≤ 0x7FF := by
  unfold moved
  split
  next hmoves => exact hmoves.2.2
  next hstays => exact h

theorem le_moved (h : s.negate = false) (period : Nat) : period ≤ s.moved period := by
  have htarget : period ≤ s.target period := by
    rw [target_eq, h]
    exact Nat.le_add_right _ _
  unfold moved
  split
  · exact htarget
  · exact le_refl period

theorem moved_le (h : s.negate = true) (period : Nat) : s.moved period ≤ period := by
  have htarget : s.target period ≤ period := by
    rw [target_eq, h]
    exact Nat.sub_le _ _
  unfold moved
  split
  · exact htarget
  · exact le_refl period

theorem iterate_moved_range (h : 8 ≤ period ∧ period ≤ 0x7FF) (n : Nat) :
    8 ≤ s.moved^[n] period ∧ s.moved^[n] period ≤ 0x7FF :=
  Function.Iterate.rec (fun period => 8 ≤ period ∧ period ≤ 0x7FF) h (fun _ => moved_range) n

theorem le_iterate_moved (h : s.negate = false) (n period : Nat) : period ≤ s.moved^[n] period :=
  Function.id_le_iterate_of_id_le (le_moved h) n period

theorem iterate_moved_le (h : s.negate = true) (n period : Nat) : s.moved^[n] period ≤ period :=
  Function.iterate_le_id_of_le_id (moved_le h) n period

/-- Where a target is in range, the sweep does not mute. -/
theorem mutes_eq_false (h : s.target period ≤ 0x7FF) : s.mutes period = false := by
  have hin : ¬ maxTimerPeriod < s.target period := Nat.not_lt.mpr h
  unfold mutes
  rw [decide_eq_false hin, Bool.and_false]

/-! ### The divider -/

/-- Whether the next clock of the divider is an expiry. -/
def expires (s : Sweep) : Bool := s.clockDivider.1

theorem clockDivider_of_reload (h : s.reload = true) :
    s.clockDivider = (false, { s with divider := s.period, reload := false }) := by
  unfold clockDivider
  rw [if_pos h]

theorem clockDivider_of_pos (hreload : s.reload = false) (h : 0 < s.divider) :
    s.clockDivider = (false, { s with divider := s.divider - 1 }) := by
  unfold clockDivider
  rw [hreload, if_neg Bool.false_ne_true, if_pos h]

theorem clockDivider_of_zero (hreload : s.reload = false) (h : s.divider = 0) :
    s.clockDivider = (true, { s with divider := s.period }) := by
  unfold clockDivider
  rw [hreload, if_neg Bool.false_ne_true, h, if_neg (Nat.lt_irrefl 0)]

theorem expires_iff : s.expires = true ↔ s.reload = false ∧ s.divider = 0 := by
  cases hreload : s.reload with
  | true => simp [expires, clockDivider_of_reload hreload]
  | false =>
    rcases Nat.eq_zero_or_pos s.divider with hzero | hpos
    · simp [expires, clockDivider_of_zero hreload hzero, hzero]
    · simp [expires, clockDivider_of_pos hreload hpos, Nat.ne_of_gt hpos]

/-- How many of the next clocks of the divider are expiries. -/
def expiries (s : Sweep) : Nat → Nat
  | 0 => 0
  | n + 1 => expiries s.clockDivider.2 n + s.expires.toNat

theorem expiries_succ (s : Sweep) (n : Nat) :
    s.expiries (n + 1) = s.clockDivider.2.expiries n + s.clockDivider.1.toNat := rfl

/-- The divider expires at every clock that finds it at zero, and counts down its period before the
next. -/
theorem expiries_of_loaded (n : Nat) (hreload : s.reload = false)
    (hdivider : s.divider ≤ s.period) :
    s.expiries n = (n + (s.period - s.divider)) / (s.period + 1) := by
  induction n generalizing s with
  | zero =>
    show 0 = (0 + (s.period - s.divider)) / (s.period + 1)
    rw [Nat.div_eq_of_lt (by omega)]
  | succ n ih =>
    rw [expiries_succ]
    rcases Nat.eq_zero_or_pos s.divider with hzero | hpos
    · -- The clock is an expiry, and a whole count lies ahead.
      have hrest := ih (s := { s with divider := s.period }) hreload (le_refl s.period)
      have hcount : n + 1 + (s.period - s.divider)
          = n + (s.period - s.period) + (s.period + 1) := by omega
      dsimp only at hrest
      rw [clockDivider_of_zero hreload hzero, hrest, hcount, Nat.add_div_right _ (Nat.succ_pos _)]
      rfl
    · have hrest := ih (s := { s with divider := s.divider - 1 }) hreload (by dsimp only; omega)
      have hcount : n + 1 + (s.period - s.divider) = n + (s.period - (s.divider - 1)) := by omega
      dsimp only at hrest
      rw [clockDivider_of_pos hreload hpos, hrest, hcount]
      rfl

/-- The clock that reloads the divider has no part in the count. -/
theorem expiries_of_reload (n : Nat) (hreload : s.reload = true) :
    s.expiries n = (n - 1) / (s.period + 1) := by
  cases n with
  | zero => exact (Nat.zero_div _).symm
  | succ n =>
    have hrest := expiries_of_loaded (s := { s with divider := s.period, reload := false }) n rfl
      (le_refl s.period)
    dsimp only at hrest
    rw [expiries_succ, clockDivider_of_reload hreload, hrest, Nat.sub_self]
    rfl

end Sweep

namespace Pulse

variable {p : Pulse} {op : PulseOp} {ops : List PulseOp}

/-! ### One clock -/

/-- A due reload takes the whole clock. -/
theorem clockSweep_of_reload (h : p.sweep.reload = true) :
    p.clockSweep
      = { p with sweep := { p.sweep with divider := p.sweep.period, reload := false } } := by
  unfold Pulse.clockSweep
  rw [Sweep.clockDivider_of_reload h]
  rfl

/-- With settled flags, an expiry moves the period, and no other clock of the sweep does. -/
theorem Settled.period_clockSweep (h : p.Settled) :
    p.clockSweep.period = if p.sweep.expires then p.sweep.moved p.period else p.period := by
  unfold Pulse.clockSweep
  dsimp only
  cases hexpires : p.sweep.expires with
  | false =>
    rw [show p.sweep.clockDivider.1 = false from hexpires]
    rfl
  | true =>
    obtain ⟨hreload, hzero⟩ := Sweep.expires_iff.mp hexpires
    rw [Sweep.clockDivider_of_zero hreload hzero, if_pos rfl]
    dsimp only
    split
    next hacts =>
      simp only [Bool.true_and, Bool.and_eq_true, decide_eq_true_iff] at hacts
      obtain ⟨⟨henabled, hshift⟩, -⟩ := hacts
      split
      next hrange => exact (if_pos ⟨henabled, hshift, hrange⟩).symm
      next hrange => exact (if_neg fun hmoves => hrange hmoves.2.2).symm
    next hrests =>
      refine (if_neg ?_).symm
      rintro ⟨henabled, hshift, -, hhigh⟩
      have hmuting : p.sweepMuting = false := h.muting.trans (Sweep.mutes_eq_false hhigh)
      exact hrests (by simp [henabled, hshift, hmuting])

/-- The other clocks leave the sweep and the period alone. -/
theorem sweep_run_of_ne (hop : op.isClock = true) (hne : op ≠ .clockSweep) (p : Pulse) :
    (op.run p).sweep = p.sweep ∧ (op.run p).period = p.period := by
  cases op with
  | clockTimer =>
    show p.clockTimer.sweep = p.sweep ∧ p.clockTimer.period = p.period
    unfold Pulse.clockTimer
    split
    · exact ⟨rfl, rfl⟩
    · exact ⟨rfl, rfl⟩
  | clockEnvelope | clockLength => exact ⟨rfl, rfl⟩
  | clockSweep => exact absurd rfl hne
  | writeControl _ | writeSweep _ | writeTimerLow _ | writeTimerHigh _ | setEnabled _ | reset =>
    exact absurd hop Bool.false_ne_true

/-- No clock changes what an expiry makes of a period. -/
theorem moved_run (hop : op.isClock = true) (p : Pulse) :
    (op.run p).sweep.moved = p.sweep.moved := by
  by_cases hsweep : op = .clockSweep
  · subst hsweep
    obtain ⟨_, _, hdivider⟩ := p.sweep.clockDivider_eq
    show p.clockSweep.sweep.moved = p.sweep.moved
    rw [sweep_clockSweep, hdivider]
    rfl
  · rw [(sweep_run_of_ne hop hsweep p).1]

/-- Whether an operation is an expiry of the sweep's divider. -/
def expiresAt (p : Pulse) (op : PulseOp) : Bool := op == .clockSweep && p.sweep.expires

theorem expiresAt_of_ne (hne : op ≠ .clockSweep) : p.expiresAt op = false := by
  unfold expiresAt
  rw [beq_eq_false_iff_ne.mpr hne, Bool.false_and]

/-- With settled flags, the clocks move the period at the expiries of the divider. -/
theorem Settled.period_run (h : p.Settled) (hop : op.isClock = true) :
    (op.run p).period = if p.expiresAt op then p.sweep.moved p.period else p.period := by
  by_cases hsweep : op = .clockSweep
  · subst hsweep
    exact h.period_clockSweep
  · rw [(sweep_run_of_ne hop hsweep p).2, expiresAt_of_ne hsweep, if_neg Bool.false_ne_true]

/-! ### A run of clocks -/

/-- How many expiries of the sweep's divider a run goes through. -/
def sweepExpiries (p : Pulse) : List PulseOp → Nat
  | [] => 0
  | op :: ops => sweepExpiries (op.run p) ops + (p.expiresAt op).toNat

/-- The expiries of a run of clocks are those of the divider by itself. -/
theorem sweepExpiries_eq (hclocks : ∀ op ∈ ops, op.isClock = true) :
    p.sweepExpiries ops = p.sweep.expiries (ops.count .clockSweep) := by
  induction ops generalizing p with
  | nil => rfl
  | cons op rest ih =>
    obtain ⟨hop, hrest⟩ := List.forall_mem_cons.mp hclocks
    show (op.run p).sweepExpiries rest + (p.expiresAt op).toNat = _
    rw [ih hrest]
    by_cases hsweep : op = .clockSweep
    · subst hsweep
      rw [List.count_cons_self]
      show p.clockSweep.sweep.expiries _ + p.sweep.expires.toNat = _
      rw [sweep_clockSweep]
      rfl
    · rw [List.count_cons_of_ne hsweep, expiresAt_of_ne hsweep, (sweep_run_of_ne hop hsweep p).1]
      rfl

/-- Nor does a run of them. -/
theorem moved_after (hclocks : ∀ op ∈ ops, op.isClock = true) :
    (p.after ops).sweep.moved = p.sweep.moved := by
  induction ops generalizing p with
  | nil => rfl
  | cons op rest ih =>
    obtain ⟨hop, hrest⟩ := List.forall_mem_cons.mp hclocks
    exact (ih hrest).trans (moved_run hop p)

/-- With settled flags, a run of clocks moves the period once for each expiry. -/
theorem Settled.period_after (h : p.Settled) (hclocks : ∀ op ∈ ops, op.isClock = true) :
    (p.after ops).period = p.sweep.moved^[p.sweepExpiries ops] p.period := by
  induction ops generalizing p with
  | nil => rfl
  | cons op rest ih =>
    obtain ⟨hop, hrest⟩ := List.forall_mem_cons.mp hclocks
    have hone : (op.run p).period = p.sweep.moved^[(p.expiresAt op).toNat] p.period := by
      rw [h.period_run hop]
      cases p.expiresAt op with
      | true => rfl
      | false => rfl
    show ((op.run p).after rest).period
      = p.sweep.moved^[(op.run p).sweepExpiries rest + (p.expiresAt op).toNat] p.period
    rw [ih (h.run op) hrest, moved_run hop, hone, Function.iterate_add_apply]

/-- The course of a sweep. Take a voice in any state that a run from power-up reaches, with either
way to negate, and any clocks after it, without a write or a reset in between. The sweep divides by
`q + 1` and shifts by `s`.

* If a reload is due, the first clock of the sweep reloads the divider and changes nothing else, and
  of the clocks of the sweep that come after it every `q + 1` are one expiry.
* A clock changes the period at an expiry alone, and there to the target, if the sweep is enabled,
  shifts, and the target is in range.
* So the period after the clocks is that many moves away. From a period in range it stays in range;
  it never falls without negation and never rises with it. -/
theorem sweep_course (onesComplement : Bool) (past clocks : List PulseOp)
    (hclocks : ∀ op ∈ clocks, op.isClock = true) :
    let p := (powerUp onesComplement).after past
    let q := p.sweep.period
    let s := p.sweep.shift
    let target : Nat → Nat := fun period =>
      if p.sweep.negate then period - (period >>> s + onesComplement.toNat)
      else period + period >>> s
    let moved : Nat → Nat := fun period =>
      if p.sweep.enabled = true ∧ 0 < s ∧ 8 ≤ target period ∧ target period ≤ 0x7FF then
        target period
      else
        period
    let r := p.after clocks
    (p.sweep.reload = true →
      p.clockSweep = { p with sweep := { p.sweep with divider := q, reload := false } } ∧
      p.sweepExpiries clocks = (clocks.count .clockSweep - 1) / (q + 1)) ∧
    (∀ op : PulseOp, op.isClock = true →
      (op.run r).period = if r.expiresAt op then moved r.period else r.period) ∧
    r.period = moved^[p.sweepExpiries clocks] p.period ∧
    (8 ≤ p.period ∧ p.period ≤ 0x7FF → 8 ≤ r.period ∧ r.period ≤ 0x7FF) ∧
    (p.sweep.negate = false → p.period ≤ r.period) ∧
    (p.sweep.negate = true → r.period ≤ p.period) := by
  intro p q s target moved r
  have hsettled : p.Settled := settled_after onesComplement past
  have hmoved : p.sweep.moved = moved := by
    have htarget : p.sweep.target = target := by
      funext period
      rw [Sweep.target_eq, onesComplement_after onesComplement past]
    unfold Sweep.moved
    rw [htarget]
  have hperiod := hsettled.period_after hclocks
  refine ⟨?_, ?_, ?_, ?_, ?_, ?_⟩
  · intro hreload
    refine ⟨clockSweep_of_reload hreload, ?_⟩
    rw [sweepExpiries_eq hclocks, Sweep.expiries_of_reload _ hreload]
  · intro op hop
    have hrun : r.Settled := after_induction (fun _ op h => h.run op) p clocks hsettled
    rw [hrun.period_run hop, moved_after hclocks, hmoved]
  · rw [← hmoved]
    exact hperiod
  · intro hrange
    rw [hperiod]
    exact Sweep.iterate_moved_range hrange _
  · intro hup
    rw [hperiod]
    exact Sweep.le_iterate_moved hup _ _
  · intro hdown
    rw [hperiod]
    exact Sweep.iterate_moved_le hdown _ _

/-- The first pulse at period 100, halved downwards every two clocks. Of the eight clocks after the
one that reloads, four are expiries: 49, 24 and 11 are set, and 5 is too low. -/
theorem downward_sweep_stops :
    let p := (powerUp true).after [.setEnabled true, .writeTimerLow 100, .writeSweep 0x99]
    let clocks : List PulseOp := .clockTimer :: List.replicate 9 .clockSweep
    p.sweepExpiries clocks = 4 ∧ (p.after clocks).period = 11 := by
  intro p clocks
  obtain ⟨hreload, -, hperiod, -⟩ :=
    sweep_course true [.setEnabled true, .writeTimerLow 100, .writeSweep 0x99] clocks (by decide)
  have hexpiries : p.sweepExpiries clocks = 4 := (hreload rfl).2.trans (by decide)
  refine ⟨hexpiries, ?_⟩
  rw [hperiod, hexpiries]
  rfl

end Pulse

end Chiptune
