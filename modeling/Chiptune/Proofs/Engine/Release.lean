import Chiptune.Proofs.Dyadic
import Chiptune.Proofs.Engine.Pacer
import Mathlib.Algebra.Order.Floor.Div
import Mathlib.GroupTheory.GroupAction.Ring
import Mathlib.Tactic.IntervalCases

/-!
# `Chiptune.Proofs.Engine.Release`: at which samples ticks are released

The pacer adds to a phase in single precision, clamps it and compares it with one of two intervals.
At a sample rate that is a multiple of 15 none of this rounds: the interval and the phase are whole
thirty-seconds of a sample. `Pacer.Measured` names them as natural numbers, and
`Pacer.Measured.moves` says in them what a sample does to a pacer: it idles, waits, or releases a
tick. From there on only natural numbers are counted.

Bounds on the samples between releases hold however ticks arrive, since an observation leaves the
phase alone. Each is an induction over the run with the phase as its measure:

* `Pacer.Measured.releases_apart`: two releases are no closer than the shorter interval, less the
  one sample that a release may leave in the phase.
* `Pacer.Measured.exists_release`: a tick that waits is released within the longer interval.
* `Pacer.Measured.drained`: a backlog is released whole, an interval's time for each tick.

At which samples exactly depends on the phase at the start and on the backlog. A pacer that has had
nothing to release for an interval stands one sample short of a release (`Pacer.Measured.rests`),
as a new one does, and the ticks that it then observes follow a schedule. `Pacer.OnSchedule` is the
invariant. It determines the phase by the samples and the releases so far, since on schedule a
release leaves less than a sample in the phase and is not clamped. More than twenty-four waiting
ticks would halve the interval, so the schedule is kept only while no more wait
(`Pacer.Unhurried`).

* `Pacer.OnSchedule.releases_iff`: ticks are released when they are due.
* `Pacer.ticks_released_on_time`: the main statement.
-/

set_option autoImplicit false

namespace Chiptune

/-- Something that happens to a pacer at one sample rate. -/
inductive PacerStep where
  | observe (issued : UInt32)
  | advance
deriving DecidableEq

namespace Pacer

open Single

/-- Carries out a step. -/
def step (p : Pacer) : PacerStep → Pacer
  | .observe issued => p.observe issued
  | .advance => p.advance.2

/-- The pacer after a list of steps, the oldest first. -/
def after (p : Pacer) (steps : List PacerStep) : Pacer := steps.foldl step p

/-- For each sample of a run, whether a tick is released before it. -/
def releases (p : Pacer) : List PacerStep → List Bool
  | [] => []
  | .observe issued :: rest => (p.observe issued).releases rest
  | .advance :: rest => p.advance.1 :: p.advance.2.releases rest

@[simp] theorem after_nil (p : Pacer) : p.after [] = p := rfl

@[simp] theorem after_cons (p : Pacer) (s : PacerStep) (rest : List PacerStep) :
    p.after (s :: rest) = (p.step s).after rest := rfl

@[simp] theorem after_append (p : Pacer) (steps more : List PacerStep) :
    p.after (steps ++ more) = (p.after steps).after more := List.foldl_append

/-! ### The pacer in numbers -/

theorem one_eq : (1.0 : Float32) = dyadic (-5) 32 := by decide

theorem half_eq : (0.5 : Float32) = dyadic (-1) 1 := by decide

theorem frameRateHz_eq : frameRateHz = dyadic 4 15 := by decide

theorem lesser_dyadic {e : Int} {a b : Nat} (ha : Fits e a) (hb : Fits e b) :
    lesser (dyadic e a) (dyadic e b) = dyadic e (min a b) := by
  unfold lesser
  by_cases hlt : a < b
  · rw [if_pos ((dyadic_lt_iff ha hb).mpr hlt), Nat.min_eq_left (Nat.le_of_lt hlt)]
  · rw [if_neg (fun h => hlt ((dyadic_lt_iff ha hb).mp h)),
      Nat.min_eq_right (Nat.le_of_not_lt hlt)]

/-- The numbers of a pacer, in units of a thirty-second of a sample. A tick takes `2 * q` of
them. -/
structure Measured (p : Pacer) (q phase : Nat) : Prop where
  fits : 32 ≤ q ∧ q < 2 ^ 22
  interval : p.samplesPerTick = dyadic (-5) (2 * q)
  phase_eq : p.phase = dyadic (-5) phase
  phase_lt : phase < 2 * q
  pending_le : p.pending ≤ maxBacklog
  /-- Idle time is not banked. -/
  idle : p.pending = 0 → phase + 32 ≤ 2 * q

/-- Units to wait for the next release. -/
def gap (p : Pacer) (q : Nat) : Nat := if catchUpBacklog < p.pending then q else 2 * q

section
variable {p : Pacer} {q phase : Nat}

theorem fits_of_lt {k : Nat} (h : k < 2 ^ 24) : Fits (-5) k := ⟨h, by decide, by decide⟩

theorem interval_eq {sampleRate : UInt32} (hrate : sampleRate.toNat = 15 * q) (hpos : 32 ≤ q)
    (hq : q < 2 ^ 20) : interval sampleRate = dyadic (-5) (2 * q) := by
  have hone : max sampleRate 1 = sampleRate := by
    refine if_neg ?_
    rw [UInt32.le_iff_toNat_le, hrate]
    show ¬ 15 * q ≤ 1
    omega
  -- Two hundred and forty is fifteen times sixteen, so the quotient is in sixteenths.
  have hquotient : dyadic 0 (q * 15) / dyadic 4 15 = dyadic (-4) q :=
    dyadic_div ⟨by decide, by decide, by decide⟩ (by decide) ⟨by omega, by decide, by decide⟩
      ⟨by omega, by decide, by decide⟩ (by decide)
  have hfine : dyadic (-5) (2 * q) = dyadic (-4) q :=
    dyadic_double ⟨by omega, by decide, by decide⟩ (by decide)
  rw [interval, hone, toFloat32_eq, hrate, frameRateHz_eq, Nat.mul_comm 15 q, hquotient, hfine]

theorem measured_create {sampleRate : UInt32} (hrate : sampleRate.toNat = 15 * q) (hpos : 32 ≤ q)
    (hq : q < 2 ^ 20) : (create sampleRate).Measured q (2 * q - 32) := by
  have hinterval := interval_eq hrate hpos hq
  refine ⟨⟨hpos, by omega⟩, hinterval, ?_, by omega, Nat.zero_le _, ?_⟩
  · show interval sampleRate - 1.0 = dyadic (-5) (2 * q - 32)
    rw [hinterval, one_eq, dyadic_sub (fits_of_lt (by omega)) (by omega)]
  · intro _
    omega

theorem Measured.currentInterval_eq (h : p.Measured q phase) :
    p.currentInterval = dyadic (-5) (p.gap q) := by
  have hfits := h.fits
  have hhalf : dyadic (-5) (2 * q) * dyadic (-1) 1 = dyadic (-6) (2 * q * 1) :=
    dyadic_mul (fits_of_lt (by omega)) ⟨by decide, by decide, by decide⟩
      ⟨by omega, by decide, by decide⟩
  have hfine : dyadic (-6) (2 * q) = dyadic (-5) q :=
    dyadic_double (fits_of_lt (by omega)) (by decide)
  unfold currentInterval gap
  split
  · rw [h.interval, half_eq, hhalf, Nat.mul_one, hfine]
  · exact h.interval

/-- Observing moves no samples on, and takes no ticks away. -/
theorem Measured.observe (h : p.Measured q phase) (issued : UInt32) :
    (p.observe issued).Measured q phase ∧ p.pending ≤ (p.observe issued).pending := by
  have hpending := h.pending_le
  have hwaiting : (p.observe issued).pending
      = min (min (p.pending + (issued - p.seen).toNat) maxWord) maxBacklog := by
    show _ - (_ - maxBacklog) = _
    omega
  have hmore : p.pending ≤ (p.observe issued).pending := by
    have hword : maxBacklog ≤ maxWord := by decide
    rw [hwaiting]
    omega
  refine ⟨⟨h.fits, h.interval, h.phase_eq, h.phase_lt, ?_, ?_⟩, hmore⟩
  · rw [hwaiting]
    exact Nat.min_le_right _ _
  · intro hnone
    exact h.idle (by omega)

/-- What moving on by one sample does. -/
inductive Moves (p : Pacer) (q phase : Nat) : Bool → Pacer → Prop where
  | idles {d : Pacer} : p.pending = 0 → d.pending = 0 →
      d.Measured q (min (phase + 32) (2 * q - 32)) → Moves p q phase false d
  | waits {d : Pacer} : 0 < p.pending → phase + 32 < p.gap q → d.pending = p.pending →
      d.Measured q (phase + 32) → Moves p q phase false d
  | releases {d : Pacer} : 0 < p.pending → p.gap q ≤ phase + 32 → d.pending = p.pending - 1 →
      d.Measured q (min (phase + 32 - p.gap q) 32) → Moves p q phase true d

theorem gap_range (p : Pacer) (q : Nat) : q ≤ p.gap q ∧ p.gap q ≤ 2 * q := by
  unfold gap
  split
  · omega
  · omega

theorem Measured.moves (h : p.Measured q phase) {released : Bool} {d : Pacer}
    (hadvance : p.advance = (released, d)) : p.Moves q phase released d := by
  have hfits := h.fits
  have hlt := h.phase_lt
  have hpending := h.pending_le
  obtain ⟨hgaplow, hgaphigh⟩ := p.gap_range q
  have hnext : p.phase + 1.0 = dyadic (-5) (phase + 32) := by
    rw [h.phase_eq, one_eq, dyadic_add (fits_of_lt (by omega))]
  -- The cases of the pacer, each with its comparison carried over to natural numbers.
  by_cases hidle : p.pending = 0
  · have hphase : lesser (p.phase + 1.0) (p.samplesPerTick - 1.0)
        = dyadic (-5) (min (phase + 32) (2 * q - 32)) := by
      rw [hnext, h.interval, one_eq, dyadic_sub (fits_of_lt (by omega)) (by omega),
        lesser_dyadic (fits_of_lt (by omega)) (fits_of_lt (by omega))]
    have hidles : p.advance
        = (false, { p with phase := lesser (p.phase + 1.0) (p.samplesPerTick - 1.0) }) :=
      if_pos hidle
    obtain ⟨rfl, rfl⟩ := Prod.mk.inj (hidles.symm.trans hadvance)
    refine .idles hidle hidle ⟨hfits, h.interval, hphase, by omega, hpending, ?_⟩
    intro _
    omega
  · have hwaits : 0 < p.pending := Nat.pos_of_ne_zero hidle
    have hearly : p.phase + 1.0 < p.currentInterval ↔ phase + 32 < p.gap q := by
      rw [hnext, h.currentInterval_eq,
        dyadic_lt_iff (fits_of_lt (by omega)) (fits_of_lt (by omega))]
    by_cases hdue : phase + 32 < p.gap q
    · have hstays : p.advance = (false, { p with phase := p.phase + 1.0 }) :=
        (if_neg hidle).trans (if_pos (hearly.mpr hdue))
      obtain ⟨rfl, rfl⟩ := Prod.mk.inj (hstays.symm.trans hadvance)
      refine .waits hwaits hdue rfl ⟨hfits, h.interval, hnext, by omega, hpending, ?_⟩
      intro hnone
      exact absurd hnone hidle
    · have hphase : lesser (p.phase + 1.0 - p.currentInterval) 1.0
          = dyadic (-5) (min (phase + 32 - p.gap q) 32) := by
        rw [hnext, h.currentInterval_eq, dyadic_sub (fits_of_lt (by omega)) (by omega), one_eq,
          lesser_dyadic (fits_of_lt (by omega)) (fits_of_lt (by omega))]
      have hreleases : p.advance
          = (true,
              { p with
                phase := lesser (p.phase + 1.0 - p.currentInterval) 1.0
                pending := p.pending - 1
                consumed := p.consumed + 1
                applied := p.applied + 1 }) :=
        (if_neg hidle).trans (if_neg (fun hlt => hdue (hearly.mp hlt)))
      obtain ⟨rfl, rfl⟩ := Prod.mk.inj (hreleases.symm.trans hadvance)
      refine .releases hwaits (by omega) rfl ⟨hfits, h.interval, hphase, by omega, ?_, ?_⟩
      · show p.pending - 1 ≤ maxBacklog
        omega
      · intro _
        omega

end

/-! ### Runs -/

section
variable {p d : Pacer} {released : Bool} {q phase : Nat} {steps : List PacerStep}

theorem releases_advance (hadvance : p.advance = (released, d)) (rest : List PacerStep) :
    p.releases (.advance :: rest) = released :: d.releases rest := by
  rw [releases, hadvance]

theorem after_advance (hadvance : p.advance = (released, d)) (rest : List PacerStep) :
    p.after (.advance :: rest) = d.after rest := by
  rw [after_cons, step, hadvance]

/-- A run has a release or none for each of its samples. -/
theorem length_releases (p : Pacer) (steps : List PacerStep) :
    (p.releases steps).length = steps.count .advance := by
  induction steps generalizing p with
  | nil => rfl
  | cons step rest ih =>
    cases step with
    | observe issued => exact ih (p.observe issued)
    | advance => rw [releases, List.length_cons, ih, List.count_cons_self]

/-- Every run is measured. -/
theorem Measured.after (h : p.Measured q phase) (steps : List PacerStep) :
    ∃ phase', (p.after steps).Measured q phase' := by
  induction steps generalizing p phase with
  | nil => exact ⟨phase, h⟩
  | cons step rest ih =>
    cases step with
    | observe issued => exact ih (h.observe issued).1
    | advance =>
      rcases hadvance : p.advance with ⟨released, d⟩
      have hmoves := h.moves hadvance
      rw [after_advance hadvance]
      cases hmoves with
      | idles _ _ hnext => exact ih hnext
      | waits _ _ _ hnext => exact ih hnext
      | releases _ _ _ hnext => exact ih hnext

/-- However ticks arrive, none is released before the samples since the last release, or since the
start, come up to the shorter interval. -/
theorem Measured.le_of_release (h : p.Measured q phase) {j : Nat}
    (hj : (p.releases steps)[j]? = some true) : q ≤ phase + 32 * (j + 1) := by
  induction steps generalizing p phase j with
  | nil => simp [releases] at hj
  | cons step rest ih =>
    cases step with
    | observe issued => exact ih (h.observe issued).1 hj
    | advance =>
      rcases hadvance : p.advance with ⟨released, d⟩
      have hmoves := h.moves hadvance
      rw [releases_advance hadvance] at hj
      have hgap := p.gap_range q
      cases j with
      | zero =>
        obtain rfl : released = true := by simpa using hj
        cases hmoves with
        | releases _ hdue => omega
      | succ j =>
        -- No sample takes the phase further than by itself, and a release takes it back.
        rw [List.getElem?_cons_succ] at hj
        cases hmoves with
        | idles _ _ hnext =>
          have hlater := ih hnext hj
          omega
        | waits _ _ _ hnext =>
          have hlater := ih hnext hj
          omega
        | releases _ _ _ hnext =>
          have hlater := ih hnext hj
          omega

/-- A release leaves no more than one sample behind. -/
theorem Measured.releases_apart (h : p.Measured q phase) {i j : Nat} (hij : i < j)
    (hi : (p.releases steps)[i]? = some true) (hj : (p.releases steps)[j]? = some true) :
    q ≤ 32 * (j - i + 1) := by
  induction steps generalizing p phase i j with
  | nil => simp [releases] at hi
  | cons step rest ih =>
    cases step with
    | observe issued => exact ih (h.observe issued).1 hij hi hj
    | advance =>
      rcases hadvance : p.advance with ⟨released, d⟩
      have hmoves := h.moves hadvance
      rw [releases_advance hadvance] at hi hj
      obtain ⟨j, rfl⟩ : ∃ m, j = m + 1 := ⟨j - 1, by omega⟩
      rw [List.getElem?_cons_succ] at hj
      cases i with
      | zero =>
        -- The earlier of the two is here, and the phase behind it is at most one sample.
        obtain rfl : released = true := by simpa using hi
        cases hmoves with
        | releases _ _ _ hnext =>
          have hlater := hnext.le_of_release hj
          omega
      | succ i =>
        rw [List.getElem?_cons_succ] at hi
        rw [Nat.add_sub_add_right]
        have hbefore : i < j := Nat.lt_of_succ_lt_succ hij
        cases hmoves with
        | idles _ _ hnext => exact ih hnext hbefore hi hj
        | waits _ _ _ hnext => exact ih hnext hbefore hi hj
        | releases _ _ _ hnext => exact ih hnext hbefore hi hj

/-- With a tick waiting, a release comes once the samples come up to the longer interval. -/
theorem Measured.exists_release (h : p.Measured q phase) (hwaits : 0 < p.pending)
    (hlong : 2 * q ≤ phase + 32 * (p.releases steps).length) : true ∈ p.releases steps := by
  induction steps generalizing p phase with
  | nil =>
    have hlt := h.phase_lt
    change 2 * q ≤ phase + 32 * 0 at hlong
    omega
  | cons step rest ih =>
    cases step with
    | observe issued =>
      obtain ⟨hnext, hmore⟩ := h.observe issued
      exact ih hnext (Nat.lt_of_lt_of_le hwaits hmore) hlong
    | advance =>
      rcases hadvance : p.advance with ⟨released, d⟩
      have hmoves := h.moves hadvance
      rw [releases_advance hadvance] at hlong ⊢
      rw [List.length_cons] at hlong
      -- While the tick waits, the phase and the samples still to come make up the same sum.
      cases hmoves with
      | idles hnone => omega
      | waits _ _ hsame hnext =>
        refine List.mem_cons_of_mem _ (ih hnext (by omega) ?_)
        omega
      | releases => exact List.mem_cons_self

/-! ### Runs in which no more ticks are observed -/

/-- The steps observe no ticks that are new. -/
def Quiet (p : Pacer) (steps : List PacerStep) : Prop :=
  ∀ s ∈ steps, s = .advance ∨ s = .observe p.seen

theorem seen_advance (hadvance : p.advance = (released, d)) : d.seen = p.seen := by
  obtain ⟨_, heq⟩ | ⟨_, _, heq⟩ := p.advance_cases
  · rw [hadvance] at heq
    exact congrArg (fun next => next.2.seen) heq
  · rw [hadvance] at heq
    exact congrArg (fun next => next.2.seen) heq

theorem Quiet.tail (hquiet : p.Quiet (.advance :: steps)) (hadvance : p.advance = (released, d)) :
    d.Quiet steps := by
  intro s hs
  rw [seen_advance hadvance]
  exact hquiet s (List.mem_cons_of_mem _ hs)

/-- Observing the same count again changes nothing. -/
theorem observe_seen (h : p.pending ≤ maxBacklog) : p.observe p.seen = p := by
  have hword : maxBacklog ≤ maxWord := by decide
  have hsame : min (p.pending + (p.seen - p.seen).toNat) maxWord = p.pending := by
    rw [UInt32.sub_self]
    show min (p.pending + 0) maxWord = p.pending
    omega
  unfold observe
  dsimp only
  rw [hsame, Nat.sub_eq_zero_of_le h]
  simp

/-- What holds of one step for each kind holds of a quiet run: its observations change nothing. -/
theorem Quiet.cases_head {s : PacerStep} (hquiet : p.Quiet (s :: steps))
    (hpending : p.pending ≤ maxBacklog) :
    s = .advance ∨ p.Quiet steps ∧ p.after (s :: steps) = p.after steps ∧
      p.releases (s :: steps) = p.releases steps := by
  obtain hadvance | hobserve := hquiet s List.mem_cons_self
  · exact Or.inl hadvance
  · rw [hobserve, after_cons, step, releases, observe_seen hpending]
    exact Or.inr ⟨fun t ht => hquiet t (List.mem_cons_of_mem _ ht), rfl, rfl⟩

/-- A pacer with nothing to release rests at one sample short of an interval. -/
theorem Measured.rests (h : p.Measured q phase) (hnone : p.pending = 0) (hquiet : p.Quiet steps) :
    (p.after steps).Measured q (min (phase + 32 * (p.releases steps).length) (2 * q - 32)) ∧
      (p.after steps).pending = 0 := by
  induction steps generalizing p phase with
  | nil =>
    have hidle := h.idle hnone
    have hsame : min (phase + 32 * 0) (2 * q - 32) = phase := by omega
    show p.Measured q (min (phase + 32 * 0) (2 * q - 32)) ∧ p.pending = 0
    rw [hsame]
    exact ⟨h, hnone⟩
  | cons s rest ih =>
    obtain rfl | ⟨hrest, hafter, hreleases⟩ := hquiet.cases_head h.pending_le
    · rcases hadvance : p.advance with ⟨released, d⟩
      have hmoves := h.moves hadvance
      rw [after_advance hadvance, releases_advance hadvance, List.length_cons]
      cases hmoves with
      | idles _ hstill hnext =>
        obtain ⟨hmeasured, hpending⟩ := ih hnext hstill (hquiet.tail hadvance)
        refine ⟨?_, hpending⟩
        have hphase : min (phase + 32 * ((d.releases rest).length + 1)) (2 * q - 32)
            = min (min (phase + 32) (2 * q - 32) + 32 * (d.releases rest).length)
                (2 * q - 32) := by omega
        rw [hphase]
        exact hmeasured
      | waits hwaits => omega
      | releases hwaits => omega
    · rw [hafter, hreleases]
      exact ih h hnone hrest

theorem Quiet.of_append {more : List PacerStep} (hquiet : p.Quiet (steps ++ more)) :
    p.Quiet steps :=
  fun s hs => hquiet s (List.mem_append_left more hs)

theorem Measured.pending_after_le (h : p.Measured q phase) (hquiet : p.Quiet steps) :
    (p.after steps).pending ≤ p.pending := by
  induction steps generalizing p phase with
  | nil => exact Nat.le_refl _
  | cons s rest ih =>
    obtain rfl | ⟨hrest, hafter, -⟩ := hquiet.cases_head h.pending_le
    · rcases hadvance : p.advance with ⟨released, d⟩
      rw [after_advance hadvance]
      cases h.moves hadvance with
      | idles hnone hstill hnext =>
        rw [hnone, ← hstill]
        exact ih hnext (hquiet.tail hadvance)
      | waits _ _ hsame hnext =>
        rw [← hsame]
        exact ih hnext (hquiet.tail hadvance)
      | releases hwaits hdue hone hnext =>
        have hle := ih hnext (hquiet.tail hadvance)
        omega
    · rw [hafter]
      exact ih h hrest

/-- A backlog of which each tick has an interval's time is released whole. -/
theorem Measured.drained (h : p.Measured q phase) (hquiet : p.Quiet steps) {wait : Nat}
    (hwait : 2 * q ≤ 32 * wait)
    (hlong : p.pending * (32 * wait) ≤ phase + 32 * (p.releases steps).length) :
    (p.after steps).pending = 0 ∧ (p.releases steps).count true = p.pending := by
  induction steps generalizing p phase with
  | nil =>
    have hlt := h.phase_lt
    have hnone : p.pending = 0 := by
      by_contra hwaits
      have hone := Nat.le_mul_of_pos_left (32 * wait) (Nat.pos_of_ne_zero hwaits)
      change p.pending * (32 * wait) ≤ phase + 32 * 0 at hlong
      omega
    exact ⟨hnone, hnone.symm⟩
  | cons s rest ih =>
    obtain rfl | ⟨hrest, hafter, hreleases⟩ := hquiet.cases_head h.pending_le
    · rcases hadvance : p.advance with ⟨released, d⟩
      have hmoves := h.moves hadvance
      rw [releases_advance hadvance, List.length_cons] at hlong
      rw [after_advance hadvance, releases_advance hadvance, List.count_cons]
      have hgap := p.gap_range q
      have hlt := h.phase_lt
      cases hmoves with
      | idles hnone hstill hnext =>
        obtain ⟨hdrained, hcount⟩ := ih hnext (hquiet.tail hadvance) (by
          rw [hstill, Nat.zero_mul]
          exact Nat.zero_le _)
        refine ⟨hdrained, ?_⟩
        rw [hcount, hstill, hnone]
        rfl
      | waits _ _ hsame hnext =>
        rw [← hsame] at hlong ⊢
        exact ih hnext (hquiet.tail hadvance) (by omega)
      | releases hwaits hdue hone hnext =>
        -- What the tick took off the backlog is more than the samples it took.
        have hless : d.pending * (32 * wait) + 32 * wait = p.pending * (32 * wait) := by
          rw [hone, ← Nat.succ_mul, Nat.succ_eq_add_one, Nat.sub_add_cancel hwaits]
        obtain ⟨hnone, hcount⟩ := ih hnext (hquiet.tail hadvance) (by omega)
        refine ⟨hnone, ?_⟩
        rw [hcount, hone]
        exact Nat.sub_add_cancel hwaits
    · rw [hafter, hreleases]
      rw [hreleases] at hlong
      exact ih h hrest hlong

end

/-! ### The schedule of ticks that are observed together -/

/-- The sample, counted from the observation, before which tick `i` of those that an idle pacer
observes together is to be released. -/
def due (rate i : Nat) : Nat := (i * rate) ⌈/⌉ 240

theorem due_le_iff (q i n : Nat) : due (15 * q) i ≤ n ↔ i * q ≤ 16 * n := by
  rw [due, ceilDiv_le_iff_le_mul (by decide), Nat.mul_left_comm]
  omega

theorem due_le_due (q : Nat) {i j : Nat} (h : i ≤ j) : due (15 * q) i ≤ due (15 * q) j := by
  rw [due_le_iff]
  exact Nat.le_trans (Nat.mul_le_mul_right q h) ((due_le_iff q j _).mp (Nat.le_refl _))

/-- The backlog never gets so long that ticks are released faster. -/
def Unhurried (p : Pacer) (steps : List PacerStep) : Prop :=
  ∀ done more, steps = done ++ more → (p.after done).pending ≤ catchUpBacklog

/-- After `n` samples, `r` of the `k` ticks that were observed together have been released, each
when it was due. If `alone`, no other tick has been observed since. -/
structure OnSchedule (p : Pacer) (q k n r : Nat) (alone : Prop) : Prop where
  le : r ≤ k
  waiting : k ≤ r + p.pending
  alone_eq : alone → r + p.pending = k
  measured : ∃ phase, p.Measured q phase ∧
    (r < k → phase + 32 + 2 * (r * q) = 32 * n + 2 * q)
  finished : r = k → alone ∨ due (15 * q) (k - 1) < n

section
variable {p d : Pacer} {released : Bool} {q k n r : Nat} {alone : Prop} {steps : List PacerStep}

theorem Unhurried.head (h : p.Unhurried steps) : p.pending ≤ catchUpBacklog := h [] steps rfl

theorem Unhurried.tail {s : PacerStep} (h : p.Unhurried (s :: steps)) :
    (p.step s).Unhurried steps := by
  intro done more hsplit
  exact h (s :: done) more (by rw [hsplit]; rfl)

/-- More ticks behind them do not change when they are due. -/
theorem OnSchedule.observe (h : p.OnSchedule q k n r alone) {issued : UInt32}
    (hquiet : alone → issued = p.seen) : (p.observe issued).OnSchedule q k n r alone := by
  obtain ⟨phase, hmeasured, hphase⟩ := h.measured
  obtain ⟨hnext, hmore⟩ := hmeasured.observe issued
  have hwaiting := h.waiting
  refine ⟨h.le, by omega, ?_, ⟨phase, hnext, hphase⟩, h.finished⟩
  intro halone
  rw [hquiet halone, observe_seen hmeasured.pending_le]
  exact h.alone_eq halone

/-- While one of them waits, a sample releases it if it is due before that sample, and else only
counts. -/
theorem OnSchedule.advance (h : p.OnSchedule q k n r alone) (hfew : p.pending ≤ catchUpBacklog)
    (hadvance : p.advance = (released, d)) (hr : r < k) :
    (released = true ∧ due (15 * q) r = n ∧ d.OnSchedule q k (n + 1) (r + 1) alone) ∨
      (released = false ∧ n < due (15 * q) r ∧ d.OnSchedule q k (n + 1) r alone) := by
  obtain ⟨phase, hmeasured, hschedule⟩ := h.measured
  have hphase := hschedule hr
  have hlt := hmeasured.phase_lt
  have hwaiting := h.waiting
  have hgap : p.gap q = 2 * q := if_neg (Nat.not_lt.mpr hfew)
  have hdue := due_le_iff q r n
  cases hmeasured.moves hadvance with
  | idles hnone => omega
  | waits _ hearly hsame hnext =>
    rw [hgap] at hearly
    refine Or.inr ⟨rfl, ?_, h.le, by omega, ?_, ⟨phase + 32, hnext, ?_⟩, ?_⟩
    · rw [← Nat.not_le, hdue]
      omega
    · rw [hsame]
      exact h.alone_eq
    · intro _
      omega
    · intro hall
      omega
  | releases hpending hlate hone hnext =>
    rw [hgap] at hlate hnext
    -- One sample earlier the phase was short of the interval.
    have hprevious : ∀ m, m + 1 = n → ¬ due (15 * q) r ≤ m := by
      intro m hm
      rw [due_le_iff]
      omega
    have hnow : due (15 * q) r = n := by
      have hreached : due (15 * q) r ≤ n := hdue.mpr (by omega)
      by_contra hearlier
      exact hprevious (n - 1) (by omega) (by omega)
    have hone' : (r + 1) * q = r * q + q := Nat.succ_mul r q
    refine Or.inl ⟨rfl, hnow, hr, by omega, ?_, ⟨_, hnext, ?_⟩, ?_⟩
    · intro halone
      have := h.alone_eq halone
      omega
    · intro _
      omega
    · intro hall
      rw [← hall, Nat.add_sub_cancel, hnow]
      exact Or.inr (Nat.lt_succ_self n)

/-- Once all have been released and no other waits, nothing is released. -/
theorem OnSchedule.rest (h : p.OnSchedule q k n k alone) (halone : alone)
    (hadvance : p.advance = (released, d)) :
    released = false ∧ d.OnSchedule q k (n + 1) k alone := by
  obtain ⟨phase, hmeasured, -⟩ := h.measured
  have hall := h.alone_eq halone
  cases hmeasured.moves hadvance with
  | idles _ hnone hnext =>
    refine ⟨rfl, Nat.le_refl k, by omega, fun _ => by omega, ⟨_, hnext, ?_⟩,
      fun _ => Or.inl halone⟩
    intro hmore
    omega
  | waits hpending => omega
  | releases hpending => omega

/-- The samples before which ticks are released are those at which the rest of the `k` are due, to
the last of them, and if no others are observed, from then on. -/
theorem OnSchedule.releases_iff (h : p.OnSchedule q k n r alone) (hquiet : alone → p.Quiet steps)
    (hfew : p.Unhurried steps) {j : Nat} (hj : j < (p.releases steps).length)
    (hbefore : alone ∨ n + j ≤ due (15 * q) (k - 1)) :
    (p.releases steps)[j]? = some true ↔ ∃ i, r ≤ i ∧ i < k ∧ n + j = due (15 * q) i := by
  induction steps generalizing p n r j with
  | nil => exact absurd hj (Nat.not_lt_zero j)
  | cons s rest ih =>
    cases s with
    | observe issued =>
      have hsame : alone → issued = p.seen := by
        intro halone
        obtain hadvance | hobserve := hquiet halone _ List.mem_cons_self
        · nomatch hadvance
        · exact PacerStep.observe.inj hobserve
      refine ih (h.observe hsame) ?_ hfew.tail hj hbefore
      intro halone t ht
      have hseen : (p.observe issued).seen = p.seen := hsame halone
      rw [hseen]
      exact hquiet halone t (List.mem_cons_of_mem _ ht)
    | advance =>
      rcases hadvance : p.advance with ⟨released, d⟩
      have hnext : d.Unhurried rest := by
        have htail := hfew.tail
        rwa [step, hadvance] at htail
      rw [releases_advance hadvance] at hj ⊢
      have hrest : alone → d.Quiet rest := fun halone => (hquiet halone).tail hadvance
      by_cases hr : r < k
      · obtain ⟨rfl, hnow, hon⟩ | ⟨rfl, hlater, hon⟩ := h.advance hfew.head hadvance hr
        · cases j with
          | zero => exact iff_of_true rfl ⟨r, Nat.le_refl r, hr, hnow.symm⟩
          | succ j =>
            rw [List.getElem?_cons_succ, ih hon hrest hnext (Nat.lt_of_succ_lt_succ hj)
              (hbefore.imp_right fun hle => by omega)]
            -- The tick that was just released is not due again.
            constructor
            · rintro ⟨i, hi, hik, hdue⟩
              exact ⟨i, by omega, hik, by omega⟩
            · rintro ⟨i, hi, hik, hdue⟩
              have hne : i ≠ r := by
                rintro rfl
                omega
              exact ⟨i, by omega, hik, by omega⟩
        · cases j with
          | zero =>
            refine iff_of_false (by simp) ?_
            rintro ⟨i, hi, -, hdue⟩
            have hfirst := due_le_due q hi
            omega
          | succ j =>
            rw [List.getElem?_cons_succ, ih hon hrest hnext (Nat.lt_of_succ_lt_succ hj)
              (hbefore.imp_right fun hle => by omega), Nat.add_right_comm, Nat.add_assoc]
      · -- All have been released. Before the last is due that cannot be, so no other tick came.
        obtain rfl : r = k := by
          have := h.le
          omega
        have halone : alone := by
          rcases h.finished rfl with halone | hlast
          · exact halone
          · exact hbefore.resolve_right (by omega)
        obtain ⟨rfl, hon⟩ := h.rest halone hadvance
        cases j with
        | zero =>
          refine iff_of_false (by simp) ?_
          rintro ⟨i, hi, hik, -⟩
          omega
        | succ j =>
          rw [List.getElem?_cons_succ, ih hon hrest hnext (Nat.lt_of_succ_lt_succ hj)
            (Or.inl halone), Nat.add_right_comm, Nat.add_assoc]

/-- New ticks that a backlog has room for are added to it. -/
theorem pending_observe_add (h : p.pending + k ≤ maxBacklog) :
    (p.observe (p.seen + UInt32.ofNat k)).pending = p.pending + k := by
  have hbacklog : maxBacklog = 240 := rfl
  have hword : maxWord = 2 ^ 32 - 1 := rfl
  have hnew : (p.seen + UInt32.ofNat k - p.seen).toNat = k := by
    rw [UInt32.add_comm, UInt32.add_sub_cancel, UInt32.toNat_ofNat']
    omega
  show min (p.pending + (p.seen + UInt32.ofNat k - p.seen).toNat) maxWord
    - (min (p.pending + (p.seen + UInt32.ofNat k - p.seen).toNat) maxWord - maxBacklog) = _
  rw [hnew]
  omega

/-- Ticks that a rested pacer observes are on schedule before the first sample. -/
theorem Measured.onSchedule (h : p.Measured q (2 * q - 32)) (hnone : p.pending = 0)
    (hk : k ≤ catchUpBacklog) (hsome : 0 < k ∨ alone) :
    (p.observe (p.seen + UInt32.ofNat k)).OnSchedule q k 0 0 alone := by
  have hfits := h.fits
  have hbacklog : catchUpBacklog = 24 := rfl
  have hroom : maxBacklog = 240 := rfl
  have hpending : (p.observe (p.seen + UInt32.ofNat k)).pending = k := by
    rw [pending_observe_add (by omega), hnone, Nat.zero_add]
  refine ⟨Nat.zero_le k, by omega, fun _ => by omega, ⟨_, (h.observe _).1, ?_⟩, ?_⟩
  · intro _
    omega
  · intro hall
    exact Or.inl (hsome.resolve_left (by omega))

end

/-- Frame ticks are released at the right samples. Let `R` be a multiple of 15 from 480 to
`2 ^ 20`, and take any run of a pacer at `R` samples a second.

* Its phase and its interval are whole thirty-seconds of a sample.
* Two releases are at least `⌈R / 480⌉ - 1` samples apart.
* If a tick waits, the next `⌈R / 240⌉` samples bring a release, whatever else is observed. If no
  more ticks are observed, `⌈R / 240⌉` samples for each tick that waits see all of them released.
* Take a pacer that is new, or that has had nothing to release for `R / 240` samples, and let it
  observe `k` ticks together, at most twenty-four. Counted from there, they are released before the
  samples `⌈i * R / 240⌉` for `i` below `k` and, if no more ticks are observed, before no others.
  More ticks behind them change nothing as long as the backlog is not over twenty-four. -/
theorem ticks_released_on_time (rate : UInt32) (hmultiple : 15 ∣ rate.toNat)
    (hlow : 480 ≤ rate.toNat) (hhigh : rate.toNat ≤ 2 ^ 20) (steps : List PacerStep) :
    let R := rate.toNat
    let p := (create rate).after steps
    (∃ phase, p.phase = dyadic (-5) phase ∧ p.samplesPerTick = dyadic (-5) (2 * (R / 15))) ∧
    (∀ i j, i < j → ((create rate).releases steps)[i]? = some true →
      ((create rate).releases steps)[j]? = some true → R ⌈/⌉ 480 - 1 ≤ j - i) ∧
    (∀ more, 0 < p.pending → R ⌈/⌉ 240 ≤ (p.releases more).length → true ∈ p.releases more) ∧
    (∀ more, p.Quiet more → p.pending * (R ⌈/⌉ 240) ≤ (p.releases more).length →
      (p.after more).pending = 0 ∧ (p.releases more).count true = p.pending) ∧
    (∀ idle k more, p.pending = 0 → p.Quiet idle →
      steps = [] ∨ R ≤ 240 * (p.releases idle).length → k ≤ 24 →
      let rested := p.after idle
      let d := rested.observe (rested.seen + UInt32.ofNat k)
      (d.Quiet more → ∀ j < (d.releases more).length,
        (d.releases more)[j]? = some true ↔ ∃ i < k, j = (i * R) ⌈/⌉ 240) ∧
      (0 < k → (∀ done rest, more = done ++ rest → (d.after done).pending ≤ 24) →
        ∀ j < (d.releases more).length, j ≤ ((k - 1) * R) ⌈/⌉ 240 →
          ((d.releases more)[j]? = some true ↔ ∃ i < k, j = (i * R) ⌈/⌉ 240))) := by
  intro R p
  obtain ⟨q, hq⟩ := hmultiple
  have hR : R = 15 * q := hq
  have hcreate : (create rate).Measured q (2 * q - 32) := measured_create hq (by omega) (by omega)
  obtain ⟨phase, hmeasured⟩ : ∃ phase, p.Measured q phase := hcreate.after steps
  have hwait : q ≤ 16 * (R ⌈/⌉ 240) := by
    have hceil := le_smul_ceilDiv (β := Nat) (b := R) (show 0 < 240 by decide)
    rw [smul_eq_mul] at hceil
    omega
  refine ⟨⟨phase, hmeasured.phase_eq, ?_⟩, ?_, ?_, ?_, ?_⟩
  · rw [hR, Nat.mul_div_cancel_left q (by decide)]
    exact hmeasured.interval
  · intro i j hij hi hj
    have hapart := hcreate.releases_apart hij hi hj
    have hceil : R ⌈/⌉ 480 ≤ j - i + 1 := by
      rw [ceilDiv_le_iff_le_mul (by decide)]
      omega
    omega
  · intro more hwaits hlong
    exact hmeasured.exists_release hwaits (by omega)
  · intro more hquiet hlong
    have hinterval : 2 * q ≤ 32 * (R ⌈/⌉ 240) := by omega
    refine hmeasured.drained hquiet hinterval ?_
    rw [Nat.mul_left_comm]
    omega
  · intro idle k more hnone hquiet hrested hk rested d
    obtain ⟨hrest, hstill⟩ : rested.Measured q (2 * q - 32) ∧ rested.pending = 0 := by
      obtain hnew | hlong := hrested
      · subst hnew
        obtain ⟨hrest, hstill⟩ := hcreate.rests hnone hquiet
        rw [Nat.min_eq_right (Nat.le_add_right _ _)] at hrest
        exact ⟨hrest, hstill⟩
      · obtain ⟨hrest, hstill⟩ := hmeasured.rests hnone hquiet
        rw [Nat.min_eq_right (by omega)] at hrest
        exact ⟨hrest, hstill⟩
    have hdue : ∀ i, (i * R) ⌈/⌉ 240 = due (15 * q) i := by
      intro i
      rw [hR, due]
    simp only [hdue]
    refine ⟨?_, ?_⟩
    · intro hquiet j hj
      have hon : d.OnSchedule q k 0 0 True := hrest.onSchedule hstill hk (Or.inr trivial)
      have hfew : d.Unhurried more := by
        intro done later hsplit
        obtain ⟨phase, hd, -⟩ := hon.measured
        have hle := hd.pending_after_le (hsplit ▸ hquiet).of_append
        have hall := hon.alone_eq trivial
        exact Nat.le_trans hle (show d.pending ≤ 24 by omega)
      simpa using hon.releases_iff (fun _ => hquiet) hfew hj (Or.inl trivial)
    · intro hsome hfew j hj hbefore
      have hon : d.OnSchedule q k 0 0 False := hrest.onSchedule hstill hk (Or.inl hsome)
      simpa using hon.releases_iff False.elim hfew hj (Or.inr (by omega))

/-- At 495 samples a second a tick takes two samples and a sixteenth. A new pacer that observes
three ticks releases one within three samples and all of them within nine, before samples 0, 3 and
5. Three more that it observes five samples later are released before samples 0, 3 and 5 again. -/
theorem three_ticks_on_time :
    let p := (create 495).observe (0 + UInt32.ofNat 3)
    let drained := (create 495).after ([.observe 3] ++ List.replicate 9 .advance)
    let rested := drained.after (List.replicate 5 .advance)
    let next := rested.observe (rested.seen + UInt32.ofNat 3)
    true ∈ p.releases (List.replicate 3 .advance) ∧ drained.pending = 0 ∧
      (∀ j < (p.releases (List.replicate 9 .advance)).length,
        (p.releases (List.replicate 9 .advance))[j]? = some true ↔ j = 0 ∨ j = 3 ∨ j = 5) ∧
      ∀ j < (next.releases (List.replicate 9 .advance)).length,
        (next.releases (List.replicate 9 .advance))[j]? = some true ↔ j = 0 ∨ j = 3 ∨ j = 5 := by
  have hquiet : ∀ (q : Pacer) (n : Nat), q.Quiet (List.replicate n .advance) :=
    fun q n s hs => Or.inl (List.eq_of_mem_replicate hs)
  have hsamples : ∀ j,
      (∃ i < 3, j = (i * (495 : UInt32).toNat) ⌈/⌉ 240) ↔ j = 0 ∨ j = 3 ∨ j = 5 := by
    intro j
    constructor
    · rintro ⟨i, hi, rfl⟩
      interval_cases i
      · decide
      · decide
      · decide
    · rintro (rfl | rfl | rfl)
      · exact ⟨0, by decide, by decide⟩
      · exact ⟨1, by decide, by decide⟩
      · exact ⟨2, by decide, by decide⟩
  obtain ⟨-, -, -, -, hnew⟩ :=
    ticks_released_on_time 495 (by decide) (by decide) (by decide) []
  obtain ⟨-, -, hstretch, hdrain, -⟩ :=
    ticks_released_on_time 495 (by decide) (by decide) (by decide) [.observe 3]
  obtain ⟨-, -, -, -, hrested⟩ :=
    ticks_released_on_time 495 (by decide) (by decide) (by decide)
      ([.observe 3] ++ List.replicate 9 .advance)
  have hdrained : ((create 495).after ([.observe 3] ++ List.replicate 9 .advance)).pending = 0 := by
    rw [after_append]
    exact (hdrain (List.replicate 9 .advance) (hquiet _ 9) (by decide)).1
  obtain ⟨hfirst, -⟩ := hnew [] 3 (List.replicate 9 .advance) rfl (hquiet _ 0) (Or.inl rfl)
    (by decide)
  obtain ⟨hagain, -⟩ := hrested (List.replicate 5 .advance) 3 (List.replicate 9 .advance) hdrained
    (hquiet _ 5) (Or.inr (by rw [length_releases]; decide)) (by decide)
  refine ⟨hstretch (List.replicate 3 .advance) (by decide) (by decide), hdrained, ?_, ?_⟩
  · exact fun j hj => (hfirst (hquiet _ 9) j hj).trans (hsamples j)
  · exact fun j hj => (hagain (hquiet _ 9) j hj).trans (hsamples j)

end Pacer

end Chiptune
