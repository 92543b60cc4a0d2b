import Chiptune.Proofs.Relay.Run

/-!
# `Chiptune.Proofs.Relay.HoldLast`: the relay repeats the last level of a queue

A relay plays what was queued, in order and each sample once, and repeats the last level when
nothing is queued. `RelayLog.Explains` says so of a single entry of a log, from nothing but the
entries before it: a frame that takes a sample takes the oldest that has not gone, one that
repeats a level finds all of them gone, and a fill discards what waits exactly when there was a
reset since the last fill.

Resets are split over both sides. Switches and counters follow at once, queue and level with
the next fill, which compares two counts that wrap at 32 bits. `RelayLog.Kept` is the invariant
that holds a relay and its log together in the meantime.

* `Kept.queues`, `Kept.begin`, `Kept.repeats`, `Kept.takes`: relay and log stay together when
  samples are queued, when a fill begins, and with each of its frames.
* `Kept.step`, `kept_run`: they do so under every operation, and over a run.
* `Relay.hold_last`: the main statement, over every run of a new relay.
-/

set_option autoImplicit false

namespace Chiptune

namespace RelayEvent

/-- The sample that the entry queues. -/
def queued? : RelayEvent → Option Int16
  | queued sample => some sample
  | _ => none

/-- The samples that go with the entry. -/
def gone : RelayEvent → List Int16
  | taken level => [level]
  | filled (some lost) => lost
  | _ => []

/-- The level that the entry plays. -/
def level? : RelayEvent → Option Int16
  | taken level | repeated level => some level
  | _ => none

/-- The level that the entry leaves behind, if it touches it: what it plays, or none at all. -/
def left? : RelayEvent → Option Int16
  | taken level | repeated level => some level
  | filled (some _) => some 0
  | _ => none

/-- Whether the counters start over. -/
def restartsCounters : RelayEvent → Bool
  | reset | countersReset => true
  | _ => false

/-- Whether the entry is a fill. -/
def isFill : RelayEvent → Bool
  | filled _ => true
  | _ => false

/-- Whether the entry is a frame on an empty queue. -/
def isUnderrun : RelayEvent → Bool
  | repeated _ => true
  | _ => false

/-- Whether the entry is a sample on a full queue. -/
def isOverrun : RelayEvent → Bool
  | refused => true
  | _ => false

end RelayEvent

/-- Whether the operation is a fill. -/
def RelayOp.isFill : RelayOp → Bool
  | .fill _ => true
  | _ => false

/-- Resets since the last fill, of operations with the latest first. -/
def RelayOp.resetsPending (past : List RelayOp) : Nat :=
  (past.takeWhile fun op => !op.isFill).count .reset

theorem RelayOp.resetsPending_cons (op : RelayOp) (past : List RelayOp) :
    resetsPending (op :: past)
      = if op.isFill then 0 else resetsPending past + if op = .reset then 1 else 0 := by
  cases op with
  | fill stale => rfl
  | _ => simp [resetsPending, isFill]

theorem RelayOp.resetsPending_le_length (past : List RelayOp) :
    resetsPending past ≤ past.length :=
  List.count_le_length.trans (List.takeWhile_sublist _).length_le

namespace RelayLog

variable {log : List RelayEvent} {event : RelayEvent}

/-- All samples queued, in order. -/
def queued (log : List RelayEvent) : List Int16 := (log.filterMap RelayEvent.queued?).reverse

/-- All samples gone, in order. -/
def gone (log : List RelayEvent) : List Int16 := log.reverse.flatMap RelayEvent.gone

/-- All levels played, in order. -/
def levels (log : List RelayEvent) : List Int16 := (log.filterMap RelayEvent.level?).reverse

/-- The level to repeat. -/
def lastLevel (log : List RelayEvent) : Int16 := (log.findSome? RelayEvent.left?).getD 0

/-- Resets since the last fill. -/
def resetsPending (log : List RelayEvent) : Nat :=
  (log.takeWhile fun event => !event.isFill).count .reset

/-- Entries of a kind since the counters started over. -/
def counted (kind : RelayEvent → Bool) (log : List RelayEvent) : Nat :=
  (log.takeWhile fun event => !event.restartsCounters).countP kind

/-- What an entry says of a queue for `limit` samples is right after the entries before it. -/
def Explains (limit : Nat) (past : List RelayEvent) : RelayEvent → Prop
  | .queued _ => (queued past).length < (gone past).length + limit
  | .refused => (queued past).length = (gone past).length + limit
  | .reset | .countersReset => True
  | .filled none => resetsPending past = 0
  | .filled (some lost) => resetsPending past ≠ 0 ∧ queued past = gone past ++ lost
  | .taken level => ∃ rest, queued past = gone past ++ level :: rest
  | .repeated level => queued past = gone past ∧ level = lastLevel past

/-- Every entry of the log is right. -/
def Explained (limit : Nat) (log : List RelayEvent) : Prop :=
  ∀ event past, event :: past <:+ log → Explains limit past event

theorem explained_nil (limit : Nat) : Explained limit [] := by
  intro event past h
  simp at h

theorem Explained.cons {limit : Nat} (h : Explained limit log)
    (hevent : Explains limit log event) : Explained limit (event :: log) := by
  intro other past hsuffix
  rcases List.suffix_cons_iff.mp hsuffix with heq | hlog
  · obtain ⟨rfl, rfl⟩ := List.cons.inj heq
    exact hevent
  · exact h other past hlog

theorem queued_cons (event : RelayEvent) (log : List RelayEvent) :
    queued (event :: log) = queued log ++ event.queued?.toList := by
  unfold queued
  cases hevent : event.queued? with
  | none => simp [hevent]
  | some sample => simp [hevent]

theorem gone_cons (event : RelayEvent) (log : List RelayEvent) :
    gone (event :: log) = gone log ++ event.gone := by
  simp [gone]

theorem gone_cons_of_nil (h : event.gone = []) : gone (event :: log) = gone log := by
  rw [gone_cons, h, List.append_nil]

theorem counted_cons_of_kind {kind : RelayEvent → Bool} (hstart : event.restartsCounters = false)
    (hkind : kind event = true) :
    UInt32.ofNat (counted kind (event :: log)) = UInt32.ofNat (counted kind log) + 1 := by
  have hcount : counted kind (event :: log) = counted kind log + 1 := by
    simp [counted, hstart, hkind]
  rw [hcount, UInt32.ofNat_add]
  rfl

theorem resetsPending_cons_reset (log : List RelayEvent) :
    resetsPending (.reset :: log) = resetsPending log + 1 := by
  simp [resetsPending, RelayEvent.isFill]

theorem levels_append (log past : List RelayEvent) :
    levels (log ++ past) = levels past ++ levels log := by
  simp [levels]

/-! ### Relay and log together -/

/-- The log is right, and the relay is as it says. -/
structure Kept (limit : Nat) (r : Relay) (log : List RelayEvent) : Prop where
  explained : Explained limit log
  waiting : queued log = gone log ++ r.ring.toList
  held : r.held = lastLevel log
  resets : r.resets = r.resetsSeen + UInt32.ofNat (resetsPending log)
  underruns : r.ring.underruns = UInt32.ofNat (counted RelayEvent.isUnderrun log)
  overruns : r.ring.overruns = UInt32.ofNat (counted RelayEvent.isOverrun log)
  limit_eq : r.ring.limit = limit
  fits : r.ring.toList.length ≤ limit

namespace Kept

variable {limit : Nat} {r : Relay}

theorem create (capacity : Nat) : Kept (capacity - 1) { ring := { capacity := capacity } } [] where
  explained := explained_nil _
  waiting := rfl
  held := rfl
  resets := rfl
  underruns := rfl
  overruns := rfl
  limit_eq := rfl
  fits := Nat.zero_le _

/-- A sample that fits comes behind those that wait. -/
theorem queue (h : Kept limit r log) {sample : Int16} {waiting : Queue Int16}
    (hwaiting : waiting.toList = r.ring.toList ++ [sample])
    (hspace : r.ring.toList.length < limit) :
    Kept limit { r with ring := { r.ring with queue := waiting } } (.queued sample :: log) where
  explained := by
    refine h.explained.cons ?_
    change (queued log).length < (gone log).length + limit
    rw [h.waiting, List.length_append]
    omega
  waiting := by
    rw [queued_cons, gone_cons, h.waiting]
    change _ = gone log ++ [] ++ waiting.toList
    rw [hwaiting, List.append_nil, List.append_assoc]
    rfl
  held := h.held
  resets := h.resets
  underruns := h.underruns
  overruns := h.overruns
  limit_eq := h.limit_eq
  fits := by
    change waiting.toList.length ≤ limit
    rw [hwaiting, List.length_append]
    exact hspace

/-- How a queue holds its samples does not matter. -/
theorem requeue (h : Kept limit r log) {waiting : Queue Int16}
    (hwaiting : waiting.toList = r.ring.toList) :
    Kept limit { r with ring := { r.ring with queue := waiting } } log where
  explained := h.explained
  waiting := h.waiting.trans (congrArg (gone log ++ ·) hwaiting.symm)
  held := h.held
  resets := h.resets
  underruns := h.underruns
  overruns := h.overruns
  limit_eq := h.limit_eq
  fits := (congrArg List.length hwaiting).trans_le h.fits

/-- Several samples come behind those that wait one after the other. -/
theorem queues (h : Kept limit r log) {n : Nat} {sample : Int16} {r' : Relay}
    (hqueues : r.Queues n sample r') :
    Kept limit r' (List.replicate n (.queued sample) ++ log) := by
  obtain ⟨waiting, rfl, hwaiting, hfits⟩ := hqueues
  -- The queue on the way is not one that the relay ever has, only one with the same samples.
  induction n generalizing waiting with
  | zero =>
    rw [List.replicate_zero, List.append_nil] at hwaiting
    exact h.requeue hwaiting
  | succ n ih =>
    have hlimit := h.limit_eq
    rw [Ring.space, Ring.available_eq_length, hlimit] at hfits
    have hn := ih (.ofList (r.ring.toList ++ List.replicate n sample)) (Queue.toList_ofList _)
      (by rw [Ring.space, Ring.available_eq_length, hlimit]; omega)
    rw [List.replicate_succ, List.cons_append]
    refine hn.queue ?_ ?_
    · rw [hwaiting, List.replicate_succ', ← List.append_assoc]
      change _ = (Queue.ofList _).toList ++ [sample]
      rw [Queue.toList_ofList]
    · change (Queue.ofList _).toList.length < limit
      rw [Queue.toList_ofList, List.length_append, List.length_replicate]
      omega

/-- A sample that is refused has found the queue full. -/
theorem refuse (h : Kept limit r log) (hfull : r.ring.isFull = true) :
    Kept limit { r with ring := { r.ring with overruns := r.ring.overruns + 1 } }
      (.refused :: log) where
  explained := by
    refine h.explained.cons ?_
    change (queued log).length = (gone log).length + limit
    have hlimit := (Ring.isFull_iff r.ring).mp hfull
    have hfits := h.fits
    rw [h.limit_eq] at hlimit
    rw [h.waiting, List.length_append]
    omega
  waiting := by
    rw [gone_cons_of_nil rfl]
    exact h.waiting
  held := h.held
  resets := h.resets
  underruns := h.underruns
  overruns := by
    rw [counted_cons_of_kind rfl rfl, ← h.overruns]
  limit_eq := h.limit_eq
  fits := h.fits

/-- A reset restores the counters and waits for the next fill. -/
theorem reset (h : Kept limit r log) : Kept limit r.reset.state (.reset :: log) where
  explained := h.explained.cons trivial
  waiting := by
    rw [gone_cons_of_nil rfl]
    exact h.waiting
  held := h.held
  resets := by
    rw [resetsPending_cons_reset, UInt32.ofNat_add, ← UInt32.add_assoc]
    change r.resets + 1 = _
    rw [h.resets]
    rfl
  underruns := rfl
  overruns := rfl
  limit_eq := h.limit_eq
  fits := h.fits

theorem resetCounters (h : Kept limit r log) :
    Kept limit r.resetCounters (.countersReset :: log) where
  explained := h.explained.cons trivial
  waiting := by
    rw [gone_cons_of_nil rfl]
    exact h.waiting
  held := h.held
  resets := h.resets
  underruns := rfl
  overruns := rfl
  limit_eq := h.limit_eq
  fits := h.fits

/-- The wrapped counts differ when there is a reset to see to, as long as there are not so many
that they meet again. -/
theorem resets_eq_iff (h : Kept limit r log) (hpending : resetsPending log < 2 ^ 32) :
    r.resets = r.resetsSeen ↔ resetsPending log = 0 := by
  have hwords := congrArg UInt32.toNat h.resets
  rw [UInt32.toNat_add, UInt32.toNat_ofNat'] at hwords
  have hseen := r.resetsSeen.toNat_lt
  rw [← UInt32.toNat_inj]
  omega

/-- A fill discards what waits, and the level, exactly when there was a reset since the last. -/
theorem begin (h : Kept limit r log) (hpending : resetsPending log < 2 ^ 32) :
    Kept limit r.acknowledgeReset
      (.filled (if r.resets = r.resetsSeen then none else some r.ring.toList) :: log) := by
  have hiff := h.resets_eq_iff hpending
  unfold Relay.acknowledgeReset
  by_cases hsame : r.resets = r.resetsSeen
  · rw [if_pos hsame, if_pos hsame]
    exact
      { explained := h.explained.cons (hiff.mp hsame)
        waiting := by
          rw [gone_cons_of_nil rfl]
          exact h.waiting
        held := h.held
        resets := hsame.trans (UInt32.add_zero _).symm
        underruns := h.underruns
        overruns := h.overruns
        limit_eq := h.limit_eq
        fits := h.fits }
  · rw [if_neg hsame, if_neg hsame]
    exact
      { explained := h.explained.cons ⟨fun hnone => hsame (hiff.mpr hnone), h.waiting⟩
        waiting := by
          rw [gone_cons]
          exact h.waiting.trans (List.append_nil _).symm
        held := rfl
        resets := (UInt32.add_zero _).symm
        underruns := h.underruns
        overruns := h.overruns
        limit_eq := h.limit_eq
        fits := Nat.zero_le _ }

/-- A frame on an empty queue repeats the level. -/
theorem repeats (h : Kept limit r log) (hempty : r.ring.toList = []) :
    Kept limit r.nextFrame.2 (.repeated r.nextFrame.2.held :: log) := by
  rw [Relay.nextFrame_of_nil hempty]
  exact
    { explained := by
        refine h.explained.cons ⟨?_, h.held⟩
        rw [h.waiting, hempty, List.append_nil]
      waiting := by
        rw [gone_cons_of_nil rfl]
        exact h.waiting
      held := rfl
      resets := h.resets
      underruns := by
        rw [counted_cons_of_kind rfl rfl, ← h.underruns]
      overruns := h.overruns
      limit_eq := h.limit_eq
      fits := h.fits }

/-- A frame on any other queue takes the oldest sample that waits. -/
theorem takes (h : Kept limit r log) {level : Int16} {rest : List Int16}
    (hlist : r.ring.toList = level :: rest) :
    Kept limit r.nextFrame.2 (.taken r.nextFrame.2.held :: log) := by
  obtain ⟨waiting, hnext, hrest⟩ := Relay.nextFrame_of_cons hlist
  have hqueued : queued log = gone log ++ level :: rest := by rw [h.waiting, hlist]
  have hfits := h.fits
  rw [hlist, ← hrest, List.length_cons] at hfits
  rw [hnext]
  exact
    { explained := h.explained.cons ⟨rest, hqueued⟩
      waiting := by
        rw [gone_cons, List.append_assoc]
        change queued log = gone log ++ level :: waiting.toList
        rw [hrest, hqueued]
      held := rfl
      resets := h.resets
      underruns := h.underruns
      overruns := h.overruns
      limit_eq := h.limit_eq
      fits := Nat.le_of_succ_le hfits }

theorem frames (h : Kept limit r log) (n : Nat) :
    Kept limit (produce Relay.nextFrame n r).2 (r.framesNoted n ++ log) := by
  induction n generalizing r log with
  | zero => exact h
  | succ n ih =>
    rw [produce_succ, Relay.framesNoted]
    dsimp only
    rw [List.append_assoc]
    refine ih ?_
    cases hlist : r.ring.toList with
    | nil =>
      have hempty : r.ring.isEmpty = true := by
        rw [Ring.isEmpty, Ring.available_eq_length, hlist]
        rfl
      rw [if_pos hempty]
      exact h.repeats hlist
    | cons level rest =>
      have hempty : r.ring.isEmpty = false := by
        rw [Ring.isEmpty, Ring.available_eq_length, hlist]
        rfl
      rw [hempty, if_neg Bool.false_ne_true]
      exact h.takes hlist

theorem fill (h : Kept limit r log) (hpending : resetsPending log < 2 ^ 32) (stale : List Frame) :
    Kept limit (RelayOp.run (.fill stale) r) (RelayOp.noted r (.fill stale) ++ log) := by
  have hbegin := h.begin hpending
  rw [RelayOp.run, Relay.fill_eq, RelayOp.noted]
  dsimp only
  rw [List.append_assoc]
  cases r.enabled with
  | false => exact hbegin
  | true => exact hbegin.frames stale.length

theorem write (h : Kept limit r log) (sample : UInt8) :
    Kept limit (RelayOp.run (.write sample) r) (RelayOp.noted r (.write sample) ++ log) := by
  rw [RelayOp.run, RelayOp.noted]
  cases henabled : r.enabled with
  | false =>
    rw [Relay.writeSample_of_disabled sample henabled]
    exact h
  | true =>
    cases hfull : r.ring.isFull with
    | false =>
      obtain ⟨htaken, hqueues⟩ := Relay.writeSample_of_space sample henabled hfull
      rw [htaken]
      exact h.queues hqueues
    | true =>
      rw [Relay.writeSample_of_full sample henabled hfull]
      exact h.refuse hfull

/-- Every operation keeps relay and log together. -/
theorem step {h : RelayHistory} (hkept : Kept limit h.relay h.log) (op : RelayOp)
    (hpending : op.isFill = true → resetsPending h.log < 2 ^ 32) :
    Kept limit (h.step op).relay (h.step op).log := by
  cases op with
  | write sample => exact hkept.write sample
  | enable on => exact { hkept with }
  | enableDac on =>
    cases on with
    | true => exact { hkept with }
    | false =>
      have hswitched : Kept limit { h.relay with dacEnabled := false } h.log := { hkept with }
      exact hswitched.queues h.relay.setDacEnabled_queues
  | route value => exact { hkept with }
  | prefill samples => exact hkept.queues (h.relay.prefillSilence_queues samples).2
  | reset => exact hkept.reset
  | resetCounters => exact hkept.resetCounters
  | fill stale => exact hkept.fill (hpending rfl) stale

end Kept

/-! ### Runs -/

/-- Entries that are neither fills nor resets leave the count of resets. -/
theorem resetsPending_append {entries : List RelayEvent}
    (h : ∀ entry ∈ entries, entry.isFill = false ∧ entry ≠ .reset) (log : List RelayEvent) :
    resetsPending (entries ++ log) = resetsPending log := by
  induction entries with
  | nil => rfl
  | cons entry rest ih =>
    obtain ⟨hfill, hreset⟩ := h entry List.mem_cons_self
    have hrest := ih fun other hmem => h other (List.mem_cons_of_mem _ hmem)
    rw [← hrest, List.cons_append]
    simp [resetsPending, hfill, hreset]

theorem resetsPending_queued (n : Nat) (sample : Int16) (log : List RelayEvent) :
    resetsPending (List.replicate n (.queued sample) ++ log) = resetsPending log := by
  refine resetsPending_append ?_ log
  intro entry hmem
  rw [List.eq_of_mem_replicate hmem]
  exact ⟨rfl, nofun⟩

theorem resetsPending_framesNoted (n : Nat) (r : Relay) (log : List RelayEvent) :
    resetsPending (r.framesNoted n ++ log) = resetsPending log := by
  induction n generalizing r log with
  | zero => rfl
  | succ n ih =>
    rw [Relay.framesNoted]
    rw [List.append_assoc, ih]
    split
    · rfl
    · rfl

theorem resetsPending_step (h : RelayHistory) (op : RelayOp) :
    resetsPending (h.step op).log
      = if op.isFill then 0 else resetsPending h.log + if op = .reset then 1 else 0 := by
  cases op with
  | write sample =>
    change resetsPending (RelayOp.noted h.relay (.write sample) ++ h.log) = resetsPending h.log
    rw [RelayOp.noted]
    split
    · rfl
    · split
      · rfl
      · rfl
  | enableDac on =>
    cases on with
    | true => rfl
    | false => exact resetsPending_queued _ 0 h.log
  | prefill samples => exact resetsPending_queued _ 0 h.log
  | reset => exact resetsPending_cons_reset h.log
  | fill stale =>
    change resetsPending (RelayOp.noted h.relay (.fill stale) ++ h.log) = 0
    rw [RelayOp.noted]
    rw [List.append_assoc]
    cases h.relay.enabled with
    | true => exact resetsPending_framesNoted _ _ _
    | false => rfl
  | _ => rfl

/-- A run keeps relay and log together, as long as no fill finds too many resets. -/
theorem kept_run {limit : Nat} {h : RelayHistory} (hkept : Kept limit h.relay h.log)
    (hnone : resetsPending h.log = 0) {past : List RelayOp}
    (hpast : ∀ stale older, RelayOp.fill stale :: older <:+ past →
      RelayOp.resetsPending older < 2 ^ 32) :
    Kept limit (h.after past.reverse).relay (h.after past.reverse).log ∧
      resetsPending (h.after past.reverse).log = RelayOp.resetsPending past := by
  -- The latest operation goes first, so that the resets a fill finds are those of the rest.
  induction past with
  | nil => exact ⟨hkept, hnone⟩
  | cons op past ih =>
    obtain ⟨hbefore, hcount⟩ := ih fun stale older hsuffix =>
      hpast stale older (hsuffix.trans (List.suffix_cons op past))
    rw [List.reverse_cons, RelayHistory.after_append]
    refine ⟨hbefore.step op ?_, ?_⟩
    · intro hfill
      cases op with
      | fill stale =>
        rw [hcount]
        exact hpast stale past (List.suffix_refl _)
      | _ => nomatch hfill
    · change resetsPending ((h.after past.reverse).step op).log = _
      rw [resetsPending_step, hcount, RelayOp.resetsPending_cons]

/-- The frames of an enabled relay show the levels that they leave in the log. -/
theorem produce_eq_levels (n : Nat) (r : Relay) :
    (produce Relay.nextFrame n r).1 = (levels (r.framesNoted n)).map r.switches.route ∧
      (levels (r.framesNoted n)).length = n := by
  induction n generalizing r with
  | zero => exact ⟨rfl, rfl⟩
  | succ n ih =>
    obtain ⟨hframes, hlength⟩ := ih r.nextFrame.2
    have hlevels : levels (r.framesNoted (n + 1))
        = r.nextFrame.2.held :: levels (r.nextFrame.2.framesNoted n) := by
      rw [Relay.framesNoted]
      rw [levels_append]
      split
      · rfl
      · rfl
    refine ⟨?_, ?_⟩
    · rw [produce_succ, hframes, hlevels, List.map_cons, r.nextFrame_fst, r.switches_nextFrame]
    · rw [hlevels, List.length_cons, hlength]

/-- What a fill hands over. -/
theorem fill_eq_levels (r : Relay) (stale : List Frame) :
    let heard := levels (RelayOp.noted r (.fill stale))
    let out := (r.fill (stale.map Prod.fst) (stale.map Prod.snd)).1
    if r.enabled then
      heard.length = stale.length ∧
        out = ((heard.map r.switches.route).map Prod.fst, (heard.map r.switches.route).map Prod.snd)
    else
      heard = [] ∧ out = (List.replicate stale.length 0, List.replicate stale.length 0) := by
  dsimp only
  rw [r.fill_eq, RelayOp.noted]
  dsimp only
  rw [levels_append]
  cases r.enabled with
  | false => exact ⟨rfl, rfl⟩
  | true =>
    obtain ⟨hframes, hlength⟩ := produce_eq_levels stale.length r.acknowledgeReset
    rw [r.switches_acknowledgeReset] at hframes
    refine ⟨hlength, ?_⟩
    rw [if_pos rfl, hframes]
    rfl

end RelayLog

namespace Relay

/-- A converted sample is centred on `$80` and fits into 16 bits. -/
theorem toInt_convert (sample : UInt8) :
    (convert sample).toInt = ((sample.toNat : Int) - 128) * 256 := by
  have hlt := sample.toNat_lt
  rw [convert, Int16.toInt_ofInt_of_le]
  · rfl
  · simp only [Int.ofNat_eq_natCast]
    omega
  · simp only [Int.ofNat_eq_natCast]
    omega

/-- The relay plays what was queued and holds the last level. After every run of a new relay, with
fewer than `2 ^ 32` resets before the first fill and between two fills:

* Every entry of the log is right by `RelayLog.Explains`, and the samples queued are those gone and
  then those that wait. So each level taken is the oldest sample queued that has not gone, no
  sample goes twice, and none is discarded but by the first fill after a reset. On an empty queue
  the level is the last one, or zero at the start and after such a fill.
* The counters hold, in 32 bits, the frames on an empty queue and the samples on a full one since
  the relay or its counters were last reset.
* A fill of a disabled relay is silence and plays no level. A fill of an enabled one plays a level
  for each frame. Both go by the switches as last set: a level reaches the left output if the DAC
  is on and bit 7 of the output control is set, and the right output by bit 6. -/
theorem hold_last {capacity prefill : Nat} {made : Outcome Relay Unit}
    (hmade : create capacity prefill = .ok made) (ops : List RelayOp)
    (hresets : ∀ before stale after, ops = before ++ .fill stale :: after →
      RelayOp.resetsPending before.reverse < 2 ^ 32) :
    let h := (RelayHistory.create capacity prefill).after ops
    (h.relay = made.state.after ops ∧
      RelayLog.Explained (capacity - 1) h.log ∧
      RelayLog.queued h.log = RelayLog.gone h.log ++ h.relay.ring.toList) ∧
    (h.relay.ring.underruns = UInt32.ofNat (RelayLog.counted RelayEvent.isUnderrun h.log) ∧
      h.relay.ring.overruns = UInt32.ofNat (RelayLog.counted RelayEvent.isOverrun h.log)) ∧
    (∀ before stale after, ops = before ++ .fill stale :: after →
      let r := made.state.after before
      let s := before.foldl RelaySwitches.turn {}
      let heard := RelayLog.levels (RelayOp.noted r (.fill stale))
      let out := (r.fill (stale.map Prod.fst) (stale.map Prod.snd)).1
      if s.enabled then
        heard.length = stale.length ∧
          out = ((heard.map s.route).map Prod.fst, (heard.map s.route).map Prod.snd)
      else
        heard = [] ∧ out = (List.replicate stale.length 0, List.replicate stale.length 0)) ∧
    ∀ sample : UInt8, (convert sample).toInt = ((sample.toNat : Int) - 128) * 256 := by
  intro h
  have hstart := RelayHistory.relay_create hmade
  have hpast : ∀ stale older, RelayOp.fill stale :: older <:+ ops.reverse →
      RelayOp.resetsPending older < 2 ^ 32 := by
    rintro stale older ⟨later, hops⟩
    have hbefore := hresets older.reverse stale later.reverse (by
      rw [← List.reverse_reverse ops, ← hops]
      simp)
    rwa [List.reverse_reverse] at hbefore
  have hcreated : RelayLog.Kept (capacity - 1) (RelayHistory.create capacity prefill).relay
      (RelayHistory.create capacity prefill).log :=
    (RelayLog.Kept.create capacity).step (h := { relay := { ring := { capacity := capacity } } })
      (.prefill prefill) nofun
  have hnone : RelayLog.resetsPending (RelayHistory.create capacity prefill).log = 0 :=
    RelayLog.resetsPending_step { relay := { ring := { capacity := capacity } } }
      (.prefill prefill)
  have hkept := (RelayLog.kept_run hcreated hnone hpast).1
  rw [List.reverse_reverse] at hkept
  have hrelay : h.relay = made.state.after ops := by
    rw [← hstart]
    exact RelayHistory.relay_after _ ops
  refine ⟨⟨hrelay, hkept.explained, hkept.waiting⟩, ⟨hkept.underruns, hkept.overruns⟩, ?_,
    toInt_convert⟩
  intro before stale after _ r s heard out
  have hswitches : r.switches = s := by
    have hmadeSwitches : made.state.switches = {} := by
      rw [← hstart]
      exact switches_run { ring := { capacity := capacity } } (.prefill prefill)
    rw [switches_after, hmadeSwitches]
  have hfill := RelayLog.fill_eq_levels r stale
  rw [← hswitches]
  exact hfill

/-- Behind two zeros a small queue has space for one of two samples. The fourth frame repeats it.
Another is discarded by the fill after a reset, which counts an underrun of its own. -/
theorem queued_sample_held : ∃ made, create 4 2 = .ok made ∧
    let before : List RelayOp := [.enable true, .write 0x90, .write 0xA0]
    let stale : List Frame := [(7, 7), (7, 7), (7, 7), (7, 7)]
    let ops := before ++ .fill stale :: [.write 0xB0, .reset, .fill [(7, 7)]]
    ((made.state.after before).fill (stale.map Prod.fst) (stale.map Prod.snd)).1
        = ([0, 0, 0x1000, 0x1000], [0, 0, 0x1000, 0x1000]) ∧
      (made.state.after ops).ring.underruns = 1 ∧ (made.state.after ops).ring.overruns = 0 := by
  obtain ⟨made, hmade⟩ : ∃ made, create 4 2 = .ok made := ⟨_, rfl⟩
  refine ⟨made, hmade, ?_⟩
  intro before stale ops
  have hresets : ∀ before stale after, ops = before ++ .fill stale :: after →
      RelayOp.resetsPending before.reverse < 2 ^ 32 := by
    intro earlier fresh later hops
    have hlength : ops.length = 7 := rfl
    have hpending := RelayOp.resetsPending_le_length earlier.reverse
    rw [hops, List.length_append, List.length_cons] at hlength
    rw [List.length_reverse] at hpending
    omega
  obtain ⟨⟨hrelay, -, -⟩, ⟨hunderruns, hoverruns⟩, hfills, -⟩ := hold_last hmade ops hresets
  have hfirst := hfills before stale _ rfl
  rw [← RelayHistory.relay_create hmade] at hfirst
  have hheard : RelayLog.levels
      (RelayOp.noted ((RelayHistory.create 4 2).relay.after before) (.fill stale))
        = [0, 0, 0x1000, 0x1000] := by decide +kernel
  dsimp only at hfirst
  rw [hheard] at hfirst
  refine ⟨?_, ?_, ?_⟩
  · rw [← RelayHistory.relay_create hmade]
    exact hfirst.2.trans (by decide)
  · rw [← hrelay, hunderruns]
    decide +kernel
  · rw [← hrelay, hoverruns]
    decide +kernel

end Relay

end Chiptune
