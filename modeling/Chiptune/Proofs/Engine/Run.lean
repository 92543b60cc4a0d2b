import Chiptune.Engine.Basic
import Chiptune.Proofs.Chip.Run
import Chiptune.Proofs.Engine.Pacer

/-!
# `Chiptune.Proofs.Engine.Run`: runs of the engine

`EngineStep` names what can happen to an engine, each as one atomic step: the host queues
register writes and resets, starts and stops the timer, loads samples and changes the rate,
the timer fires, and the audio graph asks for a block with any pool.

`Engine.updateOps` lists what a block does to the chip, in order, and `EngineStep.chip_run`
shows that carrying out this list is all that happens to the chip.

A `History` keeps beside the engine what its words forget: what has been issued, what has been
done to the chip, which ticks have been dropped and how many have been issued since the last
block. `EngineStep.effect` sorts the steps by what they mean for queue and pacer. Everything
about order and ticks is proved from its four cases.
-/

set_option autoImplicit false

namespace Chiptune

/-- What a command does to the chip. -/
def Command.op : Command → ChipOp
  | write register value => .write register value
  | reset => .reset

theorem Command.apply_eq (command : Command) (chip : Chip) :
    command.apply chip = command.op.run chip := by
  cases command with
  | write register value => rfl
  | reset => rfl

/-- Whether the operation is one that commands and ticks ask for: a register write, a reset or
a frame tick. -/
def ChipOp.isEvent : ChipOp → Bool
  | write _ _ | frameTick | reset => true
  | load _ _ | clock | sample _ | setRate _ => false

@[simp] theorem Command.isEvent_op (command : Command) : command.op.isEvent = true := by
  cases command with
  | write register value => rfl
  | reset => rfl

namespace Engine

/-- The queue is all that can stand in the way of an engine. -/
theorem create_of_ring {settings : Settings} {ring : Ring QueuedCommand}
    (h : Ring.createFor commandBytes settings.commandQueueCapacity.toNat = .ok ring) :
    create settings
      = .ok
        { chip := .powerUp settings.sampleRate
          pacer := .create (Chip.powerUp settings.sampleRate).sampleRate
          commands := ring
          options := { stereo := settings.stereo, filters := settings.filters } } := by
  unfold create
  rw [h]
  rfl

theorem ring_of_create {settings : Settings} {e : Engine} (h : create settings = .ok e) :
    Ring.createFor commandBytes settings.commandQueueCapacity.toNat = .ok e.commands := by
  unfold create at h
  cases hr : (Ring.createFor commandBytes settings.commandQueueCapacity.toNat :
      Except RingFault (Ring QueuedCommand)) with
  | error fault => rw [hr] at h; nomatch h
  | ok ring =>
    rw [hr] at h
    rw [← Except.ok.inj h]

theorem create_eq_ok {settings : Settings} {e : Engine} (h : create settings = .ok e) :
    e =
      { chip := .powerUp settings.sampleRate
        pacer := .create (Chip.powerUp settings.sampleRate).sampleRate
        commands := { capacity := settings.commandQueueCapacity.toNat }
        options := { stereo := settings.stereo, filters := settings.filters } } := by
  have hring := ring_of_create h
  have hengine := Except.ok.inj (h.symm.trans (create_of_ring hring))
  rw [hengine, Ring.createFor_eq_ok hring]

/-! ### What a block does to the chip -/

/-- The queued commands ahead of the first that still waits for a tick. -/
def dueCommands (e : Engine) : List QueuedCommand :=
  e.commands.toList.takeWhile fun queued => e.pacer.hasReached queued.tick

/-- The engine with a tick released. -/
def released (e : Engine) : Engine :=
  { e with pacer := e.pacer.advance.2, chip := e.chip.frameTick }

/-- What happens to the chip ahead of a sample. -/
def beforeSampleOps (e : Engine) : List ChipOp :=
  e.dueCommands.map (·.command.op) ++
    if e.pacer.advance.1 then
      .frameTick :: e.applyCommands.released.dueCommands.map (·.command.op)
    else
      []

/-- What happens to the chip in `n` frames. -/
def framesOps : Nat → Engine → List ChipOp
  | 0, _ => []
  | n + 1, e => e.beforeSampleOps ++ .sample e.options :: framesOps n e.nextFrame.2

/-- What happens to the chip in an update. -/
def updateOps (e : Engine) (pool : Pool) : List ChipOp :=
  if (e.update pool).1.isSome then framesOps blockSize e.beginBlock else []

/-- The engine after `n` frames. -/
def afterFrames (n : Nat) (e : Engine) : Engine := (produce nextFrame n e).2

@[simp] theorem afterFrames_zero (e : Engine) : e.afterFrames 0 = e := rfl

@[simp] theorem afterFrames_succ (n : Nat) (e : Engine) :
    e.afterFrames (n + 1) = e.nextFrame.2.afterFrames n := by
  rw [afterFrames, produce_succ]
  rfl

/-- Applying due commands takes them off the queue and carries them out in order. -/
theorem applyDue_eq (p : Pacer) (fuel : Nat) (commands : Ring QueuedCommand) (chip : Chip)
    (hfuel : commands.toList.length ≤ fuel) :
    (applyDue p fuel commands chip).1.toList
        = commands.toList.dropWhile (fun queued => p.hasReached queued.tick) ∧
      (applyDue p fuel commands chip).2
        = chip.after ((commands.toList.takeWhile fun queued => p.hasReached queued.tick).map
            (·.command.op)) := by
  induction fuel generalizing commands chip with
  | zero =>
    have hnil : commands.toList = [] := List.eq_nil_of_length_eq_zero (Nat.le_zero.mp hfuel)
    rw [hnil]
    exact ⟨hnil, rfl⟩
  | succ fuel ih =>
    unfold applyDue
    rw [Ring.peek?_eq_head?]
    cases hq : commands.toList with
    | nil => exact ⟨hq, rfl⟩
    | cons queued rest =>
      rw [List.dropWhile_cons, List.takeWhile_cons, List.head?_cons]
      dsimp only
      -- The loop goes on with the rest of the queue while its first command is due.
      by_cases hdue : p.hasReached queued.tick = true
      · have hrest : commands.pop.2.toList = rest := by rw [Ring.toList_pop, hq, List.tail_cons]
        rw [hq, List.length_cons] at hfuel
        rw [if_pos hdue, if_pos hdue, if_pos hdue, List.map_cons, Chip.after_cons,
          ← Command.apply_eq, ← hrest]
        exact ih commands.pop.2 _ (by rw [hrest]; omega)
      · rw [if_neg hdue, if_neg hdue, if_neg hdue]
        exact ⟨hq, rfl⟩

@[simp] theorem pacer_applyCommands (e : Engine) : e.applyCommands.pacer = e.pacer := rfl

theorem commands_applyCommands (e : Engine) :
    e.applyCommands.commands.toList
      = e.commands.toList.dropWhile fun queued => e.pacer.hasReached queued.tick :=
  (applyDue_eq _ _ _ _ (Nat.le_of_eq e.commands.available_eq_length.symm)).1

theorem chip_applyCommands (e : Engine) :
    e.applyCommands.chip = e.chip.after (e.dueCommands.map (·.command.op)) :=
  (applyDue_eq _ _ _ _ (Nat.le_of_eq e.commands.available_eq_length.symm)).2

/-- No tick is released ahead of the sample. -/
theorem beforeSample_of_idle {e : Engine} (h : e.pacer.advance.1 = false) :
    e.beforeSample = { e.applyCommands with pacer := e.pacer.advance.2 } ∧
      e.beforeSampleOps = e.dueCommands.map (·.command.op) := by
  constructor
  · unfold beforeSample
    dsimp only
    rw [pacer_applyCommands]
    -- The pacer's answer is kept as it is; its phase would unfold otherwise.
    generalize hadvance : e.pacer.advance = r at h ⊢
    obtain ⟨due, pacer⟩ := r
    dsimp only at h ⊢
    rw [h]
  · rw [beforeSampleOps, h]
    exact List.append_nil _

/-- A tick is released ahead of the sample, with commands due before it and after it. -/
theorem beforeSample_of_release {e : Engine} (h : e.pacer.advance.1 = true) :
    e.beforeSample = e.applyCommands.released.applyCommands ∧
      e.beforeSampleOps
        = e.dueCommands.map (·.command.op)
          ++ .frameTick :: e.applyCommands.released.dueCommands.map (·.command.op) := by
  constructor
  · unfold beforeSample released
    dsimp only
    rw [pacer_applyCommands]
    generalize hadvance : e.pacer.advance = r at h ⊢
    obtain ⟨due, pacer⟩ := r
    dsimp only at h ⊢
    rw [h]
  · rw [beforeSampleOps, h]
    rfl

/-- What neither commands nor ticks see does not matter to the work ahead of a sample. -/
theorem beforeSample_of_semiconj {f : Engine → Engine} (hpacer : ∀ e, (f e).pacer = e.pacer)
    (hadvance : ∀ e : Engine,
      { f e with pacer := e.pacer.advance.2 } = f { e with pacer := e.pacer.advance.2 })
    (hcommands : ∀ e, (f e).applyCommands = f e.applyCommands)
    (hreleased : ∀ e, (f e).released = f e.released) (e : Engine) :
    (f e).beforeSample = f e.beforeSample := by
  cases h : e.pacer.advance.1 with
  | false =>
    have h' : (f e).pacer.advance.1 = false := by rw [hpacer, h]
    rw [(beforeSample_of_idle h).1, (beforeSample_of_idle h').1, hcommands, hpacer]
    exact hadvance e.applyCommands
  | true =>
    have h' : (f e).pacer.advance.1 = true := by rw [hpacer, h]
    rw [(beforeSample_of_release h).1, (beforeSample_of_release h').1, hcommands, hreleased,
      hcommands]

theorem chip_beforeSample (e : Engine) :
    e.beforeSample.chip = e.chip.after e.beforeSampleOps := by
  cases h : e.pacer.advance.1 with
  | false =>
    obtain ⟨heq, hops⟩ := beforeSample_of_idle h
    rw [heq, hops]
    exact chip_applyCommands e
  | true =>
    obtain ⟨heq, hops⟩ := beforeSample_of_release h
    rw [heq, hops, chip_applyCommands e.applyCommands.released, Chip.after_append,
      Chip.after_cons, ← chip_applyCommands e]
    rfl

@[simp] theorem options_beforeSample (e : Engine) : e.beforeSample.options = e.options := by
  cases h : e.pacer.advance.1 with
  | false => rw [(beforeSample_of_idle h).1]; rfl
  | true => rw [(beforeSample_of_release h).1]; rfl

/-- A frame changes the chip beyond what happens ahead of it, and nothing else. -/
theorem nextFrame_eq (e : Engine) :
    e.nextFrame.2
      = { e.beforeSample with chip := (e.beforeSample.chip.nextSample e.options).2 } := by
  show { e.beforeSample with
    chip := (e.beforeSample.chip.nextSample e.beforeSample.options).2 } = _
  rw [options_beforeSample]

@[simp] theorem chip_beginBlock (e : Engine) : e.beginBlock.chip = e.chip := rfl

@[simp] theorem chip_publish (e : Engine) : e.publish.chip = e.chip := rfl

@[simp] theorem pacer_publish (e : Engine) : e.publish.pacer = e.pacer := rfl

@[simp] theorem commands_publish (e : Engine) : e.publish.commands = e.commands := rfl

theorem chip_afterFrames (n : Nat) (e : Engine) :
    (e.afterFrames n).chip = e.chip.after (framesOps n e) := by
  induction n generalizing e with
  | zero => rfl
  | succ n ih =>
    rw [afterFrames_succ, ih, framesOps, Chip.after_append, ← chip_beforeSample, Chip.after_cons,
      nextFrame_eq]
    rfl

/-- Applying due commands changes nothing of the ring but what it holds. -/
theorem applyDue_ring (p : Pacer) (fuel : Nat) (commands : Ring QueuedCommand) (chip : Chip) :
    ∃ queue, (applyDue p fuel commands chip).1 = { commands with queue := queue } := by
  induction fuel generalizing commands chip with
  | zero => exact ⟨commands.queue, rfl⟩
  | succ fuel ih =>
    unfold applyDue
    rw [Ring.peek?_eq_head?]
    cases hq : commands.toList with
    | nil => exact ⟨commands.queue, rfl⟩
    | cons queued rest =>
      rw [List.head?_cons]
      dsimp only
      split
      · -- The ring is not empty, so that taking from it counts no underrun.
        obtain ⟨queue, hpop, -⟩ := Ring.pop_of_cons hq
        rw [hpop]
        exact ih { commands with queue := queue } (queued.command.apply chip)
      · exact ⟨commands.queue, rfl⟩

theorem applyCommands_eq (e : Engine) :
    ∃ chip queue, e.applyCommands
      = { e with chip := chip, commands := { e.commands with queue := queue } } := by
  obtain ⟨queue, hring⟩ := applyDue_ring e.pacer e.commands.available e.commands e.chip
  refine ⟨e.applyCommands.chip, queue, ?_⟩
  rw [← hring]
  rfl

/-- A frame changes the chip, the pacer and what the queue holds, and nothing else. -/
theorem nextFrame_parts (e : Engine) :
    ∃ chip pacer queue, e.nextFrame.2
      = { e with
          chip := chip
          pacer := pacer
          commands := { e.commands with queue := queue } } := by
  obtain ⟨chip, queue, hfirst⟩ := e.applyCommands_eq
  rw [nextFrame_eq]
  cases h : e.pacer.advance.1 with
  | false =>
    rw [(beforeSample_of_idle h).1, hfirst]
    exact ⟨_, _, queue, rfl⟩
  | true =>
    obtain ⟨_, queue', hsecond⟩ := e.applyCommands.released.applyCommands_eq
    rw [(beforeSample_of_release h).1, hsecond, hfirst]
    exact ⟨_, _, queue', rfl⟩

/-- So do several. -/
theorem afterFrames_parts (n : Nat) (e : Engine) :
    ∃ chip pacer queue, e.afterFrames n
      = { e with
          chip := chip
          pacer := pacer
          commands := { e.commands with queue := queue } } := by
  induction n generalizing e with
  | zero => exact ⟨e.chip, e.pacer, e.commands.queue, rfl⟩
  | succ n ih =>
    obtain ⟨_, _, _, hframe⟩ := e.nextFrame_parts
    obtain ⟨chip, pacer, queue, hframes⟩ := ih e.nextFrame.2
    refine ⟨chip, pacer, queue, ?_⟩
    rw [afterFrames_succ, hframes, hframe]

/-- An update that gives a block has taken in rate and ticks, rendered every frame and made
its counters known. -/
theorem update_of_some {e : Engine} {pool : Pool} (h : (e.update pool).1.isSome = true) :
    (e.update pool).2.1 = (e.beginBlock.afterFrames blockSize).publish := by
  unfold update at h ⊢
  by_cases hstop : e.stopping = true
  · rw [if_pos hstop] at h
    nomatch h
  · rw [if_neg hstop] at h ⊢
    generalize pool.allocateStereo = r at h ⊢
    obtain ⟨_ | stale, pool⟩ := r
    · nomatch h
    · have hstate := StereoBlock.fill_snd nextFrame stale e.beginBlock
      unfold afterFrames
      rw [← hstate]

/-- Any other update at most counts a block that was skipped. -/
theorem update_of_none {e : Engine} {pool : Pool} (h : (e.update pool).1.isSome = false) :
    ∃ skipped, (e.update pool).2.1 = { e with blocksSkipped := skipped } := by
  unfold update at h ⊢
  by_cases hstop : e.stopping = true
  · rw [if_pos hstop]
    exact ⟨e.blocksSkipped, rfl⟩
  · rw [if_neg hstop] at h ⊢
    generalize pool.allocateStereo = r at h ⊢
    obtain ⟨_ | stale, pool⟩ := r
    · exact ⟨e.blocksSkipped + 1, rfl⟩
    · nomatch h

/-- What an update does to the chip is what `updateOps` lists. -/
theorem chip_update (e : Engine) (pool : Pool) :
    (e.update pool).2.1.chip = e.chip.after (e.updateOps pool) := by
  unfold updateOps
  cases h : (e.update pool).1.isSome with
  | true =>
    rw [if_pos rfl, update_of_some h, chip_publish, chip_afterFrames, chip_beginBlock]
  | false =>
    obtain ⟨skipped, heq⟩ := update_of_none h
    rw [heq]
    rfl

/-- A full queue refuses a command, which is counted. -/
theorem push_of_full {e : Engine} (h : e.commands.isFull = true) (command : Command) :
    (e.push command).state
      = { e with
          commands := { e.commands with overruns := e.commands.overruns + 1 }
          commandsDropped := e.commandsDropped + 1 } := by
  unfold push Ring.write
  rw [Ring.push_of_full _ _ h]
  rfl

/-- Any other queue takes it. -/
theorem push_of_space {e : Engine} (h : e.commands.isFull = false) (command : Command) :
    (e.push command).state
      = { e with
          commands :=
            { e.commands with
              queue := e.commands.queue.push { tick := e.ticksIssued, command := command } } } := by
  unfold push Ring.write
  rw [Ring.push_of_space _ _ h]
  rfl

/-- Queueing a command changes the queue and counts a drop, and nothing else. -/
theorem push_state (e : Engine) (command : Command) :
    ∃ dropped, (e.push command).state
      = { e with
          commands := (e.commands.write { tick := e.ticksIssued, command := command }).2
          commandsDropped := dropped } := by
  unfold push
  dsimp only
  split
  · exact ⟨_, rfl⟩
  · exact ⟨_, rfl⟩

/-- A command is taken unless the queue is full. -/
theorem push_result (e : Engine) (command : Command) :
    (e.push command).result = !e.commands.isFull := by
  rw [← Ring.write_fst e.commands { tick := e.ticksIssued, command := command }]
  unfold push
  dsimp only
  split
  · next h => exact h.symm
  · next h => exact (Bool.not_eq_true _ ▸ h).symm

theorem startTimer_state (e : Engine) :
    e.startTimer.state = { e with stopping := false, timerRunning := true } := by
  unfold startTimer
  dsimp only
  split
  · rfl
  · rfl

end Engine

/-! ### Steps -/

/-- Something that happens to an engine. -/
inductive EngineStep where
  | write (address value : UInt8)
  | reset
  | tick
  | startTimer
  | stopTimer
  | load (data : Array UInt8) (offset : Nat)
  | setRate (sampleRate : UInt32)
  | setOptions (options : RenderOptions)
  | update (pool : Pool)

/-- Something issued to the chip, with the number of ticks issued before it. -/
inductive Issue where
  | tick (number : Nat)
  | command (stamp : Nat) (command : Command)

namespace Issue

/-- What is asked of the chip. -/
def op : Issue → ChipOp
  | tick _ => .frameTick
  | command _ asked => asked.op

/-- The number of a tick. -/
def tick? : Issue → Option Nat
  | tick number => some number
  | command _ _ => none

/-- A command as it is queued. -/
def queued? : Issue → Option QueuedCommand
  | tick _ => none
  | command stamp asked => some { tick := .ofNat stamp, command := asked }

@[simp] theorem isEvent_op (issue : Issue) : issue.op.isEvent = true := by
  cases issue with
  | tick number => rfl
  | command stamp asked => exact asked.isEvent_op

end Issue

/-- What a command adds to what has been issued: nothing if the queue is full. -/
def Engine.accepted (e : Engine) (ticks : Nat) (command : Command) : List Issue :=
  if (e.push command).result then [.command ticks command] else []

namespace EngineStep

/-- The engine after the step. -/
def run (s : EngineStep) (e : Engine) : Engine :=
  match s with
  | .write address value => (e.write address value).state
  | .reset => e.reset.state
  | .tick => e.tick
  | .startTimer => e.startTimer.state
  | .stopTimer => e.stopTimer.state
  | .load data offset => (e.loadSamples data offset).state
  | .setRate sampleRate => { e with chip := e.chip.setSampleRate sampleRate }
  | .setOptions options => { e with options := options }
  | .update pool => (e.update pool).2.1

/-- What the step does to the chip. -/
def ops (s : EngineStep) (e : Engine) : List ChipOp :=
  match s with
  | .load data offset => [.load data offset]
  | .setRate sampleRate => [.setRate sampleRate]
  | .update pool => e.updateOps pool
  | _ => []

/-- What the step issues, once `ticks` ticks have been issued. -/
def issues (s : EngineStep) (e : Engine) (ticks : Nat) : List Issue :=
  match s with
  | .write address value =>
    match Register.decode? address with
    | some register => e.accepted ticks (.write register value)
    | none => []
  | .reset => e.accepted ticks .reset
  | .tick => if e.stopping then [] else [.tick ticks]
  | _ => []

/-- Whether the step is an update that gives a block. -/
def renders (s : EngineStep) (e : Engine) : Bool :=
  match s with
  | .update pool => (e.update pool).1.isSome
  | _ => false

theorem chip_run (s : EngineStep) (e : Engine) : (s.run e).chip = e.chip.after (s.ops e) := by
  cases s with
  | write address value =>
    show (e.write address value).state.chip = e.chip
    unfold Engine.write
    split
    · next register _ =>
      obtain ⟨dropped, heq⟩ := e.push_state (.write register value)
      rw [heq]
    · rfl
  | reset =>
    obtain ⟨dropped, heq⟩ := e.push_state .reset
    show (e.push .reset).state.chip = e.chip
    rw [heq]
  | tick =>
    show e.tick.chip = e.chip
    unfold Engine.tick
    split
    · rfl
    · rfl
  | startTimer =>
    show e.startTimer.state.chip = e.chip
    rw [e.startTimer_state]
  | stopTimer => rfl
  | load data offset => rfl
  | setRate sampleRate => rfl
  | setOptions options => rfl
  | update pool => exact e.chip_update pool

/-- Two engines with the same pacer, the same count of issued ticks and the same counters made
known. -/
structure SameTicks (e e' : Engine) : Prop where
  pacer : e'.pacer = e.pacer
  ticksIssued : e'.ticksIssued = e.ticksIssued
  published : e'.published = e.published

/-- What a step means for queue and pacer. Either it leaves both alone, or it queues one
command, or it counts one tick, or it renders a block. -/
inductive Effect (s : EngineStep) (e : Engine) : Prop where
  | quiet (same : SameTicks e (s.run e))
      (commands : (s.run e).commands.toList = e.commands.toList)
      (issues : ∀ ticks, s.issues e ticks = [])
      (events : (s.ops e).filter ChipOp.isEvent = [])
      (renders : s.renders e = false)
  | queues (command : Command) (same : SameTicks e (s.run e))
      (commands : (s.run e).commands.toList
        = e.commands.toList ++ [{ tick := e.ticksIssued, command := command }])
      (issues : ∀ ticks, s.issues e ticks = [.command ticks command])
      (ops : s.ops e = [])
      (renders : s.renders e = false)
  | ticks (state : s.run e = { e with ticksIssued := e.ticksIssued + 1 })
      (issues : ∀ ticks, s.issues e ticks = [.tick ticks])
      (ops : s.ops e = [])
      (renders : s.renders e = false)
  | block (state : s.run e = (e.beginBlock.afterFrames blockSize).publish)
      (issues : ∀ ticks, s.issues e ticks = [])
      (ops : s.ops e = Engine.framesOps blockSize e.beginBlock)
      (renders : s.renders e = true)

/-- A step that queues a command takes it behind the others or drops it. -/
theorem effect_of_push {s : EngineStep} {e : Engine} (command : Command)
    (hrun : s.run e = (e.push command).state)
    (hissues : ∀ ticks, s.issues e ticks = e.accepted ticks command)
    (hops : s.ops e = []) (hrenders : s.renders e = false) : s.Effect e := by
  obtain ⟨dropped, hstate⟩ := e.push_state command
  have hsame : SameTicks e (s.run e) := by
    rw [hrun, hstate]
    exact ⟨rfl, rfl, rfl⟩
  have hcommands : (s.run e).commands.toList
      = if e.commands.isFull then e.commands.toList
        else e.commands.toList ++ [{ tick := e.ticksIssued, command := command }] := by
    rw [hrun, hstate]
    exact e.commands.toList_write _
  -- The queue's answer decides between the two cases, so both are put in its terms.
  unfold Engine.accepted at hissues
  rw [e.push_result command] at hissues
  cases hfull : e.commands.isFull with
  | true =>
    rw [hfull] at hcommands hissues
    exact .quiet hsame hcommands hissues (by rw [hops]; rfl) hrenders
  | false =>
    rw [hfull] at hcommands hissues
    exact .queues command hsame hcommands hissues hops hrenders

theorem effect (s : EngineStep) (e : Engine) : s.Effect e := by
  cases s with
  | write address value =>
    cases hr : Register.decode? address with
    | some register =>
      refine effect_of_push (.write register value) ?_ ?_ rfl rfl
      · simp only [run, Engine.write, hr]
      · simp only [issues, hr, implies_true]
    | none =>
      have hrun : (write address value).run e = e := by simp only [run, Engine.write, hr]
      refine .quiet ?_ ?_ ?_ rfl rfl
      · rw [hrun]
        exact ⟨rfl, rfl, rfl⟩
      · rw [hrun]
      · simp only [issues, hr, implies_true]
  | reset => exact effect_of_push .reset rfl (fun _ => rfl) rfl rfl
  | tick =>
    by_cases hstop : e.stopping = true
    · have hstate : e.tick = e := if_pos hstop
      refine .quiet ?_ ?_ (fun _ => if_pos hstop) rfl rfl
      · show SameTicks e e.tick
        rw [hstate]
        exact ⟨rfl, rfl, rfl⟩
      · show e.tick.commands.toList = _
        rw [hstate]
    · -- A running timer counts the tick, and that is all it does.
      exact .ticks (if_neg hstop) (fun _ => if_neg hstop) rfl rfl
  | startTimer =>
    refine .quiet ?_ ?_ (fun _ => rfl) rfl rfl
    · show SameTicks e e.startTimer.state
      rw [e.startTimer_state]
      exact ⟨rfl, rfl, rfl⟩
    · show e.startTimer.state.commands.toList = _
      rw [e.startTimer_state]
  | stopTimer => exact .quiet ⟨rfl, rfl, rfl⟩ rfl (fun _ => rfl) rfl rfl
  | load data offset => exact .quiet ⟨rfl, rfl, rfl⟩ rfl (fun _ => rfl) rfl rfl
  | setRate sampleRate => exact .quiet ⟨rfl, rfl, rfl⟩ rfl (fun _ => rfl) rfl rfl
  | setOptions options => exact .quiet ⟨rfl, rfl, rfl⟩ rfl (fun _ => rfl) rfl rfl
  | update pool =>
    cases hr : (e.update pool).1.isSome with
    | true => exact .block (Engine.update_of_some hr) (fun _ => rfl) (if_pos hr) hr
    | false =>
      obtain ⟨skipped, hstate⟩ := Engine.update_of_none hr
      refine .quiet ?_ ?_ (fun _ => rfl) ?_ hr
      · show SameTicks e (e.update pool).2.1
        rw [hstate]
        exact ⟨rfl, rfl, rfl⟩
      · show (e.update pool).2.1.commands.toList = _
        rw [hstate]
      · show (e.updateOps pool).filter _ = []
        rw [Engine.updateOps, hr]
        rfl

end EngineStep

/-! ### Histories -/

/-- An engine with what has happened to it. -/
structure History where
  engine : Engine
  /-- Ticks that were counted and commands that were taken, in the order they were issued. -/
  issued : List Issue := []
  /-- What has been done to the chip. -/
  performed : List ChipOp := []
  /-- Numbers of the ticks that were dropped. -/
  lost : List Nat := []
  /-- Ticks issued since the last update that gave a block. -/
  fresh : Nat := 0

namespace History

/-- An engine to which nothing has happened. -/
def start (e : Engine) : History := { engine := e }

/-- Ticks that have been issued. -/
def ticks (h : History) : Nat := (h.issued.filterMap Issue.tick?).length

/-- The history after a step. The ticks that an update drops are the oldest of those that are
neither released nor dropped. -/
def step (h : History) (s : EngineStep) : History :=
  let e := s.run h.engine
  let issues := s.issues h.engine h.ticks
  { engine := e
    issued := h.issued ++ issues
    performed := h.performed ++ s.ops h.engine
    lost := h.lost
      ++ List.range' h.engine.pacer.done (e.pacer.dropped - h.engine.pacer.dropped)
    fresh :=
      if s.renders h.engine then 0 else h.fresh + (issues.filterMap Issue.tick?).length }

/-- The history after a list of steps. -/
def run (h : History) (steps : List EngineStep) : History := steps.foldl step h

/-- Every update that gives a block comes before `limit` ticks have been issued since the one
before it. -/
def Paced (limit : Nat) : History → List EngineStep → Prop
  | _, [] => True
  | h, s :: rest => (s.renders h.engine = true → h.fresh < limit) ∧ Paced limit (h.step s) rest

/-- What every step keeps that is paced, every paced run keeps. -/
theorem run_induction {P : History → Prop} {limit : Nat}
    (step : ∀ (h : History) (s : EngineStep),
      P h → (s.renders h.engine = true → h.fresh < limit) → P (h.step s))
    {h : History} {steps : List EngineStep} (hh : P h) (hp : Paced limit h steps) :
    P (h.run steps) := by
  induction steps generalizing h with
  | nil => exact hh
  | cons s rest ih => exact ih (step h s hh hp.1) hp.2

/-- Nothing but what is listed happens to the chip. -/
theorem chip_run {c : Chip} {h : History} (hc : h.engine.chip = c.after h.performed)
    (steps : List EngineStep) :
    (h.run steps).engine.chip = c.after (h.run steps).performed := by
  induction steps generalizing h with
  | nil => exact hc
  | cons s rest ih =>
    have hstep : (s.run h.engine).chip = c.after (h.performed ++ s.ops h.engine) := by
      rw [s.chip_run, hc, Chip.after_append]
    exact ih hstep

end History

end Chiptune
