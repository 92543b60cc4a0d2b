import Chiptune.Proofs.Chip.Counts
import Chiptune.Proofs.Engine.Run

/-!
# `Chiptune.Proofs.Engine.Accounts`: every command is accounted for

The host asks for register writes and resets, `Engine.calls`, and the queue takes a call or refuses
it. What it takes waits there until the audio side carries it out. Nothing is lost on the way, and
nothing is carried out that was not taken: `EngineStep.Settles` balances the commands that wait
before a step, and those it takes, with those it carries out and those that wait after it. Every step
settles (`EngineStep.settles`), blocks by the induction over their frames in `waiting_afterFrames`,
and so does every run (`History.settledBy`).

`History.commands_accounted` is the main statement.
-/

set_option autoImplicit false

namespace Chiptune

/-- The command that an operation carries out. -/
def ChipOp.command? : ChipOp → Option Command
  | .write register value => some (.write register value)
  | .reset => some .reset
  | _ => none

@[simp] theorem Command.command?_op (command : Command) : command.op.command? = some command := by
  cases command with
  | write register value => rfl
  | reset => rfl

/-- The commands among a list of operations. -/
def ChipOp.commands (ops : List ChipOp) : List Command := ops.filterMap command?

@[simp] theorem ChipOp.commands_append (ops more : List ChipOp) :
    commands (ops ++ more) = commands ops ++ commands more := List.filterMap_append

/-- A command that the host asks for, and whether the queue took it. -/
structure EngineCall where
  command : Command
  taken : Bool

/-- The commands that were taken, in order. -/
def EngineCall.accepted (calls : List EngineCall) : List Command :=
  (calls.filter EngineCall.taken).map EngineCall.command

/-- How many were refused. -/
def EngineCall.refusals (calls : List EngineCall) : Nat :=
  calls.countP fun call => !call.taken

namespace EngineCall

@[simp] theorem accepted_append (calls more : List EngineCall) :
    accepted (calls ++ more) = accepted calls ++ accepted more := by
  simp [accepted]

@[simp] theorem refusals_append (calls more : List EngineCall) :
    refusals (calls ++ more) = refusals calls + refusals more := List.countP_append

end EngineCall

/-- What a step asks of the queue, with the answer. A write to an offset that the chip does not
answer to asks for nothing. -/
def EngineStep.call? (s : EngineStep) (e : Engine) : Option EngineCall :=
  match s with
  | .write address value =>
    (Register.decode? address).map fun register =>
      { command := .write register value, taken := (e.write address value).result }
  | .reset => some { command := .reset, taken := e.reset.result }
  | _ => none

namespace Engine

/-- What a list of steps asks of the queue, with the answers. -/
def calls : Engine → List EngineStep → List EngineCall
  | _, [] => []
  | e, s :: rest => (s.call? e).toList ++ calls (s.run e) rest

/-- The commands that wait, oldest first. -/
def waiting (e : Engine) : List Command := e.commands.toList.map QueuedCommand.command

section
variable {e : Engine}

/-! ### Calls -/

theorem isFull_eq_false_iff : e.commands.isFull = false ↔ e.waiting.length < e.commands.limit := by
  rw [Ring.isFull_eq_false_iff, waiting, List.length_map]

/-- A command is taken as long as fewer wait than the queue can hold. -/
theorem push_result_iff (command : Command) :
    (e.push command).result = true ↔ e.waiting.length < e.commands.limit := by
  rw [push_result, Bool.not_eq_true', isFull_eq_false_iff]

/-! ### Blocks -/

theorem registerWrites_publish (e : Engine) :
    e.publish.published.registerWrites = e.publish.chip.registerWrites := rfl

theorem commands_due (queued : List QueuedCommand) :
    ChipOp.commands (queued.map (·.command.op)) = queued.map QueuedCommand.command := by
  have hcommand : ChipOp.command? ∘ (·.command.op) = some ∘ QueuedCommand.command :=
    funext fun due => Command.command?_op due.command
  rw [ChipOp.commands, List.filterMap_map, hcommand, List.filterMap_eq_map]

/-- What is due is carried out, and the rest waits. -/
theorem waiting_applyCommands (e : Engine) :
    ChipOp.commands (e.dueCommands.map (·.command.op)) ++ e.applyCommands.waiting = e.waiting := by
  rw [commands_due, waiting, commands_applyCommands, ← List.map_append, dueCommands,
    List.takeWhile_append_dropWhile]
  rfl

theorem waiting_beforeSample (e : Engine) :
    ChipOp.commands e.beforeSampleOps ++ e.beforeSample.waiting = e.waiting := by
  cases h : e.pacer.advance.1 with
  | false =>
    obtain ⟨hstate, hops⟩ := beforeSample_of_idle h
    rw [hstate, hops]
    exact e.waiting_applyCommands
  | true =>
    obtain ⟨hstate, hops⟩ := beforeSample_of_release h
    have hafter := e.applyCommands.released.waiting_applyCommands
    -- The tick itself is no command, so the commands due before it and after it are all.
    rw [hstate, hops, ChipOp.commands_append, List.append_assoc]
    show _ ++ (ChipOp.commands (e.applyCommands.released.dueCommands.map (·.command.op)) ++ _) = _
    rw [hafter]
    exact e.waiting_applyCommands

theorem waiting_nextFrame (e : Engine) : e.nextFrame.2.waiting = e.beforeSample.waiting := by
  rw [nextFrame_eq]
  rfl

theorem waiting_afterFrames (n : Nat) (e : Engine) :
    ChipOp.commands (framesOps n e) ++ (e.afterFrames n).waiting = e.waiting := by
  induction n generalizing e with
  | zero => rfl
  | succ n ih =>
    have hnext := ih e.nextFrame.2
    rw [waiting_nextFrame] at hnext
    rw [framesOps, afterFrames_succ, ChipOp.commands_append, List.append_assoc]
    show _ ++ (ChipOp.commands (framesOps n e.nextFrame.2) ++ _) = _
    rw [hnext]
    exact e.waiting_beforeSample

end

end Engine

/-! ### Steps -/

/-- What a step leaves settled: what waited and what it takes is what it carries out and what
waits after it, refusals are counted, and the queue keeps its size. -/
structure EngineStep.Settles (s : EngineStep) (e : Engine) : Prop where
  commands : e.waiting ++ EngineCall.accepted (s.call? e).toList
    = ChipOp.commands (s.ops e) ++ (s.run e).waiting
  refusals : (s.run e).commandsDropped
    = e.commandsDropped + EngineCall.refusals (s.call? e).toList
  limit : (s.run e).commands.limit = e.commands.limit

namespace EngineStep

variable {s : EngineStep} {e : Engine}

/-- A step that asks for nothing and only changes what has nothing to do with commands. -/
theorem settles_of_same (hcall : s.call? e = none) (hops : ChipOp.commands (s.ops e) = [])
    (hcommands : (s.run e).commands = e.commands)
    (hdropped : (s.run e).commandsDropped = e.commandsDropped) : s.Settles e where
  commands := by
    rw [hcall, hops, Engine.waiting, Engine.waiting, hcommands]
    exact List.append_nil _
  refusals := by
    rw [hcall]
    exact hdropped
  limit := by rw [hcommands]

/-- A call is taken behind what waits, or refused and counted. -/
theorem settles_of_push (command : Command) (hrun : s.run e = (e.push command).state)
    (hcall : s.call? e = some { command := command, taken := (e.push command).result })
    (hops : s.ops e = []) : s.Settles e := by
  rw [e.push_result command] at hcall
  cases hfull : e.commands.isFull with
  | true =>
    rw [hfull] at hcall
    rw [Engine.push_of_full hfull] at hrun
    refine ⟨?_, ?_, ?_⟩
    · rw [hcall, hops, hrun]
      exact List.append_nil _
    · rw [hcall, hrun]
      rfl
    · rw [hrun]
      rfl
  | false =>
    rw [hfull] at hcall
    rw [Engine.push_of_space hfull] at hrun
    refine ⟨?_, ?_, ?_⟩
    · have hqueue := e.commands.queue.toList_push { tick := e.ticksIssued, command := command }
      rw [hcall, hops, hrun]
      show e.commands.toList.map _ ++ [command] = List.map _ (Queue.toList _)
      rw [hqueue, List.map_append]
      rfl
    · rw [hcall, hrun]
      rfl
    · rw [hrun]
      rfl

theorem settles_update (e : Engine) (pool : Pool) : (update pool).Settles e := by
  cases hgives : (e.update pool).1.isSome with
  | true =>
    have hstate : (update pool).run e = (e.beginBlock.afterFrames blockSize).publish :=
      Engine.update_of_some hgives
    have hops : (update pool).ops e = Engine.framesOps blockSize e.beginBlock := if_pos hgives
    obtain ⟨_, _, _, hparts⟩ := e.beginBlock.afterFrames_parts blockSize
    refine ⟨?_, ?_, ?_⟩
    · have hblock := e.beginBlock.waiting_afterFrames blockSize
      have hbegin : e.beginBlock.waiting = e.waiting := rfl
      rw [hbegin] at hblock
      rw [hstate, hops, Engine.waiting, Engine.waiting, Engine.commands_publish]
      exact (List.append_nil _).trans hblock.symm
    · rw [hstate, hparts]
      rfl
    · rw [hstate, hparts]
      rfl
  | false =>
    obtain ⟨skipped, hstate⟩ := Engine.update_of_none hgives
    have hops : (update pool).ops e = [] := by
      show e.updateOps pool = []
      rw [Engine.updateOps, hgives]
      rfl
    have hrun : (update pool).run e = { e with blocksSkipped := skipped } := hstate
    refine settles_of_same rfl ?_ ?_ ?_
    · rw [hops]
      rfl
    · rw [hrun]
    · rw [hrun]

/-- Every step leaves the commands settled. -/
theorem settles (s : EngineStep) (e : Engine) : s.Settles e := by
  cases s with
  | write address value =>
    cases hr : Register.decode? address with
    | some register =>
      have hwrite : e.write address value = e.push (.write register value) := by
        simp only [Engine.write, hr]
      refine settles_of_push (.write register value) (congrArg Outcome.state hwrite) ?_ rfl
      rw [call?, hr, ← hwrite]
      rfl
    | none =>
      have hrun : (write address value).run e = e := by simp only [run, Engine.write, hr]
      refine settles_of_same ?_ rfl ?_ ?_
      · rw [call?, hr]
        rfl
      · rw [hrun]
      · rw [hrun]
  | reset => exact settles_of_push .reset rfl rfl rfl
  | tick =>
    by_cases hstop : e.stopping = true
    · have hrun : tick.run e = e := if_pos hstop
      exact settles_of_same rfl rfl (by rw [hrun]) (by rw [hrun])
    · have hrun : tick.run e = { e with ticksIssued := e.ticksIssued + 1 } := if_neg hstop
      exact settles_of_same rfl rfl (by rw [hrun]) (by rw [hrun])
  | startTimer =>
    have hrun : startTimer.run e = { e with stopping := false, timerRunning := true } :=
      e.startTimer_state
    exact settles_of_same rfl rfl (by rw [hrun]) (by rw [hrun])
  | stopTimer => exact settles_of_same rfl rfl rfl rfl
  | load data offset => exact settles_of_same rfl rfl rfl rfl
  | setRate sampleRate => exact settles_of_same rfl rfl rfl rfl
  | setOptions options => exact settles_of_same rfl rfl rfl rfl
  | update pool => exact settles_update e pool

end EngineStep

/-! ### Runs -/

namespace History

/-- A run leaves the commands settled. -/
structure SettledBy (h : History) (steps : List EngineStep) : Prop where
  commands : ChipOp.commands h.performed ++ h.engine.waiting
      ++ EngineCall.accepted (h.engine.calls steps)
    = ChipOp.commands (h.run steps).performed ++ (h.run steps).engine.waiting
  refusals : (h.run steps).engine.commandsDropped
    = h.engine.commandsDropped + EngineCall.refusals (h.engine.calls steps)
  limit : (h.run steps).engine.commands.limit = h.engine.commands.limit

theorem settledBy (h : History) (steps : List EngineStep) : h.SettledBy steps := by
  induction steps generalizing h with
  | nil => exact ⟨List.append_nil _, rfl, rfl⟩
  | cons s rest ih =>
    have hstep := s.settles h.engine
    have hrest := ih (h.step s)
    refine ⟨?_, ?_, ?_⟩
    · have hperformed : ChipOp.commands (h.step s).performed
          = ChipOp.commands h.performed ++ ChipOp.commands (s.ops h.engine) :=
        ChipOp.commands_append h.performed (s.ops h.engine)
      calc ChipOp.commands h.performed ++ h.engine.waiting
            ++ EngineCall.accepted (h.engine.calls (s :: rest))
          = ChipOp.commands h.performed
              ++ (h.engine.waiting ++ EngineCall.accepted (s.call? h.engine).toList)
              ++ EngineCall.accepted ((s.run h.engine).calls rest) := by
            rw [Engine.calls, EngineCall.accepted_append]
            simp only [List.append_assoc]
        _ = ChipOp.commands (h.step s).performed ++ (h.step s).engine.waiting
              ++ EngineCall.accepted ((h.step s).engine.calls rest) := by
            rw [hstep.commands, hperformed, ← List.append_assoc]
            rfl
        _ = ChipOp.commands ((h.step s).run rest).performed
              ++ ((h.step s).run rest).engine.waiting := hrest.commands
    · rw [Engine.calls, EngineCall.refusals_append, ← Nat.add_assoc, ← hstep.refusals]
      exact hrest.refusals
    · exact hrest.limit.trans hstep.limit

/-- Every command is accounted for, over every run from an engine with any queue.

* What the queue has taken, in order, is what the chip has been asked for and then what still
  waits; the count of drops is the number of refusals.
* A reset is taken exactly if fewer commands wait than the capacity less one, and a write exactly
  if besides the chip answers to its offset. A write to any other offset changes nothing.
* After an update that gives a block, the count of writes made known is the number of writes that
  the chip has been asked for since it was last reset, modulo `2 ^ 64`. -/
theorem commands_accounted {settings : Settings} {e : Engine}
    (he : Engine.create settings = .ok e) (steps : List EngineStep) :
    let h := (start e).run steps
    let calls := e.calls steps
    let room := h.engine.waiting.length < settings.commandQueueCapacity.toNat - 1
    h.engine.chip = e.chip.after h.performed ∧
    EngineCall.accepted calls = ChipOp.commands h.performed ++ h.engine.waiting ∧
    h.engine.commandsDropped = EngineCall.refusals calls ∧
    (h.engine.reset.result = true ↔ room) ∧
    (∀ address value : UInt8,
      ((h.engine.write address value).result = true
        ↔ (Register.decode? address).isSome = true ∧ room) ∧
      (Register.decode? address = none → (h.engine.write address value).state = h.engine)) ∧
    ∀ pool : Pool, (h.engine.update pool).1.isSome = true →
      let h' := h.step (.update pool)
      h'.engine.published.registerWrites = UInt64.ofNat (Past.writes h'.performed.reverse) := by
  intro h calls room
  have hstart := Engine.create_eq_ok he
  have hsettled := (start e).settledBy steps
  have hlimit : h.engine.commands.limit = settings.commandQueueCapacity.toNat - 1 := by
    rw [hsettled.limit]
    show e.commands.limit = _
    rw [hstart]
    rfl
  have hroom : ∀ command, (h.engine.push command).result = true ↔ room := by
    intro command
    rw [Engine.push_result_iff, hlimit]
  refine ⟨chip_run rfl steps, ?_, ?_, hroom .reset, ?_, ?_⟩
  · have hnothing : ChipOp.commands (start e).performed ++ (start e).engine.waiting = [] := by
      show ([] : List Command) ++ e.waiting = []
      rw [hstart]
      rfl
    have hcommands := hsettled.commands
    rw [hnothing] at hcommands
    exact hcommands
  · have hnone : (start e).engine.commandsDropped = 0 := by
      show e.commandsDropped = 0
      rw [hstart]
    have hrefusals := hsettled.refusals
    rw [hnone, Nat.zero_add] at hrefusals
    exact hrefusals
  · intro address value
    cases hr : Register.decode? address with
    | none =>
      simp [Engine.write, hr]
    | some register =>
      have hwrite : h.engine.write address value = h.engine.push (.write register value) := by
        simp only [Engine.write, hr]
      rw [hwrite]
      refine ⟨(hroom _).trans (by simp), ?_⟩
      intro hnone
      cases hnone
  · intro pool hgives h'
    have hknown : h'.engine.published.registerWrites = h'.engine.chip.registerWrites := by
      have hstate : h'.engine = (h.engine.beginBlock.afterFrames blockSize).publish :=
        Engine.update_of_some hgives
      rw [hstate]
      exact Engine.registerWrites_publish _
    have hchip : h'.engine.chip = e.chip.after h'.performed :=
      chip_run (chip_run rfl steps) [.update pool]
    rw [hknown, hchip, hstart]
    exact Chip.registerWrites_after settings.sampleRate h'.performed

/-- A queue with room for one command takes a write, and then a reset once a block has carried the
write out, but neither of the two calls in between. The write to an unknown offset is no call. The
next block makes known that nothing has been written since the reset. -/
theorem full_queue_accounted :
    ∃ e : Engine, Engine.create { commandQueueCapacity := 2 } = .ok e ∧
      let steps : List EngineStep :=
        [.write 0x15 0x01, .write 0x00 0x3F, .write 0x40 0x00, .reset, .update (.create 2), .reset]
      let h := (start e).run steps
      EngineCall.accepted (e.calls steps) = [.write .status 0x01, .reset] ∧
        ChipOp.commands h.performed ++ h.engine.waiting = [.write .status 0x01, .reset] ∧
        h.engine.commandsDropped = 2 ∧ (h.engine.update (.create 2)).1.isSome = true ∧
        (h.step (.update (.create 2))).engine.published.registerWrites = 0 := by
  obtain ⟨e, he⟩ : ∃ e : Engine, Engine.create { commandQueueCapacity := 2 } = .ok e := ⟨_, rfl⟩
  have hstart := Engine.create_eq_ok he
  refine ⟨e, he, ?_⟩
  intro steps h
  obtain ⟨-, hcommands, hdropped, -, -, hpublished⟩ := commands_accounted he steps
  have haccepted : EngineCall.accepted (e.calls steps) = [.write .status 0x01, .reset] := by
    rw [hstart]
    decide +kernel
  have hrefused : EngineCall.refusals (e.calls steps) = 2 := by
    rw [hstart]
    decide +kernel
  have hgives : (h.engine.update (.create 2)).1.isSome = true := by
    simp only [h, hstart]
    decide +kernel
  have hnone : Past.writes (h.step (.update (.create 2))).performed.reverse = 0 := by
    simp only [h, hstart]
    decide +kernel
  have hknown := hpublished (.create 2) hgives
  dsimp only at hknown
  rw [hnone] at hknown
  refine ⟨haccepted, hcommands.symm.trans haccepted, hdropped.trans hrefused, hgives, ?_⟩
  rw [hknown]
  rfl

end History

end Chiptune
