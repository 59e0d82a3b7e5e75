import EvmObject.Machine.Run
import EvmObject.Proofs.Machine.ControlFlow
import EvmObject.Proofs.Machine.Fetch
import EvmObject.Proofs.Validation.Trail

/-!
# The trail of a step

A step once more, with its words where they are said. A control transfer says that it is made, and
then goes on: a call once its frame is on the stack, a return once its frame is off, a jump as soon
as its target is known. Faults are not spoken of where they happen. They come out of the parts of a
step, each with the execution as it is by then, and the step has a word on whatever comes out. So a
transfer that fails after it has spoken would leave two records. There is one place for that, where
a branch takes off its condition, and it cannot fail there since it has looked at the word before.

`stepLogged_eq` says that a step leaves the record of its event, if it has one, and `runLogged_eq`
that a run leaves those of its steps. `refusals_and_transfers_leave_a_trail` is the law that the
records obey, for validation and for steps.
-/

namespace EvmObject.Machine

open Logged (leave stop)

/-- A transition, with the record of its event. -/
def Transition.told {σ : Type} (taken : Transition σ) : Logged Empty (Outcome × Execution σ) :=
  ⟨taken.event?.toList.map Event.record, .ok (taken.outcome, taken.after)⟩

namespace Execution

variable {σ : Type}

/-- Something that may fail, on the way of a step. A fault comes with the execution as it is. -/
abbrev Part (σ α : Type) := Logged (Execution σ × Fault) α

section
variable (execution : Execution σ)

/-- What fails without a change. -/
def attempt {α : Type} (result : Except Fault α) : Part σ α :=
  .silent (.ofExcept (result.mapError (execution, ·)))

/-! ## Parts of a step -/

/-- Calls a section. -/
def callLogged (program : Program) (fetched : Fetched) : Part σ (Outcome × Execution σ) := do
  let callee ← .get (execution, .unknownSection) (program.function? fetched.callee)
  if !execution.reaches callee.signature.inputs.toNat then stop (execution, .stackUnderflow)
  let frames ← execution.attempt (execution.state.frames.push (execution.frameFor fetched callee))
  leave (Event.called execution.state.function fetched.callee frames.size).record
  return (.running, { execution with state := ⟨fetched.callee, 0, frames⟩ })

/-- Returns from a function. -/
def retLogged (function : Function) : Part σ (Outcome × Execution σ) := do
  let state := execution.state
  if !execution.reaches function.signature.outputs.toNat then stop (execution, .stackUnderflow)
  let (frame, frames) ← .get (execution, .stackUnderflow) state.frames.pop?
  if frames.isEmpty then
    leave Event.left.record
    return (.halted .stopped, { execution with state := { state with frames } })
  else
    leave (Event.returned state.function frame.function frame.pc).record
    return (.running, { execution with state := ⟨frame.function, frame.pc, frames⟩ })

/-- Looks whether the condition of a branch holds. -/
def looksLogged : Part σ Bool := do
  if !execution.reaches 1 then stop (execution, .stackUnderflow)
  let condition ← execution.attempt (execution.stack.peek 0)
  return condition != 0

/-- Takes the condition of a branch off. -/
def popLogged : Part σ (Execution σ) :=
  match execution.stack.pop with
  | (.error fault, stack) => stop ({ execution with stack }, fault)
  | (.ok _, stack) => return { execution with stack }

/-- Looks up where a jump leads if it is taken, with a word on it. Otherwise the next instruction
comes next. -/
def targetLogged (function : Function) (fetched : Fetched) (isTaken : Bool) : Part σ Nat :=
  if isTaken then do
    let target ← .get (execution, .invalidJump) (function.target? fetched)
    leave (Event.jumped fetched.opcode execution.state.pc target).record
    return target
  else return fetched.next

/-- Jumps, or branches. A branch looks at its condition first and takes it off last. -/
def jumpLogged (function : Function) (fetched : Fetched) : Part σ (Outcome × Execution σ) := do
  let isBranch := fetched.opcode.byte == Opcode.rjumpi
  let isTaken ← if isBranch then execution.looksLogged else pure true
  let target ← execution.targetLogged function fetched isTaken
  let after ← if isBranch then execution.popLogged else pure execution
  return (.running, { after with state := { execution.state with pc := target } })

/-- Has the host carry out an opcode. -/
def delegateLogged (host : Host σ) (fetched : Fetched) : Part σ (Outcome × Execution σ) := do
  if !execution.reaches fetched.opcode.info.inputs then stop (execution, .stackUnderflow)
  let effect := execution.effectOf host fetched
  let execution := execution.hosted effect
  execution.attempt effect.result
  match haltAfter? fetched.opcode with
  | some ending => return (.halted ending, execution)
  | none =>
    return (.running, { execution with state := { execution.state with pc := fetched.next } })

/-! ## The step -/

/-- Reads an instruction and carries it out. -/
def innerLogged (program : Program) (host : Host σ) : Part σ (Outcome × Execution σ) := do
  let function ← .get (execution, .unknownSection) (program.function? execution.state.function)
  let fetched ← execution.attempt (function.fetch execution.state.pc)
  let byte := fetched.opcode.byte
  if byte = Opcode.stop then return (.halted .stopped, execution)
  else if byte = Opcode.invalid then stop (execution, .invalidOpcode)
  else if byte = Opcode.callf then execution.callLogged program fetched
  else if byte = Opcode.retf then execution.retLogged function
  else if byte = Opcode.rjump ∨ byte = Opcode.rjumpi then execution.jumpLogged function fetched
  else execution.delegateLogged host fetched

/-- Has a word on a fault, and drops the frames. -/
def settle (part : Part σ (Outcome × Execution σ)) : Logged Empty (Outcome × Execution σ) :=
  part.rescue fun (execution, fault) => do
    let state := execution.state
    leave (Event.aborted state.function state.pc fault).record
    return (.aborted fault, { execution with state := { state with frames := .empty } })

/-- Carries out one instruction. -/
def stepLogged (program : Program) (host : Host σ) : Logged Empty (Outcome × Execution σ) :=
  settle (execution.innerLogged program host)

end

/-! ## What the parts leave -/

section
variable {program : Program} {host : Host σ} {execution : Execution σ} {function : Function}
  {fetched : Fetched} {taken : Transition σ}

theorem settle_callLogged (hcase : CallCase program execution fetched taken) :
    settle (execution.callLogged program fetched) = taken.told := by
  cases hcase with
  | unknown hcallee =>
    rw [callLogged, hcallee]
    rfl
  | short callee hcallee hshort =>
    rw [callLogged, hcallee, Logged.get, pure_bind, hshort]
    rfl
  | full callee hcallee hreaches hfull =>
    have hpush : execution.state.frames.push (execution.frameFor fetched callee) =
        .error .returnStackOverflow := ReturnStack.push_eq_error_iff.mpr ⟨hfull, rfl⟩
    rw [callLogged, hcallee, Logged.get, pure_bind, hreaches, hpush]
    rfl
  | entered callee frames hcallee hreaches hpush =>
    rw [callLogged, hcallee, Logged.get, pure_bind, hreaches, hpush]
    rfl

theorem settle_retLogged (hcase : RetCase execution function taken) :
    settle (execution.retLogged function) = taken.told := by
  cases hcase with
  | short hshort =>
    rw [retLogged, hshort]
    rfl
  | noFrame hreaches hempty =>
    rw [retLogged, hreaches, ReturnStack.pop?_eq_none_iff.mpr hempty]
    rfl
  | last frame frames hreaches hpop hlast =>
    rw [retLogged, hreaches, hpop, Logged.get]
    simp only [Bool.not_true, Bool.false_eq_true, if_false, pure_bind, hlast, if_true]
    rfl
  | returned frame frames hreaches hpop hmore =>
    rw [retLogged, hreaches, hpop, Logged.get]
    simp only [Bool.not_true, Bool.false_eq_true, if_false, pure_bind, hmore]
    rfl

theorem settle_jumpLogged (hbyte : fetched.opcode.byte = Opcode.rjump)
    (hcase : JumpCase execution function fetched taken) :
    settle (execution.jumpLogged function fetched) = taken.told := by
  have hbranch : (fetched.opcode.byte == Opcode.rjumpi) = false := by
    rw [hbyte]
    rfl
  unfold jumpLogged
  simp only [hbranch, Bool.false_eq_true, if_false, pure_bind]
  cases hcase with
  | nowhere htarget =>
    rw [targetLogged, htarget]
    rfl
  | taken target htarget =>
    rw [targetLogged, htarget]
    rfl

/-- A word that was looked at can be taken off. -/
theorem popLogged_eq {word : Word} (hpeek : execution.stack.peek 0 = .ok word) :
    execution.popLogged = pure execution.popped := by
  unfold popLogged popped Stack.pop
  rw [hpeek]

theorem looksLogged_eq {word : Word} (hreaches : execution.reaches 1 = true)
    (hpeek : execution.stack.peek 0 = .ok word) :
    execution.looksLogged = pure (word != 0) := by
  rw [looksLogged, hreaches, hpeek]
  rfl

theorem settle_branchLogged (hbyte : fetched.opcode.byte = Opcode.rjumpi)
    (hcase : BranchCase execution function fetched taken) :
    settle (execution.jumpLogged function fetched) = taken.told := by
  have hbranch : (fetched.opcode.byte == Opcode.rjumpi) = true := beq_iff_eq.mpr hbyte
  unfold jumpLogged
  simp only [hbranch, if_true]
  cases hcase with
  | short hshort =>
    rw [looksLogged, hshort]
    rfl
  | unread hreaches hpeek =>
    rw [looksLogged, hreaches, hpeek]
    rfl
  | untaken hreaches hpeek =>
    rw [looksLogged_eq hreaches hpeek, popLogged_eq hpeek]
    rfl
  | nowhere condition hreaches hpeek hne htarget =>
    rw [looksLogged_eq hreaches hpeek, bne_iff_ne.mpr hne, pure_bind, targetLogged, htarget]
    rfl
  | taken condition target hreaches hpeek hne htarget =>
    rw [looksLogged_eq hreaches hpeek, bne_iff_ne.mpr hne, popLogged_eq hpeek, pure_bind,
      targetLogged, htarget]
    rfl

theorem settle_delegateLogged (hcase : HostCase host execution fetched taken) :
    settle (execution.delegateLogged host fetched) = taken.told := by
  cases hcase with
  | short hshort =>
    rw [delegateLogged, hshort]
    rfl
  | failed fault hreaches hresult =>
    rw [delegateLogged, hreaches]
    simp only [Bool.not_true, Bool.false_eq_true, if_false, hresult]
    rfl
  | ended ending hreaches hresult hending =>
    rw [delegateLogged, hreaches]
    simp only [Bool.not_true, Bool.false_eq_true, if_false, hresult, hending]
    rfl
  | done hreaches hresult hending =>
    rw [delegateLogged, hreaches]
    simp only [Bool.not_true, Bool.false_eq_true, if_false, hresult, hending]
    rfl

end

/-- **A step leaves the record of its event,** and comes to what it comes to without words. -/
theorem stepLogged_eq (program : Program) (host : Host σ) (execution : Execution σ) :
    execution.stepLogged program host = (execution.step program host).told := by
  have hcases := step_cases program host execution
  generalize execution.step program host = taken at hcases ⊢
  -- once an instruction is read, its byte says which part comes next
  have hinner : ∀ {function fetched}, execution.Fetches program function fetched →
      execution.innerLogged program host =
        (let byte := fetched.opcode.byte
         if byte = Opcode.stop then return (.halted .stopped, execution)
         else if byte = Opcode.invalid then stop (execution, .invalidOpcode)
         else if byte = Opcode.callf then execution.callLogged program fetched
         else if byte = Opcode.retf then execution.retLogged function
         else if byte = Opcode.rjump ∨ byte = Opcode.rjumpi then
          execution.jumpLogged function fetched
         else execution.delegateLogged host fetched) := by
    intro function fetched hat
    rw [innerLogged, hat.function_eq, Logged.get, pure_bind, hat.fetch_eq]
    rfl
  unfold stepLogged
  cases hcases with
  | noFunction hnone =>
    rw [innerLogged, hnone]
    rfl
  | noInstruction function fault hfunction hfetch =>
    rw [innerLogged, hfunction, Logged.get, pure_bind, hfetch]
    rfl
  | stop function fetched hat hbyte =>
    rw [hinner hat, hbyte]
    rfl
  | invalid function fetched hat hbyte =>
    rw [hinner hat, hbyte]
    rfl
  | call function fetched _ hat hbyte hcase =>
    rw [hinner hat, ← settle_callLogged hcase, hbyte]
    rfl
  | ret function fetched _ hat hbyte hcase =>
    rw [hinner hat, ← settle_retLogged hcase, hbyte]
    rfl
  | jump function fetched _ hat hbyte hcase =>
    rw [hinner hat, ← settle_jumpLogged hbyte hcase, hbyte]
    rfl
  | branch function fetched _ hat hbyte hcase =>
    rw [hinner hat, ← settle_branchLogged hbyte hcase, hbyte]
    rfl
  | host function fetched _ hat hbyte hcase =>
    simp only [IsControl, not_or] at hbyte
    obtain ⟨hstop, hinvalid, hcallf, hretf, hrjump, hrjumpi⟩ := hbyte
    rw [hinner hat, ← settle_delegateLogged hcase]
    simp only [if_neg hstop, if_neg hinvalid, if_neg hcallf, if_neg hretf, hrjump, hrjumpi, or_self,
      if_false]

/-! ## Runs -/

section
variable (program : Program) (host : Host σ)

/-- Takes at most `budget` steps. -/
def runLogged : (budget : Nat) → Execution σ → Logged Empty (Outcome × Execution σ)
  | 0, execution => return (.running, execution)
  | budget + 1, execution => do
    let (outcome, after) ← execution.stepLogged program host
    if outcome.isRunning then runLogged budget after else return (outcome, after)

/-- The records of earlier steps stand in front. -/
theorem toList_recordsOnto (budget : Nat) (execution : Execution σ) (done : Array Log.Record) :
    (recordsOnto program host budget execution done).toList =
      done.toList ++ (execution.records program host budget).toList := by
  unfold records
  induction budget generalizing execution done with
  | zero => exact (List.append_nil _).symm
  | succ budget ih =>
    unfold recordsOnto
    simp only
    cases (execution.step program host).event? with
    | none =>
      split
      · exact ih _ done
      · exact (List.append_nil _).symm
    | some event =>
      split
      · simp only [Option.map_some, Option.getD_some]
        rw [ih _ (done.push event.record), ih _ (Array.push #[] event.record)]
        simp
      · simp

/-- The records of a run are those of its first step and those of the rest, if there is one. -/
theorem toList_records_succ (budget : Nat) (execution : Execution σ) :
    (execution.records program host (budget + 1)).toList =
      let taken := execution.step program host
      let rest := taken.after.records program host budget
      taken.event?.toList.map Event.record ++
        if taken.outcome.isRunning then rest.toList else [] := by
  rw [records, recordsOnto]
  simp only
  cases (execution.step program host).event? <;> split <;> simp [toList_recordsOnto]

/-- **A run leaves the records of its steps,** and comes to what it comes to without words. -/
theorem runLogged_eq (budget : Nat) (execution : Execution σ) :
    execution.runLogged program host budget =
      ⟨(execution.records program host budget).toList,
        .ok (execution.runWithin program host budget)⟩ := by
  induction budget generalizing execution with
  | zero => rfl
  | succ budget ih =>
    rw [runLogged, stepLogged_eq, toList_records_succ, runWithin]
    generalize execution.step program host = taken
    show Logged.behind _ (if taken.outcome.isRunning then runLogged program host budget taken.after
      else pure (taken.outcome, taken.after)) = _
    dsimp only
    split
    · rw [ih]
      rfl
    · rfl

end

/-! ## The law -/

/-- An instruction of this byte hands control on if it succeeds: a call, a return, a jump, or a
branch on a word that is not zero. -/
def Transfers (execution : Execution σ) (byte : UInt8) : Prop :=
  byte = Opcode.callf ∨ byte = Opcode.retf ∨ byte = Opcode.rjump ∨
    byte = Opcode.rjumpi ∧ ∃ condition, execution.stack.peek 0 = .ok condition ∧ condition ≠ 0

/-- What a step leaves, by how it goes. -/
inductive TrailCase (program : Program) (execution : Execution σ) (taken : Transition σ) :
    Prop where
  | aborted (fault : Fault) (text : String) (houtcome : taken.outcome = .aborted fault)
      (hrecords : taken.told.records = [.debug text])
  | transferred (function : Function) (fetched : Fetched) (text : String)
      (hat : execution.Fetches program function fetched)
      (htransfers : execution.Transfers fetched.opcode.byte)
      (houtcome : ∀ fault, taken.outcome ≠ .aborted fault)
      (hrecords : taken.told.records = [.trace text])
  | silent (function : Function) (fetched : Fetched)
      (hat : execution.Fetches program function fetched)
      (hstays : ¬ execution.Transfers fetched.opcode.byte)
      (houtcome : ∀ fault, taken.outcome ≠ .aborted fault)
      (hrecords : taken.told.records = [])

theorem halt_ne_aborted (execution : Execution σ) (ending : Halt) (event? : Option Event)
    (fault : Fault) : (execution.halt ending event?).outcome ≠ .aborted fault := by
  intro haborted
  cases haborted

theorem goto_ne_aborted (execution : Execution σ) (state : State) (event? : Option Event)
    (fault : Fault) : (execution.goto state event?).outcome ≠ .aborted fault := by
  intro haborted
  cases haborted

theorem trail_cases (program : Program) (host : Host σ) (execution : Execution σ) :
    TrailCase program execution (execution.step program host) := by
  have hcases := step_cases program host execution
  generalize execution.step program host = taken at hcases ⊢
  cases hcases with
  | noFunction => exact .aborted _ _ rfl rfl
  | noInstruction => exact .aborted _ _ rfl rfl
  | stop function fetched hat hbyte =>
    refine .silent function fetched hat ?_ (halt_ne_aborted _ _ _) rfl
    rw [hbyte]
    rintro (h | h | h | ⟨h, _⟩) <;> exact absurd h (by decide)
  | invalid => exact .aborted _ _ rfl rfl
  | call function fetched _ hat hbyte hcase =>
    cases hcase with
    | unknown => exact .aborted _ _ rfl rfl
    | short => exact .aborted _ _ rfl rfl
    | full => exact .aborted _ _ rfl rfl
    | entered =>
      exact .transferred function fetched _ hat (.inl hbyte) (goto_ne_aborted _ _ _) rfl
  | ret function fetched _ hat hbyte hcase =>
    have htransfers : execution.Transfers fetched.opcode.byte := .inr (.inl hbyte)
    cases hcase with
    | short => exact .aborted _ _ rfl rfl
    | noFrame => exact .aborted _ _ rfl rfl
    | last =>
      exact .transferred function fetched _ hat htransfers (halt_ne_aborted _ _ _) rfl
    | returned =>
      exact .transferred function fetched _ hat htransfers (goto_ne_aborted _ _ _) rfl
  | jump function fetched _ hat hbyte hcase =>
    cases hcase with
    | nowhere => exact .aborted _ _ rfl rfl
    | taken =>
      have htransfers : execution.Transfers fetched.opcode.byte := .inr (.inr (.inl hbyte))
      exact .transferred function fetched _ hat htransfers (goto_ne_aborted _ _ _) rfl
  | branch function fetched _ hat hbyte hcase =>
    cases hcase with
    | short => exact .aborted _ _ rfl rfl
    | unread => exact .aborted _ _ rfl rfl
    | untaken _ hpeek =>
      -- of the transfers it could only be a branch, and its word is zero
      refine .silent function fetched hat ?_ (goto_ne_aborted _ _ _) rfl
      rw [hbyte]
      rintro (h | h | h | ⟨_, condition, hcondition, hne⟩)
      · exact absurd h (by decide)
      · exact absurd h (by decide)
      · exact absurd h (by decide)
      · exact hne (Except.ok.inj (hcondition.symm.trans hpeek))
    | nowhere => exact .aborted _ _ rfl rfl
    | taken condition _ _ hpeek hne =>
      have htransfers : execution.Transfers fetched.opcode.byte :=
        .inr (.inr (.inr ⟨hbyte, condition, hpeek, hne⟩))
      exact .transferred function fetched _ hat htransfers (goto_ne_aborted _ _ _) rfl
  | host function fetched _ hat hbyte hcase =>
    have hstays : ¬ execution.Transfers fetched.opcode.byte := by
      rintro (h | h | h | ⟨h, _⟩) <;> exact hbyte (by simp [IsControl, h])
    cases hcase with
    | short => exact .aborted _ _ rfl rfl
    | failed => exact .aborted _ _ rfl rfl
    | ended => exact .silent function fetched hat hstays (halt_ne_aborted _ _ _) rfl
    | done => exact .silent function fetched hat hstays (goto_ne_aborted _ _ _) rfl

end Execution

open Validation (Rejection Validated recordsOf)

/-- The execution stands at an instruction of a container that hands control on if it succeeds. -/
def Execution.TransfersIn {σ : Type} (execution : Execution σ) (valid : Validated) : Prop :=
  ∃ byte, valid.byteAt? execution.state.function execution.state.pc = some byte ∧
    execution.Transfers byte

/-- **Every refusal and every abort leaves a trail, and successes leave none but that of
transfers.** Let validation and steps have their words where they are said, and let them stop
without a word where they do. They come to what they come to otherwise, and leave the records that
are given otherwise. Validation, whatever the bytes and the settings, leaves nothing if it accepts.
If it refuses, it leaves at least one record, and none that is not for debugging. A step of a valid
container under the stack-only host, from any execution, leaves one record for debugging and no
other if it is aborted. If it is not, it leaves one record for tracing and no other at a call, a
return, a jump, or a branch that is taken, and nothing at any other instruction. -/
theorem refusals_and_transfers_leave_a_trail :
    (∀ config raw,
      let logged := Validation.validateLogged config raw
      let attempt := Validation.validate config raw
      logged.attempt = attempt.mapCause Rejection.error ∧
        logged.records = recordsOf Rejection.records attempt ∧
        (∀ valid, logged.attempt = .ok valid → logged.records = []) ∧
        ∀ failure, logged.attempt = .error failure → logged.records ≠ [] ∧
          ∀ record ∈ logged.records, record.level = .debug) ∧
    ∀ config raw valid, Validation.validate config raw = .ok valid →
      ∀ execution : Execution StackHost.Trace,
        let program := Program.ofValidated valid
        let logged := execution.stepLogged program stackHost
        let taken := execution.step program stackHost
        logged.attempt = .ok (taken.outcome, taken.after) ∧
          logged.records = taken.event?.toList.map Event.record ∧
          ((∃ fault, taken.outcome = .aborted fault) → ∃ text, logged.records = [.debug text]) ∧
          ((∀ fault, taken.outcome ≠ .aborted fault) →
            (execution.TransfersIn valid → ∃ text, logged.records = [.trace text]) ∧
              (¬ execution.TransfersIn valid → logged.records = [])) := by
  refine ⟨fun config raw => ?_, fun config raw valid hvalid execution => ?_⟩
  · simp only [Validation.validateLogged_eq]
    refine ⟨rfl, rfl, fun valid hok => ?_, fun failure hfails => ?_⟩
    · have haccepted := Attempt.mapCause_eq_ok_iff.mp hok
      rw [Logged.told, haccepted]
      rfl
    · obtain ⟨cause, hcause, -⟩ := mapError_eq_error_iff.mp hfails
      cases cause with
      | crashed => exact absurd hcause (Validation.keeps_validateChecked config raw).ne_crashed
      | refused rejection =>
        rw [Logged.told, hcause]
        exact ⟨rejection.records_ne_nil, rejection.level_eq_debug⟩
  · intro program logged taken
    have hlogged : logged = taken.told := Execution.stepLogged_eq program stackHost execution
    -- what the machine fetches is what the container has there
    have hat : ∀ {function fetched}, execution.Fetches program function fetched →
        (execution.TransfersIn valid ↔ execution.Transfers fetched.opcode.byte) := by
      intro function fetched hat
      have hbyte := hat.byteAt?_eq hvalid
      constructor
      · rintro ⟨byte, hfound, htransfers⟩
        rwa [← Option.some.inj (hfound.symm.trans hbyte)]
      · exact fun htransfers => ⟨_, hbyte, htransfers⟩
    refine ⟨congrArg Logged.attempt hlogged, congrArg Logged.records hlogged, ?_⟩
    rw [hlogged]
    cases Execution.trail_cases program stackHost execution with
    | aborted fault text houtcome hrecords =>
      exact ⟨fun _ => ⟨text, hrecords⟩, fun hgoes => absurd houtcome (hgoes fault)⟩
    | transferred function fetched text hfetches htransfers houtcome hrecords =>
      refine ⟨fun ⟨fault, hfault⟩ => absurd hfault (houtcome fault), fun _ => ⟨fun _ => ?_, ?_⟩⟩
      · exact ⟨text, hrecords⟩
      · exact fun hstays => absurd ((hat hfetches).mpr htransfers) hstays
    | silent function fetched hfetches hstays houtcome hrecords =>
      refine ⟨fun ⟨fault, hfault⟩ => absurd hfault (houtcome fault), fun _ => ⟨?_, fun _ => ?_⟩⟩
      · exact fun htransfers => absurd ((hat hfetches).mp htransfers) hstays
      · exact hrecords

/-- No bytes are refused with a word. Behind two pushes `sumBody` calls its second section, and has
a word on it. -/
theorem refusals_and_transfers_leave_a_trail_sum :
    (∃ failure, (Validation.validateLogged .default []).attempt = .error failure ∧
      (Validation.validateLogged .default []).records ≠ []) ∧
    ∃ execution, Validation.validate .default (Container.ofBody sumBody).raw = .ok sumValid ∧
      ((Execution.initial []).runWithin (Program.ofValidated sumValid) stackHost 2).2 = execution ∧
      execution.TransfersIn sumValid ∧
      ∃ text, (execution.stepLogged (Program.ofValidated sumValid) stackHost).records =
        [.trace text] := by
  obtain ⟨hvalidation, hsteps⟩ := refusals_and_transfers_leave_a_trail
  have hvalid : Validation.validate .default (Container.ofBody sumBody).raw = .ok sumValid :=
    eq_ok_of_toOption (by decide +kernel)
  let execution := ((Execution.initial []).runWithin (Program.ofValidated sumValid) stackHost 2).2
  have hcall : execution.TransfersIn sumValid := ⟨Opcode.callf, by decide +kernel, .inl rfl⟩
  have hrunning : (execution.step (Program.ofValidated sumValid) stackHost).outcome = .running := by
    decide +kernel
  obtain ⟨-, -, -, hgoes⟩ := hsteps _ _ _ hvalid execution
  refine ⟨?_, execution, hvalid, rfl, hcall, (hgoes fun fault => ?_).1 hcall⟩
  · obtain ⟨hattempt, -, -, hrefused⟩ := hvalidation .default []
    have hfails : (Validation.validateLogged .default []).attempt =
        .error (.refused (.container .invalidMagic)) := by
      rw [hattempt]
      rfl
    exact ⟨_, hfails, (hrefused _ hfails).1⟩
  · rw [hrunning]
    intro haborted
    cases haborted

end EvmObject.Machine
