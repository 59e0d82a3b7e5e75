import EvmObject.Machine.Step
import EvmObject.Proofs.Machine.ReturnStack
import EvmObject.Proofs.Machine.Stack

/-!
# The ways a step can go

For each kind of instruction an inductive lists the ways that carrying it out can go, with what was
checked on the way and the transition that results; `StepCase` puts them together for a whole step.
The lists are complete: `step_cases` for a step, and one such statement for each kind. So what is to
be known of a step is a case split, and nothing else has to open its definition. The other way
round, what was checked determines the transition: `StepCase.eq_step`, again with one such statement
for each kind. It is what says of a step that was not split yet how it goes.

The lists leave out a way that the code seems to have: a branch that is taken looks up its target
twice, and the second time finds it. They do have one that looks dead. A branch may find a word
within reach and none to read, if the height of its frame wraps around.
-/

namespace EvmObject.Machine

/-! ## What is read and checked -/

/-- The section that the operand names, if the instruction is a call. -/
def Fetched.callee (fetched : Fetched) : Nat :=
  ((Bytes.readU16? fetched.immediate).getD 0).toNat

/-- The byte of an instruction that the machine carries out itself. -/
def IsControl (byte : UInt8) : Prop :=
  byte = Opcode.stop ∨ byte = Opcode.invalid ∨ byte = Opcode.callf ∨ byte = Opcode.retf ∨
    byte = Opcode.rjump ∨ byte = Opcode.rjumpi

namespace Execution

variable {σ : Type}

/-- The instruction at the position of the execution. -/
structure Fetches (execution : Execution σ) (program : Program) (function : Function)
    (fetched : Fetched) : Prop where
  function_eq : program.function? execution.state.function = some function
  fetch_eq : function.fetch execution.state.pc = .ok fetched

/-- The frame that a call puts on top. -/
def frameFor (execution : Execution σ) (fetched : Fetched) (callee : Function) : Frame :=
  ⟨execution.state.function, fetched.next,
    execution.heightBelow callee.signature.inputs.toNat⟩

/-- The execution without the top word. -/
def popped (execution : Execution σ) : Execution σ :=
  { execution with stack := execution.stack.pop.2 }

/-- The execution with what the host left. -/
def hosted (execution : Execution σ) (effect : Effect σ) : Execution σ :=
  ⟨execution.state, effect.stack, effect.host⟩

/-- What the host makes of the instruction. -/
def effectOf (execution : Execution σ) (host : Host σ) (fetched : Fetched) : Effect σ :=
  host.execute fetched.opcode fetched.immediate execution.stack execution.host

/-! ## Calls -/

/-- The ways a call can go. -/
inductive CallCase (program : Program) (execution : Execution σ) (fetched : Fetched) :
    Transition σ → Prop where
  | unknown (hcallee : program.function? fetched.callee = none) :
      CallCase program execution fetched (execution.abort .unknownSection)
  | short (callee : Function) (hcallee : program.function? fetched.callee = some callee)
      (hshort : execution.reaches callee.signature.inputs.toNat = false) :
      CallCase program execution fetched (execution.abort .stackUnderflow)
  | full (callee : Function) (hcallee : program.function? fetched.callee = some callee)
      (hreaches : execution.reaches callee.signature.inputs.toNat = true)
      (hfull : execution.state.frames.size = Limits.returnStack) :
      CallCase program execution fetched (execution.abort .returnStackOverflow)
  | entered (callee : Function) (frames : ReturnStack)
      (hcallee : program.function? fetched.callee = some callee)
      (hreaches : execution.reaches callee.signature.inputs.toNat = true)
      (hpush : execution.state.frames.push (execution.frameFor fetched callee) = .ok frames) :
      CallCase program execution fetched (execution.goto ⟨fetched.callee, 0, frames⟩
        (some (.called execution.state.function fetched.callee frames.size)))

theorem call_cases (program : Program) (execution : Execution σ) (fetched : Fetched) :
    CallCase program execution fetched (execution.call program fetched) := by
  unfold call
  simp only
  split
  · next hcallee => exact .unknown hcallee
  · next callee hcallee =>
    split
    · next hshort => exact .short callee hcallee (by simpa using hshort)
    · next hreaches =>
      split
      · next fault hpush =>
        obtain ⟨hfull, rfl⟩ := ReturnStack.push_eq_error_iff.mp hpush
        exact .full callee hcallee (by simpa using hreaches) hfull
      · next frames hpush => exact .entered callee frames hcallee (by simpa using hreaches) hpush

theorem CallCase.eq_call {program : Program} {execution : Execution σ} {fetched : Fetched}
    {taken : Transition σ} (hcase : CallCase program execution fetched taken) :
    taken = execution.call program fetched := by
  cases hcase with
  | unknown hcallee =>
    rw [Fetched.callee] at hcallee
    simp only [call, hcallee]
  | short callee hcallee hshort =>
    rw [Fetched.callee] at hcallee
    simp only [call, hcallee, hshort, Bool.not_false, if_true]
  | full callee hcallee hreaches hfull =>
    have hpush : execution.state.frames.push (execution.frameFor fetched callee) =
        .error .returnStackOverflow := ReturnStack.push_eq_error_iff.mpr ⟨hfull, rfl⟩
    rw [Fetched.callee] at hcallee
    rw [frameFor] at hpush
    simp only [call, hcallee, hreaches, hpush, Bool.not_true, if_neg Bool.false_ne_true]
  | entered callee frames hcallee hreaches hpush =>
    rw [Fetched.callee] at hcallee ⊢
    rw [frameFor] at hpush
    simp only [call, hcallee, hreaches, hpush, Bool.not_true, if_neg Bool.false_ne_true]

/-! ## Returns -/

/-- The ways a return can go. -/
inductive RetCase (execution : Execution σ) (function : Function) : Transition σ → Prop where
  | short (hshort : execution.reaches function.signature.outputs.toNat = false) :
      RetCase execution function (execution.abort .stackUnderflow)
  | noFrame (hreaches : execution.reaches function.signature.outputs.toNat = true)
      (hempty : execution.state.frames.isEmpty = true) :
      RetCase execution function (execution.abort .stackUnderflow)
  | last (frame : Frame) (frames : ReturnStack)
      (hreaches : execution.reaches function.signature.outputs.toNat = true)
      (hpop : execution.state.frames.pop? = some (frame, frames))
      (hlast : frames.isEmpty = true) :
      RetCase execution function
        ({ execution with state := { execution.state with frames } }.halt .stopped (some .left))
  | returned (frame : Frame) (frames : ReturnStack)
      (hreaches : execution.reaches function.signature.outputs.toNat = true)
      (hpop : execution.state.frames.pop? = some (frame, frames))
      (hmore : frames.isEmpty = false) :
      RetCase execution function (execution.goto ⟨frame.function, frame.pc, frames⟩
        (some (.returned execution.state.function frame.function frame.pc)))

theorem ret_cases (execution : Execution σ) (function : Function) :
    RetCase execution function (execution.ret function) := by
  unfold ret
  simp only
  split
  · next hshort => exact .short (by simpa using hshort)
  · next hreaches =>
    rw [Bool.not_eq_true', Bool.not_eq_false] at hreaches
    split
    · next hpop => exact .noFrame hreaches (ReturnStack.pop?_eq_none_iff.mp hpop)
    · next frame frames hpop =>
      split
      · next hlast => exact .last frame frames hreaches hpop hlast
      · next hmore => exact .returned frame frames hreaches hpop (by simpa using hmore)

theorem RetCase.eq_ret {execution : Execution σ} {function : Function} {taken : Transition σ}
    (hcase : RetCase execution function taken) : taken = execution.ret function := by
  cases hcase with
  | short hshort => simp only [ret, hshort, Bool.not_false, if_true]
  | noFrame hreaches hempty =>
    have hpop := ReturnStack.pop?_eq_none_iff.mpr hempty
    simp only [ret, hreaches, hpop, Bool.not_true, if_neg Bool.false_ne_true]
  | last frame frames hreaches hpop hlast =>
    simp only [ret, hreaches, hpop, hlast, Bool.not_true, if_neg Bool.false_ne_true, if_true]
  | returned frame frames hreaches hpop hmore =>
    simp only [ret, hreaches, hpop, hmore, Bool.not_true, if_neg Bool.false_ne_true]

/-! ## Jumps -/

/-- The ways a jump can go. -/
inductive JumpCase (execution : Execution σ) (function : Function) (fetched : Fetched) :
    Transition σ → Prop where
  | nowhere (htarget : function.target? fetched = none) :
      JumpCase execution function fetched (execution.abort .invalidJump)
  | taken (target : Nat) (htarget : function.target? fetched = some target) :
      JumpCase execution function fetched (execution.goto { execution.state with pc := target }
        (some (.jumped fetched.opcode execution.state.pc target)))

theorem jump_cases (execution : Execution σ) (function : Function) (fetched : Fetched) :
    JumpCase execution function fetched (execution.jump function fetched) := by
  unfold jump
  simp only
  split
  · next htarget => exact .nowhere htarget
  · next target htarget => exact .taken target htarget

theorem JumpCase.eq_jump {execution : Execution σ} {function : Function} {fetched : Fetched}
    {taken : Transition σ} (hcase : JumpCase execution function fetched taken) :
    taken = execution.jump function fetched := by
  cases hcase with
  | nowhere htarget => simp only [jump, htarget]
  | taken target htarget => simp only [jump, htarget]

/-- The ways a branch can go. -/
inductive BranchCase (execution : Execution σ) (function : Function) (fetched : Fetched) :
    Transition σ → Prop where
  | short (hshort : execution.reaches 1 = false) :
      BranchCase execution function fetched (execution.abort .stackUnderflow)
  | unread (hreaches : execution.reaches 1 = true)
      (hpeek : execution.stack.peek 0 = .error .stackUnderflow) :
      BranchCase execution function fetched (execution.abort .stackUnderflow)
  | untaken (hreaches : execution.reaches 1 = true) (hpeek : execution.stack.peek 0 = .ok 0) :
      BranchCase execution function fetched
        (execution.popped.goto { execution.state with pc := fetched.next } none)
  | nowhere (condition : Word) (hreaches : execution.reaches 1 = true)
      (hpeek : execution.stack.peek 0 = .ok condition) (hne : condition ≠ 0)
      (htarget : function.target? fetched = none) :
      BranchCase execution function fetched (execution.abort .invalidJump)
  | taken (condition : Word) (target : Nat) (hreaches : execution.reaches 1 = true)
      (hpeek : execution.stack.peek 0 = .ok condition) (hne : condition ≠ 0)
      (htarget : function.target? fetched = some target) :
      BranchCase execution function fetched
        (execution.popped.goto { execution.state with pc := target }
          (some (.jumped fetched.opcode execution.state.pc target)))

theorem branch_cases (execution : Execution σ) (function : Function) (fetched : Fetched) :
    BranchCase execution function fetched (execution.branch function fetched) := by
  unfold branch
  split
  · next hshort => exact .short (by simpa using hshort)
  · next hreaches =>
    rw [Bool.not_eq_true', Bool.not_eq_false] at hreaches
    split
    · next fault hpeek =>
      obtain ⟨_, rfl⟩ := Stack.peek_eq_error_iff.mp hpeek
      exact .unread hreaches hpeek
    · next condition hpeek =>
      split
      · next hzero =>
        subst hzero
        exact .untaken hreaches hpeek
      · next hne =>
        split
        · next htarget => exact .nowhere condition hreaches hpeek hne htarget
        · next target htarget =>
          rw [jump, htarget]
          exact .taken condition target hreaches hpeek hne htarget

theorem BranchCase.eq_branch {execution : Execution σ} {function : Function} {fetched : Fetched}
    {taken : Transition σ} (hcase : BranchCase execution function fetched taken) :
    taken = execution.branch function fetched := by
  cases hcase with
  | short hshort => simp only [branch, hshort, Bool.not_false, if_true]
  | unread hreaches hpeek =>
    simp only [branch, hreaches, hpeek, Bool.not_true, if_neg Bool.false_ne_true]
  | untaken hreaches hpeek =>
    simp only [branch, hreaches, hpeek, Bool.not_true, if_neg Bool.false_ne_true, if_true]
    rfl
  | nowhere condition hreaches hpeek hne htarget =>
    simp only [branch, hreaches, hpeek, htarget, Bool.not_true, if_neg Bool.false_ne_true,
      if_neg hne]
  | taken condition target hreaches hpeek hne htarget =>
    simp only [branch, hreaches, hpeek, htarget, Bool.not_true, if_neg Bool.false_ne_true,
      if_neg hne, jump]
    rfl

/-! ## Everything else -/

/-- The ways an instruction of the host can go. -/
inductive HostCase (host : Host σ) (execution : Execution σ) (fetched : Fetched) :
    Transition σ → Prop where
  | short (hshort : execution.reaches fetched.opcode.info.inputs = false) :
      HostCase host execution fetched (execution.abort .stackUnderflow)
  | failed (fault : Fault) (hreaches : execution.reaches fetched.opcode.info.inputs = true)
      (hresult : (execution.effectOf host fetched).result = .error fault) :
      HostCase host execution fetched
        ((execution.hosted (execution.effectOf host fetched)).abort fault)
  | ended (ending : Halt) (hreaches : execution.reaches fetched.opcode.info.inputs = true)
      (hresult : (execution.effectOf host fetched).result = .ok ())
      (hending : haltAfter? fetched.opcode = some ending) :
      HostCase host execution fetched
        ((execution.hosted (execution.effectOf host fetched)).halt ending none)
  | done (hreaches : execution.reaches fetched.opcode.info.inputs = true)
      (hresult : (execution.effectOf host fetched).result = .ok ())
      (hending : haltAfter? fetched.opcode = none) :
      HostCase host execution fetched
        ((execution.hosted (execution.effectOf host fetched)).goto
          { execution.state with pc := fetched.next } none)

/-- An instruction within reach goes as the host says. -/
theorem delegate_eq {host : Host σ} {execution : Execution σ} {fetched : Fetched}
    (hreaches : execution.reaches fetched.opcode.info.inputs = true) :
    execution.delegate host fetched =
      let effect := execution.effectOf host fetched
      match effect.result with
      | .error fault => (execution.hosted effect).abort fault
      | .ok () =>
        match haltAfter? fetched.opcode with
        | some ending => (execution.hosted effect).halt ending none
        | none =>
          (execution.hosted effect).goto { execution.state with pc := fetched.next } none := by
  obtain ⟨state, stack, hostState⟩ := execution
  simp only [delegate, hreaches, Bool.not_true, if_neg Bool.false_ne_true, effectOf]
  generalize host.execute fetched.opcode fetched.immediate stack hostState = effect
  obtain ⟨result, after, hostAfter⟩ := effect
  cases result with
  | error fault => rfl
  | ok value => cases haltAfter? fetched.opcode <;> rfl

theorem delegate_cases (host : Host σ) (execution : Execution σ) (fetched : Fetched) :
    HostCase host execution fetched (execution.delegate host fetched) := by
  cases hreaches : execution.reaches fetched.opcode.info.inputs with
  | false =>
    rw [delegate, hreaches]
    exact .short hreaches
  | true =>
    rw [delegate_eq hreaches]
    simp only
    split
    · next fault hresult => exact .failed fault hreaches hresult
    · next hresult =>
      split
      · next ending hending => exact .ended ending hreaches hresult hending
      · next hending => exact .done hreaches hresult hending

theorem HostCase.eq_delegate {host : Host σ} {execution : Execution σ} {fetched : Fetched}
    {taken : Transition σ} (hcase : HostCase host execution fetched taken) :
    taken = execution.delegate host fetched := by
  cases hcase with
  | short hshort => simp only [delegate, hshort, Bool.not_false, if_true]
  | failed fault hreaches hresult => simp only [delegate_eq hreaches, hresult]
  | ended ending hreaches hresult hending => simp only [delegate_eq hreaches, hresult, hending]
  | done hreaches hresult hending => simp only [delegate_eq hreaches, hresult, hending]

/-! ## Whole steps -/

/-- The ways a step can go. -/
inductive StepCase (program : Program) (host : Host σ) (execution : Execution σ) :
    Transition σ → Prop where
  | noFunction (hnone : program.function? execution.state.function = none) :
      StepCase program host execution (execution.abort .unknownSection)
  | noInstruction (function : Function) (fault : Fault)
      (hfunction : program.function? execution.state.function = some function)
      (hfetch : function.fetch execution.state.pc = .error fault) :
      StepCase program host execution (execution.abort fault)
  | stop (function : Function) (fetched : Fetched)
      (hat : execution.Fetches program function fetched)
      (hbyte : fetched.opcode.byte = Opcode.stop) :
      StepCase program host execution (execution.halt .stopped none)
  | invalid (function : Function) (fetched : Fetched)
      (hat : execution.Fetches program function fetched)
      (hbyte : fetched.opcode.byte = Opcode.invalid) :
      StepCase program host execution (execution.abort .invalidOpcode)
  | call (function : Function) (fetched : Fetched) (taken : Transition σ)
      (hat : execution.Fetches program function fetched)
      (hbyte : fetched.opcode.byte = Opcode.callf)
      (hcase : CallCase program execution fetched taken) :
      StepCase program host execution taken
  | ret (function : Function) (fetched : Fetched) (taken : Transition σ)
      (hat : execution.Fetches program function fetched)
      (hbyte : fetched.opcode.byte = Opcode.retf)
      (hcase : RetCase execution function taken) :
      StepCase program host execution taken
  | jump (function : Function) (fetched : Fetched) (taken : Transition σ)
      (hat : execution.Fetches program function fetched)
      (hbyte : fetched.opcode.byte = Opcode.rjump)
      (hcase : JumpCase execution function fetched taken) :
      StepCase program host execution taken
  | branch (function : Function) (fetched : Fetched) (taken : Transition σ)
      (hat : execution.Fetches program function fetched)
      (hbyte : fetched.opcode.byte = Opcode.rjumpi)
      (hcase : BranchCase execution function fetched taken) :
      StepCase program host execution taken
  | host (function : Function) (fetched : Fetched) (taken : Transition σ)
      (hat : execution.Fetches program function fetched)
      (hbyte : ¬ IsControl fetched.opcode.byte)
      (hcase : HostCase host execution fetched taken) :
      StepCase program host execution taken

/-- **A step goes one of these ways.** -/
theorem step_cases (program : Program) (host : Host σ) (execution : Execution σ) :
    StepCase program host execution (execution.step program host) := by
  unfold step
  split
  · next hnone => exact .noFunction hnone
  · next function hfunction =>
    split
    · next fault hfetch => exact .noInstruction function fault hfunction hfetch
    · next fetched hfetch =>
      have hat : execution.Fetches program function fetched := ⟨hfunction, hfetch⟩
      simp only
      split
      · next hbyte => exact .stop function fetched hat hbyte
      split
      · next hbyte => exact .invalid function fetched hat hbyte
      split
      · next hbyte => exact .call function fetched _ hat hbyte (call_cases ..)
      split
      · next hbyte => exact .ret function fetched _ hat hbyte (ret_cases ..)
      split
      · next hbyte => exact .jump function fetched _ hat hbyte (jump_cases ..)
      split
      · next hbyte => exact .branch function fetched _ hat hbyte (branch_cases ..)
      · refine .host function fetched _ hat ?_ (delegate_cases ..)
        rw [IsControl]
        simp only [not_or]
        exact ⟨‹_›, ‹_›, ‹_›, ‹_›, ‹_›, ‹_›⟩

theorem StepCase.eq_step {program : Program} {host : Host σ} {execution : Execution σ}
    {taken : Transition σ} (hcase : StepCase program host execution taken) :
    taken = execution.step program host := by
  cases hcase with
  | noFunction hnone => simp only [step, hnone]
  | noInstruction function fault hfunction hfetch => simp only [step, hfunction, hfetch]
  | stop function fetched hat hbyte =>
    simp only [step, hat.function_eq, hat.fetch_eq, hbyte, if_true]
  | invalid function fetched hat hbyte =>
    simp only [step, hat.function_eq, hat.fetch_eq, hbyte, if_true]
    rfl
  | call function fetched _ hat hbyte hcase =>
    rw [hcase.eq_call]
    simp only [step, hat.function_eq, hat.fetch_eq, hbyte]
    rfl
  | ret function fetched _ hat hbyte hcase =>
    rw [hcase.eq_ret]
    simp only [step, hat.function_eq, hat.fetch_eq, hbyte]
    rfl
  | jump function fetched _ hat hbyte hcase =>
    rw [hcase.eq_jump]
    simp only [step, hat.function_eq, hat.fetch_eq, hbyte]
    rfl
  | branch function fetched _ hat hbyte hcase =>
    rw [hcase.eq_branch]
    simp only [step, hat.function_eq, hat.fetch_eq, hbyte]
    rfl
  | host function fetched _ hat hbyte hcase =>
    rw [hcase.eq_delegate]
    simp only [IsControl, not_or] at hbyte
    obtain ⟨hstop, hinvalid, hcallf, hretf, hrjump, hrjumpi⟩ := hbyte
    simp only [step, hat.function_eq, hat.fetch_eq, if_neg hstop, if_neg hinvalid, if_neg hcallf,
      if_neg hretf, if_neg hrjump, if_neg hrjumpi]

end Execution

end EvmObject.Machine
