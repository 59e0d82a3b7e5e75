import EvmObject.Proofs.Machine.Activations
import EvmObject.Proofs.Machine.ControlFlow

/-!
# The faults of a valid container

An execution of a valid container on the stack-only host is aborted for four reasons and no other,
and `FaultsWith` says for each of them exactly when. The checks for too few words stand in four
branches of the step and read the number asked for from three places: the table, the signature of
the running function, and that of the called one. `IsShort` puts them together, and one lemma for
each branch says that it is what the machine checks there.

The machine has checks for more than that. Validation excludes some of the faults
(`control_flow_safety`), and a return always finds a frame.
-/

namespace EvmObject.Machine

open Validation (Validated)

namespace Execution

/-! ## The conditions -/

/-- The instruction asks for more words than the running function can reach: a call for the inputs
of the called function, a return for the outputs of its own, a branch for one word, and an
instruction of the host for its inputs. -/
def IsShort {σ : Type} (execution : Execution σ) (valid : Validated) (op : Opcode) : Prop :=
  let state := execution.state
  let isShortOf (count : Nat) := execution.stack.size < state.frames.height + count
  (op.byte = Opcode.callf ∧ ∃ callee signature,
    valid.calleeAt? state.function state.pc = some callee ∧
      valid.container.signature? callee = some signature ∧ isShortOf signature.inputs.toNat) ∨
  (op.byte = Opcode.retf ∧ ∃ signature,
    valid.container.signature? state.function = some signature ∧
      isShortOf signature.outputs.toNat) ∨
  (op.byte = Opcode.rjumpi ∧ isShortOf 1) ∨
  (¬ IsControl op.byte ∧ isShortOf op.info.inputs)

/-- When the instruction is aborted with a fault. -/
def FaultsWith {σ : Type} (execution : Execution σ) (valid : Validated) (op : Opcode) :
    Fault → Prop
  | .invalidOpcode => op.byte = Opcode.invalid
  | .stackUnderflow => execution.IsShort valid op
  | .returnStackOverflow => op.byte = Opcode.callf ∧ ¬ execution.IsShort valid op ∧
      execution.state.frames.size = Limits.returnStack
  | .stackOverflow => ¬ IsControl op.byte ∧ ¬ execution.IsShort valid op ∧
      Limits.stack < execution.stack.size - op.info.inputs + op.info.outputs
  | _ => False

/-! ## Too few words -/

section
variable {σ : Type} {execution : Execution σ} {valid : Validated} {function : Function}
  {fetched : Fetched} {config : Validation.Config} {raw : Bytes}

theorem not_isShort_iff {op : Opcode} {count : Nat}
    (hshort : execution.IsShort valid op ↔ execution.reaches count = false) :
    ¬ execution.IsShort valid op ↔ execution.reaches count = true := by
  rw [hshort, Bool.not_eq_false]

variable (hlow : execution.state.frames.height ≤ Limits.stack)
include hlow

theorem isShort_iff_of_callf (hvalid : Validation.validate config raw = .ok valid)
    (hat : execution.Fetches (Program.ofValidated valid) function fetched)
    (hbyte : fetched.opcode.byte = Opcode.callf) {callee : Function}
    (hcallee : (Program.ofValidated valid).function? fetched.callee = some callee) :
    execution.IsShort valid fetched.opcode ↔
      execution.reaches callee.signature.inputs.toNat = false := by
  obtain ⟨_, hloaded⟩ := exists_loaded_of_function? hvalid hcallee
  have hnamed := hat.calleeAt?_eq hvalid hbyte
  rw [reaches_eq_false_iff_of_low hlow callee.signature.inputs.toNat_lt]
  unfold IsShort
  simp +decide [hbyte, IsControl, hnamed, hloaded.signature_eq]

theorem isShort_iff_of_retf (hvalid : Validation.validate config raw = .ok valid)
    (hat : execution.Fetches (Program.ofValidated valid) function fetched)
    (hbyte : fetched.opcode.byte = Opcode.retf) :
    execution.IsShort valid fetched.opcode ↔
      execution.reaches function.signature.outputs.toNat = false := by
  obtain ⟨_, hloaded⟩ := exists_loaded_of_function? hvalid hat.function_eq
  rw [reaches_eq_false_iff_of_low hlow function.signature.outputs.toNat_lt]
  unfold IsShort
  simp +decide [hbyte, IsControl, hloaded.signature_eq]

theorem isShort_iff_of_rjumpi (hbyte : fetched.opcode.byte = Opcode.rjumpi) :
    execution.IsShort valid fetched.opcode ↔ execution.reaches 1 = false := by
  rw [reaches_eq_false_iff_of_low hlow (by decide)]
  unfold IsShort
  simp +decide [hbyte, IsControl]

theorem isShort_iff_of_host (hbyte : ¬ IsControl fetched.opcode.byte) :
    execution.IsShort valid fetched.opcode ↔
      execution.reaches fetched.opcode.info.inputs = false := by
  have hothers := hbyte
  simp only [IsControl, not_or] at hothers
  rw [reaches_eq_false_iff_of_low hlow fetched.opcode.inputs_lt]
  unfold IsShort
  simp [hbyte, hothers]

omit hlow in
/-- The stack-only host fails within reach for want of room and for nothing else. -/
theorem effectOf_eq_error_iff {execution : Execution StackHost.Trace} {program : Program}
    (hlow : execution.state.frames.height ≤ Limits.stack)
    (hat : execution.Fetches program function fetched)
    (hreaches : execution.reaches fetched.opcode.info.inputs = true) {fault : Fault} :
    (execution.effectOf stackHost fetched).result = .error fault ↔
      fault = .stackOverflow ∧ Limits.stack <
        execution.stack.size - fetched.opcode.info.inputs + fetched.opcode.info.outputs := by
  have hfits : fetched.immediate.length ≤ Limits.wordBytes :=
    hat.length_eq ▸ fetched.opcode.immediateSize_le
  obtain ⟨act, f, hperform, hrewrites⟩ := StackHost.exists_rewrites fun _ => hfits
  have hreach := (reaches_iff_of_low hlow fetched.opcode.inputs_lt).mp hreaches
  have henough : fetched.opcode.info.inputs ≤ execution.stack.size := by omega
  rw [effectOf, StackHost.execute_eq (hperform execution.stack)]
  rcases hrewrites.cases_of_le henough with ⟨hfull, hfails⟩ | ⟨hroom, after, hdone, _⟩
  · simp only [hfails, Except.error.injEq, hfull, and_true]
    exact eq_comm
  · simp only [hdone, reduceCtorEq, false_iff, not_and, Nat.not_lt]
    exact fun _ => hroom

end

/-! ## One step -/

section
variable {execution : Execution StackHost.Trace} {valid : Validated} {function : Function}
  {fetched : Fetched} {config : Validation.Config} {raw : Bytes} {fault : Fault}
  {taken : Transition StackHost.Trace}
  (hlow : execution.state.frames.height ≤ Limits.stack)
include hlow

theorem faultsWith_of_call (hvalid : Validation.validate config raw = .ok valid)
    (hat : execution.Fetches (Program.ofValidated valid) function fetched)
    (hbyte : fetched.opcode.byte = Opcode.callf)
    (hcase : CallCase (Program.ofValidated valid) execution fetched taken)
    (hfault : taken.outcome = .aborted fault) (hsafe : ¬ fault.IsAstray) :
    execution.FaultsWith valid fetched.opcode fault := by
  cases hcase with
  | unknown =>
    cases hfault
    exact absurd (by decide) hsafe
  | short callee hcallee hshort =>
    cases hfault
    exact (isShort_iff_of_callf hlow hvalid hat hbyte hcallee).mpr hshort
  | full callee hcallee hreaches hfull =>
    cases hfault
    have hnot := not_isShort_iff (isShort_iff_of_callf hlow hvalid hat hbyte hcallee)
    exact ⟨hbyte, hnot.mpr hreaches, hfull⟩
  | entered => cases hfault

theorem faultsWith_of_ret (hvalid : Validation.validate config raw = .ok valid)
    (hat : execution.Fetches (Program.ofValidated valid) function fetched)
    (hbyte : fetched.opcode.byte = Opcode.retf)
    (hframe : execution.state.frames.isEmpty = false) (hcase : RetCase execution function taken)
    (hfault : taken.outcome = .aborted fault) :
    execution.FaultsWith valid fetched.opcode fault := by
  cases hcase with
  | short hshort =>
    cases hfault
    exact (isShort_iff_of_retf hlow hvalid hat hbyte).mpr hshort
  | noFrame _ hempty =>
    rw [hframe] at hempty
    cases hempty
  | last => cases hfault
  | returned => cases hfault

theorem faultsWith_of_branch (hbyte : fetched.opcode.byte = Opcode.rjumpi)
    (hcase : BranchCase execution function fetched taken)
    (hfault : taken.outcome = .aborted fault) (hsafe : ¬ fault.IsAstray) :
    execution.FaultsWith valid fetched.opcode fault := by
  cases hcase with
  | short hshort =>
    cases hfault
    exact (isShort_iff_of_rjumpi hlow hbyte).mpr hshort
  | unread hreaches hpeek => exact absurd hpeek (peek_ne_error_of_low hlow hreaches)
  | untaken => cases hfault
  | nowhere =>
    cases hfault
    exact absurd (by decide) hsafe
  | taken => cases hfault

theorem faultsWith_of_host
    (hat : execution.Fetches (Program.ofValidated valid) function fetched)
    (hbyte : ¬ IsControl fetched.opcode.byte) (hcase : HostCase stackHost execution fetched taken)
    (hfault : taken.outcome = .aborted fault) :
    execution.FaultsWith valid fetched.opcode fault := by
  cases hcase with
  | short hshort =>
    cases hfault
    exact (isShort_iff_of_host hlow hbyte).mpr hshort
  | failed _ hreaches hresult =>
    cases hfault
    obtain ⟨rfl, hfull⟩ := (effectOf_eq_error_iff hlow hat hreaches).mp hresult
    exact ⟨hbyte, (not_isShort_iff (isShort_iff_of_host hlow hbyte)).mpr hreaches, hfull⟩
  | ended => cases hfault
  | done => cases hfault

variable (hvalid : Validation.validate config raw = .ok valid)
  (hat : execution.Fetches (Program.ofValidated valid) function fetched)
  (hsafe : ∀ fault,
    (execution.step (Program.ofValidated valid) stackHost).outcome = .aborted fault →
      ¬ fault.IsAstray)
include hvalid hat hsafe

/-- **A step is aborted only if the condition of the fault is met.** -/
theorem faultsWith_of_step (hframe : execution.state.frames.isEmpty = false)
    (hfault : (execution.step (Program.ofValidated valid) stackHost).outcome = .aborted fault) :
    execution.FaultsWith valid fetched.opcode fault := by
  have hnotAstray := hsafe fault hfault
  have hcases := step_cases (Program.ofValidated valid) stackHost execution
  generalize execution.step (Program.ofValidated valid) stackHost = taken at hcases hfault
  cases hcases with
  | noFunction hnone =>
    rw [hat.function_eq] at hnone
    cases hnone
  | noInstruction _ _ hfunction hfetch =>
    obtain rfl := Option.some.inj (hat.function_eq.symm.trans hfunction)
    rw [hat.fetch_eq] at hfetch
    cases hfetch
  | stop => cases hfault
  | invalid _ _ hat' hbyte =>
    obtain ⟨rfl, rfl⟩ := hat.unique hat'
    cases hfault
    exact hbyte
  | call _ _ _ hat' hbyte hcase =>
    obtain ⟨rfl, rfl⟩ := hat.unique hat'
    exact faultsWith_of_call hlow hvalid hat hbyte hcase hfault hnotAstray
  | ret _ _ _ hat' hbyte hcase =>
    obtain ⟨rfl, rfl⟩ := hat.unique hat'
    exact faultsWith_of_ret hlow hvalid hat hbyte hframe hcase hfault
  | jump _ _ _ _ _ hcase =>
    cases hcase with
    | nowhere =>
      cases hfault
      exact absurd (by decide) hnotAstray
    | taken => cases hfault
  | branch _ _ _ hat' hbyte hcase =>
    obtain ⟨rfl, rfl⟩ := hat.unique hat'
    exact faultsWith_of_branch hlow hbyte hcase hfault hnotAstray
  | host _ _ _ hat' hbyte hcase =>
    obtain ⟨rfl, rfl⟩ := hat.unique hat'
    exact faultsWith_of_host hlow hat hbyte hcase hfault

omit hvalid hlow in
/-- A call that is not aborted for want of its section has one. -/
theorem exists_callee (hbyte : fetched.opcode.byte = Opcode.callf) :
    ∃ callee, (Program.ofValidated valid).function? fetched.callee = some callee := by
  cases hcallee : (Program.ofValidated valid).function? fetched.callee with
  | some callee => exact ⟨callee, rfl⟩
  | none =>
    have hcase : StepCase (Program.ofValidated valid) stackHost execution _ :=
      .call function fetched _ hat hbyte (.unknown hcallee)
    have hfault : (execution.step (Program.ofValidated valid) stackHost).outcome =
        .aborted .unknownSection := by
      rw [← hcase.eq_step]
      rfl
    exact absurd (by decide) (hsafe _ hfault)

/-- **A step is aborted if the condition of a fault is met.** -/
theorem step_of_faultsWith (hfault : execution.FaultsWith valid fetched.opcode fault) :
    (execution.step (Program.ofValidated valid) stackHost).outcome = .aborted fault := by
  cases fault with
  | invalidOpcode =>
    rw [← (StepCase.invalid function fetched hat hfault).eq_step]
    rfl
  | stackUnderflow =>
    -- each of the four checks makes its own step, whose lemma reads the shortage back
    have hshort : execution.IsShort valid fetched.opcode := hfault
    rcases hfault with ⟨hbyte, _⟩ | ⟨hbyte, _⟩ | ⟨hbyte, _⟩ | ⟨hbyte, _⟩
    · obtain ⟨callee, hcallee⟩ := exists_callee hat hsafe hbyte
      have hreaches := (isShort_iff_of_callf hlow hvalid hat hbyte hcallee).mp hshort
      rw [← (StepCase.call function fetched _ hat hbyte (.short callee hcallee hreaches)).eq_step]
      rfl
    · have hreaches := (isShort_iff_of_retf hlow hvalid hat hbyte).mp hshort
      rw [← (StepCase.ret function fetched _ hat hbyte (.short hreaches)).eq_step]
      rfl
    · have hreaches := (isShort_iff_of_rjumpi hlow hbyte).mp hshort
      rw [← (StepCase.branch function fetched _ hat hbyte (.short hreaches)).eq_step]
      rfl
    · have hreaches := (isShort_iff_of_host hlow hbyte).mp hshort
      rw [← (StepCase.host function fetched _ hat hbyte (.short hreaches)).eq_step]
      rfl
  | returnStackOverflow =>
    obtain ⟨hbyte, hnot, hfull⟩ := hfault
    obtain ⟨callee, hcallee⟩ := exists_callee hat hsafe hbyte
    have hreaches := (not_isShort_iff (isShort_iff_of_callf hlow hvalid hat hbyte hcallee)).mp hnot
    rw [← (StepCase.call function fetched _ hat hbyte
      (.full callee hcallee hreaches hfull)).eq_step]
    rfl
  | stackOverflow =>
    obtain ⟨hbyte, hnot, hfull⟩ := hfault
    have hreaches := (not_isShort_iff (isShort_iff_of_host hlow hbyte)).mp hnot
    have hresult := (effectOf_eq_error_iff hlow hat hreaches).mpr ⟨rfl, hfull⟩
    rw [← (StepCase.host function fetched _ hat hbyte (.failed _ hreaches hresult)).eq_step]
    rfl
  | invalidJump => cases hfault
  | pcOutOfBounds => cases hfault
  | opcodeNotFound => cases hfault
  | unknownSection => cases hfault
  | host => cases hfault

end

end Execution

/-- **The exact faults of a valid container.** In every state that a run from the start reaches, the
container has an opcode at the position, and the next step is aborted with a fault exactly if
`FaultsWith` says so: for `INVALID`, for too few words, for a call on a full return stack, and for
an instruction of the host that would leave too many words. -/
theorem exact_faults {config : Validation.Config} {raw : Bytes} {valid : Validated}
    (hvalid : Validation.validate config raw = .ok valid) (trace : StackHost.Trace) (n : Nat)
    (execution : Execution StackHost.Trace)
    (hrun : (Execution.initial trace).runWithin (Program.ofValidated valid) stackHost n =
      (.running, execution)) :
    ∃ op, valid.opcodeAt? execution.state.function execution.state.pc = some op ∧
      ∀ fault,
        (execution.step (Program.ofValidated valid) stackHost).outcome = .aborted fault ↔
          execution.FaultsWith valid op fault := by
  obtain ⟨htrack, hstep⟩ := Execution.onTrack_of_run hvalid stackHost_keepsTrack hrun
  have hframe : execution.state.frames.isEmpty = false :=
    Execution.runWithin_induction
      (P := fun execution => execution.state.frames.isEmpty = false)
      (fun execution hbefore hrunning =>
        (Execution.moved_of_step hrunning).isEmpty_eq_false hbefore) rfl hrun
  have hlow : execution.state.frames.height ≤ Limits.stack :=
    (Execution.isLow_of_run ReturnStack.isLow_initial hrun).height_le
  obtain ⟨function, split, item, op, _, hat⟩ := Execution.exists_standsAt htrack
  refine ⟨op, hat.opcodeAt?_eq hvalid, fun fault => ⟨fun hfault => ?_, fun hfaults => ?_⟩⟩
  · exact Execution.faultsWith_of_step hlow hvalid hat hstep.fault hframe hfault
  · exact Execution.step_of_faultsWith hlow hvalid hat hstep.fault hfaults

/-- Behind two pushes the call of `sumBody` finds its two arguments. -/
theorem exact_faults_sum :
    ∃ execution, Validation.validate .default (Container.ofBody sumBody).raw = .ok sumValid ∧
      (Execution.initial []).runWithin (Program.ofValidated sumValid) stackHost 2 =
        (.running, execution) ∧
      sumValid.byteAt? execution.state.function execution.state.pc = some Opcode.callf ∧
      ∃ op, sumValid.opcodeAt? execution.state.function execution.state.pc = some op ∧
        ∀ fault,
          (execution.step (Program.ofValidated sumValid) stackHost).outcome = .aborted fault ↔
            execution.FaultsWith sumValid op fault := by
  have hvalid : Validation.validate .default (Container.ofBody sumBody).raw = .ok sumValid :=
    eq_ok_of_toOption (by decide +kernel)
  let after := (Execution.initial []).runWithin (Program.ofValidated sumValid) stackHost 2
  have hrunning : after.1 = .running := by decide +kernel
  have hrun : after = (.running, after.2) := by rw [← hrunning]
  exact ⟨after.2, hvalid, hrun, by decide +kernel, exact_faults hvalid [] 2 after.2 hrun⟩

end EvmObject.Machine
