import EvmObject.Proofs.Machine.CallerStack

/-!
# What a failed step leaves behind

A step can fail in a dozen places, and some of them come after the machine has looked at the top
word, found the callee or built a frame. `exists_abort_of_step` says that none comes after a change:
an aborted step is aborted at the execution that it started with, unless it is the host that failed,
and then at what the host left. So everything hangs on the host. One that `FailsCleanly` hands the
data stack back as it was, and the stack-only host keeps its trace too, for every opcode and every
stack (`stackHost_effect_of_fault`).
-/

namespace EvmObject.Machine

/-! ## Hosts that fail cleanly -/

/-- An instruction that fails leaves the data stack as it was. -/
def Host.FailsCleanly {σ : Type} (host : Host σ) : Prop :=
  ∀ (op : Opcode) (immediate : Bytes) (stack : Stack) (state : σ) (fault : Fault),
    (host.execute op immediate stack state).result = .error fault →
      (host.execute op immediate stack state).stack = stack

/-- A host stays clean if some opcodes are taken from it. -/
theorem Host.FailsCleanly.refusing {σ : Type} {host : Host σ} (hhost : host.FailsCleanly)
    (refuses : Opcode → Bool) : (host.refusing refuses).FailsCleanly := by
  intro op immediate stack state fault hfault
  unfold Host.refusing at hfault ⊢
  simp only at hfault ⊢
  split
  · rfl
  · next hserved =>
    rw [if_neg hserved] at hfault
    exact hhost op immediate stack state fault hfault

/-- **The stack-only host fails without a trace:** stack and list of opcodes are as they were. -/
theorem stackHost_effect_of_fault {op : Opcode} {immediate : Bytes} {stack : Stack}
    {trace : StackHost.Trace} {fault : Fault}
    (hfault : (stackHost.execute op immediate stack trace).result = .error fault) :
    stackHost.execute op immediate stack trace = ⟨.error fault, stack, trace⟩ := by
  by_cases hfits : 0x5F ≤ op.byte ∧ op.byte ≤ 0x7F → immediate.length ≤ Limits.wordBytes
  · obtain ⟨act, f, hperform, hrewrites⟩ := StackHost.exists_rewrites hfits
    have hexecute := StackHost.execute_eq (hperform stack) trace
    rw [hexecute] at hfault ⊢
    rw [hrewrites.eq_of_error hfault]
    rfl
  · obtain ⟨hpush, hlong⟩ := Classical.not_imp.mp hfits
    rw [StackHost.execute_of_long hpush hlong] at hfault ⊢
    rw [Except.error.inj hfault]

theorem stackHost_failsCleanly : stackHost.FailsCleanly := by
  intro op immediate stack trace fault hfault
  rw [stackHost_effect_of_fault hfault]

/-! ## Aborted steps -/

namespace Execution

variable {σ : Type} {program : Program} {host : Host σ} {execution : Execution σ} {fault : Fault}

/-- **A step is aborted before it has changed anything,** or because the host failed. -/
theorem exists_abort_of_step (hfault : (execution.step program host).outcome = .aborted fault) :
    execution.step program host = execution.abort fault ∨
      ∃ fetched : Fetched, (execution.effectOf host fetched).result = .error fault ∧
        execution.step program host =
          (execution.hosted (execution.effectOf host fetched)).abort fault := by
  have hcases := step_cases program host execution
  generalize execution.step program host = taken at hcases hfault ⊢
  cases hcases with
  | noFunction => cases hfault; exact .inl rfl
  | noInstruction => cases hfault; exact .inl rfl
  | stop => cases hfault
  | invalid => cases hfault; exact .inl rfl
  | call _ _ _ _ _ hcase =>
    refine .inl ?_
    cases hcase with
    | unknown => cases hfault; rfl
    | short => cases hfault; rfl
    | full => cases hfault; rfl
    | entered => cases hfault
  | ret _ _ _ _ _ hcase =>
    refine .inl ?_
    cases hcase with
    | short => cases hfault; rfl
    | noFrame => cases hfault; rfl
    | last => cases hfault
    | returned => cases hfault
  | jump _ _ _ _ _ hcase =>
    refine .inl ?_
    cases hcase with
    | nowhere => cases hfault; rfl
    | taken => cases hfault
  | branch _ _ _ _ _ hcase =>
    refine .inl ?_
    cases hcase with
    | short => cases hfault; rfl
    | unread => cases hfault; rfl
    | untaken => cases hfault
    | nowhere => cases hfault; rfl
    | taken => cases hfault
  | host _ fetched _ _ _ hcase =>
    cases hcase with
    | short => cases hfault; exact .inl rfl
    | failed _ _ hresult => cases hfault; exact .inr ⟨fetched, hresult, rfl⟩
    | ended => cases hfault
    | done => cases hfault

end Execution

/-- **A failed instruction changes nothing but the return stack.** Take any program, valid or not,
any host that hands the data stack back when it fails, and any execution, reachable or not. If a
step is aborted, data stack, code section and offset are those before the step, and no frames are
left. The stack-only host is such a host for every opcode, operand and stack, and under it the list
of carried out opcodes stays as well, so that nothing but the frames has changed. -/
theorem failed_step_keeps_all_but_frames (program : Program) :
    (∀ {σ : Type} (host : Host σ), host.FailsCleanly →
      ∀ (before : Execution σ) (fault : Fault),
        (before.step program host).outcome = .aborted fault →
          (before.step program host).after.stack = before.stack ∧
            (before.step program host).after.state =
              ⟨before.state.function, before.state.pc, .empty⟩) ∧
      stackHost.FailsCleanly ∧
      ∀ (before : Execution StackHost.Trace) (fault : Fault),
        (before.step program stackHost).outcome = .aborted fault →
          (before.step program stackHost).after =
            ⟨⟨before.state.function, before.state.pc, .empty⟩, before.stack, before.host⟩ := by
  refine ⟨fun host hhost before fault hfault => ?_, stackHost_failsCleanly,
    fun before fault hfault => ?_⟩
  · rcases Execution.exists_abort_of_step hfault with hstep | ⟨fetched, hresult, hstep⟩
    · rw [hstep]
      exact ⟨rfl, rfl⟩
    · rw [hstep]
      exact ⟨hhost _ _ _ _ _ hresult, rfl⟩
  · rcases Execution.exists_abort_of_step hfault with hstep | ⟨fetched, hresult, hstep⟩
    · rw [hstep]
      rfl
    · have heffect : before.effectOf stackHost fetched = ⟨.error fault, before.stack, before.host⟩ :=
        stackHost_effect_of_fault hresult
      rw [hstep, heffect]
      rfl

/-- The addition of `sumBody` fails under a host that refuses additions, and under the stack-only
host if one of the words that it takes belongs to the caller. -/
theorem failed_step_keeps_all_but_frames_sum :
    let program := Program.ofValidated sumValid
    let refusing := stackHost.refusing fun op => op.byte == 0x01
    let before := sumCalledAbove 10
    let short := { before with stack := before.stack.pop.2 }
    (refusing.FailsCleanly ∧ (before.step program refusing).outcome = .aborted .host ∧
      (before.step program refusing).after.stack.toList = [10, 2, 3] ∧
      (before.step program refusing).after.state = ⟨1, 0, .empty⟩) ∧
    (short.step program stackHost).outcome = .aborted .stackUnderflow ∧
      (short.step program stackHost).after = ⟨⟨1, 0, .empty⟩, short.stack, []⟩ := by
  intro program refusing before short
  obtain ⟨hany, hclean, hstackHost⟩ := failed_step_keeps_all_but_frames program
  have hrefusing : refusing.FailsCleanly := hclean.refusing _
  have hhost : (before.step program refusing).outcome = .aborted .host := by decide +kernel
  have hshort : (short.step program stackHost).outcome = .aborted .stackUnderflow := by
    decide +kernel
  obtain ⟨hstack, hstate⟩ := hany refusing hrefusing before .host hhost
  refine ⟨⟨hrefusing, hhost, ?_, hstate⟩, hshort, hstackHost short .stackUnderflow hshort⟩
  rw [hstack]
  rfl

end EvmObject.Machine
