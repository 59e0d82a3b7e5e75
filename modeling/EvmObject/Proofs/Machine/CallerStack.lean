import EvmObject.Proofs.Machine.Activations
import EvmObject.Proofs.Machine.ControlFlow

/-!
# What a function learns of its caller's stack

Nothing. Two executions that differ in the words below the running function, and in nothing else, go
the same way step by step, as long as that function and those that it calls have not returned from
it. `SameFrom` is the relation between them. It is kept by each kind of instruction, by a step
(`SameFrom.step`) and by a run (`SameFrom.run`); what carries it through nested calls is that none
of these reaches deeper than the function they are called from.
-/

namespace EvmObject.Machine

namespace Execution

variable {σ : Type} {program : Program} {host : Host σ} {base : Nat} {left right : Execution σ}

/-- The executions differ at most in the words below a height. -/
structure SameFrom (base : Nat) (left right : Execution σ) : Prop where
  state_eq : left.state = right.state
  host_eq : left.host = right.host
  stack : Stack.SameAbove base left.stack right.stack

/-- The transitions have one outcome and lead to executions that differ at most below a height. -/
structure SameTransition (base : Nat) (left right : Transition σ) : Prop where
  outcome_eq : left.outcome = right.outcome
  after : SameFrom base left.after right.after

namespace SameFrom

variable (hsame : SameFrom base left right)
include hsame

/-! ## What both read -/

theorem reaches_eq (count : Nat) : left.reaches count = right.reaches count := by
  unfold reaches
  rw [hsame.state_eq, hsame.stack.size_eq]

theorem fetches {function : Function} {fetched : Fetched}
    (hat : left.Fetches program function fetched) : right.Fetches program function fetched :=
  ⟨hsame.state_eq ▸ hat.function_eq, hsame.state_eq ▸ hat.fetch_eq⟩

theorem frameFor_eq (fetched : Fetched) (callee : Function) :
    left.frameFor fetched callee = right.frameFor fetched callee := by
  unfold frameFor heightBelow
  rw [hsame.state_eq, hsame.stack.size_eq]

/-! ## Ways to end a step -/

theorem abort (fault : Fault) : SameTransition base (left.abort fault) (right.abort fault) := by
  refine ⟨rfl, ?_, hsame.host_eq, hsame.stack⟩
  show { left.state with frames := ReturnStack.empty } = _
  rw [hsame.state_eq]
  rfl

theorem halt (ending : Halt) {leftEvent? rightEvent? : Option Event} :
    SameTransition base (left.halt ending leftEvent?) (right.halt ending rightEvent?) :=
  ⟨rfl, hsame⟩

theorem goto {leftState rightState : State} (hstate : leftState = rightState)
    {leftEvent? rightEvent? : Option Event} :
    SameTransition base (left.goto leftState leftEvent?) (right.goto rightState rightEvent?) :=
  ⟨rfl, hstate, hsame.host_eq, hsame.stack⟩

/-! ## Control transfers -/

theorem call {fetched : Fetched} {taken : Transition σ}
    (hcase : CallCase program left fetched taken) :
    SameTransition base taken (right.call program fetched) := by
  cases hcase with
  | unknown hcallee =>
    rw [← (CallCase.unknown hcallee).eq_call]
    exact hsame.abort _
  | short callee hcallee hshort =>
    rw [hsame.reaches_eq] at hshort
    rw [← (CallCase.short callee hcallee hshort).eq_call]
    exact hsame.abort _
  | full callee hcallee hreaches hfull =>
    rw [hsame.reaches_eq] at hreaches
    rw [hsame.state_eq] at hfull
    rw [← (CallCase.full callee hcallee hreaches hfull).eq_call]
    exact hsame.abort _
  | entered callee frames hcallee hreaches hpush =>
    rw [hsame.reaches_eq] at hreaches
    rw [hsame.state_eq, hsame.frameFor_eq] at hpush
    rw [← (CallCase.entered callee frames hcallee hreaches hpush).eq_call]
    exact hsame.goto rfl

theorem ret {function : Function} {taken : Transition σ} (hcase : RetCase left function taken) :
    SameTransition base taken (right.ret function) := by
  cases hcase with
  | short hshort =>
    rw [hsame.reaches_eq] at hshort
    rw [← (RetCase.short hshort).eq_ret]
    exact hsame.abort _
  | noFrame hreaches hempty =>
    rw [hsame.reaches_eq] at hreaches
    rw [hsame.state_eq] at hempty
    rw [← (RetCase.noFrame hreaches hempty).eq_ret]
    exact hsame.abort _
  | last frame frames hreaches hpop hlast =>
    rw [hsame.reaches_eq] at hreaches
    rw [hsame.state_eq] at hpop
    rw [← (RetCase.last frame frames hreaches hpop hlast).eq_ret, hsame.state_eq]
    exact ⟨rfl, rfl, hsame.host_eq, hsame.stack⟩
  | returned frame frames hreaches hpop hmore =>
    rw [hsame.reaches_eq] at hreaches
    rw [hsame.state_eq] at hpop
    rw [← (RetCase.returned frame frames hreaches hpop hmore).eq_ret]
    exact hsame.goto rfl

theorem jump {function : Function} {fetched : Fetched} {taken : Transition σ}
    (hcase : JumpCase left function fetched taken) :
    SameTransition base taken (right.jump function fetched) := by
  cases hcase with
  | nowhere htarget =>
    rw [← (JumpCase.nowhere htarget).eq_jump]
    exact hsame.abort _
  | taken target htarget =>
    rw [← (JumpCase.taken target htarget).eq_jump]
    exact hsame.goto (by rw [hsame.state_eq])

/-- The condition lies within reach, so both read the same one. -/
theorem popped (hlow : left.state.frames.height ≤ Limits.stack)
    (hbase : base ≤ left.state.frames.height) (hreaches : left.reaches 1 = true) :
    left.stack.peek 0 = right.stack.peek 0 ∧ SameFrom base left.popped right.popped := by
  have henough := (reaches_iff_of_low hlow (by decide)).mp hreaches
  obtain ⟨hpeek, hstacks⟩ := hsame.stack.pop (by omega)
  exact ⟨hpeek, hsame.state_eq, hsame.host_eq, hstacks⟩

theorem branch (hlow : left.state.frames.height ≤ Limits.stack)
    (hbase : base ≤ left.state.frames.height) {function : Function} {fetched : Fetched}
    {taken : Transition σ} (hcase : BranchCase left function fetched taken) :
    SameTransition base taken (right.branch function fetched) := by
  cases hcase with
  | short hshort =>
    rw [hsame.reaches_eq] at hshort
    rw [← (BranchCase.short hshort).eq_branch]
    exact hsame.abort _
  | unread hreaches hpeek =>
    obtain ⟨hsamePeek, _⟩ := hsame.popped hlow hbase hreaches
    rw [hsame.reaches_eq] at hreaches
    rw [hsamePeek] at hpeek
    rw [← (BranchCase.unread hreaches hpeek).eq_branch]
    exact hsame.abort _
  | untaken hreaches hpeek =>
    obtain ⟨hsamePeek, hpopped⟩ := hsame.popped hlow hbase hreaches
    rw [hsame.reaches_eq] at hreaches
    rw [hsamePeek] at hpeek
    rw [← (BranchCase.untaken hreaches hpeek).eq_branch]
    exact hpopped.goto (by rw [hsame.state_eq])
  | nowhere condition hreaches hpeek hne htarget =>
    obtain ⟨hsamePeek, _⟩ := hsame.popped hlow hbase hreaches
    rw [hsame.reaches_eq] at hreaches
    rw [hsamePeek] at hpeek
    rw [← (BranchCase.nowhere condition hreaches hpeek hne htarget).eq_branch]
    exact hsame.abort _
  | taken condition target hreaches hpeek hne htarget =>
    obtain ⟨hsamePeek, hpopped⟩ := hsame.popped hlow hbase hreaches
    rw [hsame.reaches_eq] at hreaches
    rw [hsamePeek] at hpeek
    rw [← (BranchCase.taken condition target hreaches hpeek hne htarget).eq_branch]
    exact hpopped.goto (by rw [hsame.state_eq])

/-! ## Everything else -/

theorem hosted (hhost : host.StaysInReach) (hlow : left.state.frames.height ≤ Limits.stack)
    (hbase : base ≤ left.state.frames.height)
    {function : Function} {fetched : Fetched} (hat : left.Fetches program function fetched)
    (hreaches : left.reaches fetched.opcode.info.inputs = true) :
    (left.effectOf host fetched).result = (right.effectOf host fetched).result ∧
      SameFrom base (left.hosted (left.effectOf host fetched))
        (right.hosted (right.effectOf host fetched)) := by
  have henough := (reaches_iff_of_low hlow fetched.opcode.inputs_lt).mp hreaches
  obtain ⟨hresult, hafter, hstacks⟩ :=
    hhost.above fetched.opcode fetched.immediate left.stack right.stack left.host base hat.length_eq
      (by omega) hsame.stack
  rw [hsame.host_eq] at hresult hafter hstacks
  unfold effectOf
  rw [hsame.host_eq]
  exact ⟨hresult, hsame.state_eq, hafter, hstacks⟩

theorem delegate (hhost : host.StaysInReach) (hlow : left.state.frames.height ≤ Limits.stack)
    (hbase : base ≤ left.state.frames.height)
    {function : Function} {fetched : Fetched} (hat : left.Fetches program function fetched)
    {taken : Transition σ} (hcase : HostCase host left fetched taken) :
    SameTransition base taken (right.delegate host fetched) := by
  cases hcase with
  | short hshort =>
    rw [hsame.reaches_eq] at hshort
    rw [← (HostCase.short hshort).eq_delegate]
    exact hsame.abort _
  | failed fault hreaches hresult =>
    obtain ⟨hsameResult, hhosted⟩ := hsame.hosted hhost hlow hbase hat hreaches
    rw [hsame.reaches_eq] at hreaches
    rw [hsameResult] at hresult
    rw [← (HostCase.failed fault hreaches hresult).eq_delegate]
    exact hhosted.abort _
  | ended ending hreaches hresult hending =>
    obtain ⟨hsameResult, hhosted⟩ := hsame.hosted hhost hlow hbase hat hreaches
    rw [hsame.reaches_eq] at hreaches
    rw [hsameResult] at hresult
    rw [← (HostCase.ended ending hreaches hresult hending).eq_delegate]
    exact hhosted.halt _
  | done hreaches hresult hending =>
    obtain ⟨hsameResult, hhosted⟩ := hsame.hosted hhost hlow hbase hat hreaches
    rw [hsame.reaches_eq] at hreaches
    rw [hsameResult] at hresult
    rw [← (HostCase.done hreaches hresult hending).eq_delegate]
    exact hhosted.goto (by rw [hsame.state_eq])

/-! ## Steps and runs -/

/-- **Executions that differ below the running function take the same step.** -/
theorem step (hhost : host.StaysInReach) (hlow : left.state.frames.height ≤ Limits.stack)
    (hbase : base ≤ left.state.frames.height) :
    SameTransition base (left.step program host) (right.step program host) := by
  have hcases := step_cases program host left
  generalize left.step program host = taken at hcases ⊢
  cases hcases with
  | noFunction hnone =>
    rw [hsame.state_eq] at hnone
    rw [← (StepCase.noFunction hnone).eq_step]
    exact hsame.abort _
  | noInstruction function fault hfunction hfetch =>
    rw [hsame.state_eq] at hfunction hfetch
    rw [← (StepCase.noInstruction function fault hfunction hfetch).eq_step]
    exact hsame.abort _
  | stop function fetched hat hbyte =>
    rw [← (StepCase.stop function fetched (hsame.fetches hat) hbyte).eq_step]
    exact hsame.halt _
  | invalid function fetched hat hbyte =>
    rw [← (StepCase.invalid function fetched (hsame.fetches hat) hbyte).eq_step]
    exact hsame.abort _
  | call function fetched _ hat hbyte hcase =>
    rw [← (StepCase.call function fetched _ (hsame.fetches hat) hbyte (call_cases ..)).eq_step]
    exact hsame.call hcase
  | ret function fetched _ hat hbyte hcase =>
    rw [← (StepCase.ret function fetched _ (hsame.fetches hat) hbyte (ret_cases ..)).eq_step]
    exact hsame.ret hcase
  | jump function fetched _ hat hbyte hcase =>
    rw [← (StepCase.jump function fetched _ (hsame.fetches hat) hbyte (jump_cases ..)).eq_step]
    exact hsame.jump hcase
  | branch function fetched _ hat hbyte hcase =>
    rw [← (StepCase.branch function fetched _ (hsame.fetches hat) hbyte (branch_cases ..)).eq_step]
    exact hsame.branch hlow hbase hcase
  | host function fetched _ hat hbyte hcase =>
    rw [← (StepCase.host function fetched _ (hsame.fetches hat) hbyte (delegate_cases ..)).eq_step]
    exact hsame.delegate hhost hlow hbase hat hcase

end SameFrom

/-- What a run of two executions that differ below a height keeps. -/
structure RunsAlike (program : Program) (host : Host σ) (base n : Nat)
    (left right : Execution σ) : Prop where
  outcome_eq : (left.runWithin program host n).1 = (right.runWithin program host n).1
  after : SameFrom base (left.runWithin program host n).2 (right.runWithin program host n).2
  left_below : Stack.SameBelow base (left.runWithin program host n).2.stack left.stack
  right_below : Stack.SameBelow base (right.runWithin program host n).2.stack right.stack

theorem SameFrom.runsAlike_zero (hsame : SameFrom base left right) :
    RunsAlike program host base 0 left right :=
  ⟨rfl, hsame, rfl, rfl⟩

section
variable {n : Nat} (hstep : SameTransition base (left.step program host) (right.step program host))
  (hleft : Stack.SameBelow base (left.step program host).after.stack left.stack)
  (hright : Stack.SameBelow base (right.step program host).after.stack right.stack)
include hstep hleft hright

theorem runsAlike_of_running (hrunning : (left.step program host).outcome = .running)
    (hrest : RunsAlike program host base n (left.step program host).after
      (right.step program host).after) : RunsAlike program host base (n + 1) left right := by
  have hrunning' : (right.step program host).outcome = .running := hstep.outcome_eq ▸ hrunning
  have hleftRun := runWithin_succ_of_running (n := n) hrunning
  have hrightRun := runWithin_succ_of_running (n := n) hrunning'
  constructor
  · rw [hleftRun, hrightRun, hrest.outcome_eq]
  · rw [hleftRun, hrightRun]
    exact hrest.after
  · rw [hleftRun]
    exact hrest.left_below.trans hleft
  · rw [hrightRun]
    exact hrest.right_below.trans hright

theorem runsAlike_of_ended (hended : (left.step program host).outcome ≠ .running) :
    RunsAlike program host base (n + 1) left right := by
  have hended' : (right.step program host).outcome ≠ .running := hstep.outcome_eq ▸ hended
  have hleftRun := runWithin_succ_of_ended (n := n) hended
  have hrightRun := runWithin_succ_of_ended (n := n) hended'
  constructor
  · rw [hleftRun, hrightRun, hstep.outcome_eq]
  · rw [hleftRun, hrightRun]
    exact hstep.after
  · rwa [hleftRun]
  · rwa [hrightRun]

end

/-- **Executions that differ below a function run alike until it returns.** The induction is on the
steps; `Inside` says in each of them that the running function reaches no deeper than the first. -/
theorem SameFrom.run {outer : ReturnStack} {above : List Frame} {n : Nat}
    (hhost : host.StaysInReach) (hsame : SameFrom outer.height left right)
    (hinside : Inside outer above left)
    (hdeep : ∀ k < n, outer.size ≤ (left.runWithin program host k).2.state.frames.size) :
    RunsAlike program host outer.height n left right := by
  induction n generalizing left right above with
  | zero => exact hsame.runsAlike_zero
  | succ n ih =>
    have hlow := hinside.running_low
    have hbase := hinside.le_running
    have hstep : SameTransition outer.height (left.step program host) (right.step program host) :=
      hsame.step hhost hlow hbase
    have hleft : Stack.SameBelow outer.height (left.step program host).after.stack left.stack :=
      sameBelow_step hhost hlow hbase
    have hright : Stack.SameBelow outer.height (right.step program host).after.stack right.stack :=
      sameBelow_step hhost (hsame.state_eq ▸ hlow) (hsame.state_eq ▸ hbase)
    by_cases hrunning : (left.step program host).outcome = .running
    · have hlater (k : Nat) (hk : k < n) : outer.size ≤
          ((left.step program host).after.runWithin program host k).2.state.frames.size := by
        have hsize := hdeep (k + 1) (Nat.succ_lt_succ hk)
        rwa [runWithin_succ_of_running hrunning] at hsize
      apply runsAlike_of_running hstep hleft hright hrunning
      rcases hinside.next hhost hrunning with
        ⟨above', hinside', _⟩ | ⟨_, _, frame, frames, _, _, hpop, hreturned⟩
      · exact ih hstep.after hinside' hlater
      · -- the function has returned, which only the last step may do
        cases n with
        | zero => exact hstep.after.runsAlike_zero
        | succ n =>
          have hframes := ReturnStack.pop?_eq_some_iff.mp hpop
          have hsize := hlater 0 (Nat.succ_pos n)
          simp only [runWithin, hreturned, ReturnStack.size, hframes, Array.size_push] at hsize
          omega
    · exact runsAlike_of_ended hstep hleft hright hrunning

end Execution

/-- **A function cannot observe its caller's stack.** Let two executions of a program stand at the
same position with the same frames, the stack-only host having the same trace, and let their data
stacks be equally high and agree from the first word that the running function can reach. Run both
for as many steps as you like, as long as no step but the last leads to fewer frames than there were
at the start. Then both come out the same, stand at the same position with the same frames and the
same trace, and their data stacks agree as before; and neither has touched the words below. -/
theorem caller_stack_unobservable (program : Program) {left right : Execution StackHost.Trace}
    (hstate : left.state = right.state) (htrace : left.host = right.host)
    (hheight : left.state.frames.height ≤ left.stack.size)
    (hsize : left.stack.size = right.stack.size)
    (hagree : left.stack.toList.drop left.state.frames.height =
      right.stack.toList.drop left.state.frames.height) {n : Nat}
    (hdeep : ∀ k < n, left.state.frames.size ≤
      (left.runWithin program stackHost k).2.state.frames.size) :
    let height := left.state.frames.height
    let leftRun := left.runWithin program stackHost n
    let rightRun := right.runWithin program stackHost n
    leftRun.1 = rightRun.1 ∧ leftRun.2.state = rightRun.2.state ∧
      leftRun.2.host = rightRun.2.host ∧ leftRun.2.stack.size = rightRun.2.stack.size ∧
      leftRun.2.stack.toList.drop height = rightRun.2.stack.toList.drop height ∧
      leftRun.2.stack.toList.take height = left.stack.toList.take height ∧
      rightRun.2.stack.toList.take height = right.stack.toList.take height := by
  have hsame : Execution.SameFrom left.state.frames.height left right :=
    ⟨hstate, htrace, hsize, hagree⟩
  have hinside : Execution.Inside left.state.frames [] left := .of_height_le rfl hheight
  obtain ⟨houtcome, hafter, hleft, hright⟩ := hsame.run stackHost_staysInReach hinside hdeep
  exact ⟨houtcome, hafter.state_eq, hafter.host_eq, hafter.stack.size_eq, hafter.stack.drop_eq,
    hleft, hright⟩

/-- An execution in the addition of `sumBody`, called above one word of its caller. -/
def sumCalledAbove (word : Word) : Execution StackHost.Trace where
  state := ⟨1, 0, ⟨#[.bottom, ⟨0, 7, 1⟩], by decide⟩⟩
  stack := ⟨#[word, 2, 3], by show 3 ≤ Limits.stack; decide⟩
  host := []

/-- The addition and its return go the same way, whichever word the caller has left. -/
theorem caller_stack_unobservable_sum :
    let leftRun := (sumCalledAbove 10).runWithin (Program.ofValidated sumValid) stackHost 2
    let rightRun := (sumCalledAbove 20).runWithin (Program.ofValidated sumValid) stackHost 2
    leftRun.1 = rightRun.1 ∧ leftRun.2.state = rightRun.2.state ∧
      leftRun.2.state = ⟨0, 7, .initial⟩ ∧ leftRun.2.stack.toList = [10, 5] ∧
      rightRun.2.stack.toList = [20, 5] := by
  have hdeep (k : Nat) (hk : k < 2) : (sumCalledAbove 10).state.frames.size ≤
      ((sumCalledAbove 10).runWithin (Program.ofValidated sumValid) stackHost
        k).2.state.frames.size := by
    obtain rfl | rfl : k = 0 ∨ k = 1 := by omega
    · decide +kernel
    · decide +kernel
  have hstate : (sumCalledAbove 10).state = (sumCalledAbove 20).state := rfl
  have htrace : (sumCalledAbove 10).host = (sumCalledAbove 20).host := rfl
  have halike := caller_stack_unobservable (Program.ofValidated sumValid) hstate htrace (by decide)
    rfl rfl hdeep
  exact ⟨halike.1, halike.2.1, by decide +kernel, by decide +kernel, by decide +kernel⟩

end EvmObject.Machine
