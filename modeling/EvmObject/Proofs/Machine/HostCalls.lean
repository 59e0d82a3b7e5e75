import EvmObject.Machine.Run
import EvmObject.Proofs.Machine.StepCases

/-!
# What a host is asked

The machine asks its host for one instruction at a time, and never looks at the state of the host.
So a host that answers alike answers for the other, whatever state it keeps besides
(`Execution.runWithin_mapHost`). `Host.recording` keeps a list of what it was asked, and
`Execution.hostCalls` is the list that a run leaves behind.
-/

namespace EvmObject.Machine

variable {σ τ : Type}

/-! ## Two hosts that answer alike -/

/-- The effect with another state of the host. -/
def Effect.mapHost (f : σ → τ) (effect : Effect σ) : Effect τ :=
  ⟨effect.result, effect.stack, f effect.host⟩

/-- The execution with another state of the host. -/
def Execution.mapHost (f : σ → τ) (execution : Execution σ) : Execution τ :=
  ⟨execution.state, execution.stack, f execution.host⟩

/-- The transition with another state of the host. -/
def Transition.mapHost (f : σ → τ) (taken : Transition σ) : Transition τ :=
  ⟨taken.outcome, taken.after.mapHost f, taken.event?⟩

/-- Seen through `f`, the one host does what the other does. -/
def Host.Simulates (f : σ → τ) (host : Host σ) (seen : Host τ) : Prop :=
  ∀ (op : Opcode) (immediate : Bytes) (stack : Stack) (state : σ),
    seen.execute op immediate stack (f state) = (host.execute op immediate stack state).mapHost f

namespace Execution

variable {f : σ → τ} {program : Program} {host : Host σ} {seen : Host τ} {execution : Execution σ}
  {function : Function} {fetched : Fetched} {taken : Transition σ}

/-! Control transfers do not ask the host, so they go the same way whatever its state. -/

theorem CallCase.mapHost (f : σ → τ) (hcase : CallCase program execution fetched taken) :
    CallCase program (execution.mapHost f) fetched (taken.mapHost f) := by
  cases hcase with
  | unknown hcallee => exact .unknown hcallee
  | short callee hcallee hshort => exact .short callee hcallee hshort
  | full callee hcallee hreaches hfull => exact .full callee hcallee hreaches hfull
  | entered callee frames hcallee hreaches hpush =>
    exact .entered callee frames hcallee hreaches hpush

theorem RetCase.mapHost (f : σ → τ) (hcase : RetCase execution function taken) :
    RetCase (execution.mapHost f) function (taken.mapHost f) := by
  cases hcase with
  | short hshort => exact .short hshort
  | noFrame hreaches hempty => exact .noFrame hreaches hempty
  | last frame frames hreaches hpop hlast => exact .last frame frames hreaches hpop hlast
  | returned frame frames hreaches hpop hmore => exact .returned frame frames hreaches hpop hmore

theorem JumpCase.mapHost (f : σ → τ) (hcase : JumpCase execution function fetched taken) :
    JumpCase (execution.mapHost f) function fetched (taken.mapHost f) := by
  cases hcase with
  | nowhere htarget => exact .nowhere htarget
  | taken target htarget => exact .taken target htarget

theorem BranchCase.mapHost (f : σ → τ) (hcase : BranchCase execution function fetched taken) :
    BranchCase (execution.mapHost f) function fetched (taken.mapHost f) := by
  cases hcase with
  | short hshort => exact .short hshort
  | unread hreaches hpeek => exact .unread hreaches hpeek
  | untaken hreaches hpeek => exact .untaken hreaches hpeek
  | nowhere condition hreaches hpeek hne htarget =>
    exact .nowhere condition hreaches hpeek hne htarget
  | taken condition target hreaches hpeek hne htarget =>
    exact .taken condition target hreaches hpeek hne htarget

section
variable (hsim : host.Simulates f seen)
include hsim

theorem effectOf_mapHost (execution : Execution σ) (fetched : Fetched) :
    (execution.mapHost f).effectOf seen fetched = (execution.effectOf host fetched).mapHost f :=
  hsim fetched.opcode fetched.immediate execution.stack execution.host

theorem HostCase.mapHost (hcase : HostCase host execution fetched taken) :
    HostCase seen (execution.mapHost f) fetched (taken.mapHost f) := by
  have heffect := effectOf_mapHost hsim execution fetched
  have hresult : ((execution.mapHost f).effectOf seen fetched).result =
      (execution.effectOf host fetched).result := by
    rw [heffect]
    rfl
  have hhosted : (execution.hosted (execution.effectOf host fetched)).mapHost f =
      (execution.mapHost f).hosted ((execution.mapHost f).effectOf seen fetched) := by
    rw [heffect]
    rfl
  cases hcase with
  | short hshort => exact .short hshort
  | failed fault hreaches hfails =>
    show HostCase seen _ fetched (((execution.hosted _).mapHost f).abort fault)
    rw [hhosted]
    exact .failed fault hreaches (hresult.trans hfails)
  | ended ending hreaches hok hending =>
    show HostCase seen _ fetched (((execution.hosted _).mapHost f).halt ending none)
    rw [hhosted]
    exact .ended ending hreaches (hresult.trans hok) hending
  | done hreaches hok hending =>
    show HostCase seen _ fetched (((execution.hosted _).mapHost f).goto _ none)
    rw [hhosted]
    exact .done hreaches (hresult.trans hok) hending

theorem step_mapHost (execution : Execution σ) :
    (execution.mapHost f).step program seen = (execution.step program host).mapHost f := by
  refine (StepCase.eq_step ?_).symm
  have hcases := step_cases program host execution
  generalize execution.step program host = taken at hcases
  cases hcases with
  | noFunction hnone => exact .noFunction hnone
  | noInstruction function fault hfunction hfetch =>
    exact .noInstruction function fault hfunction hfetch
  | stop function fetched hat hbyte => exact .stop function fetched ⟨hat.1, hat.2⟩ hbyte
  | invalid function fetched hat hbyte => exact .invalid function fetched ⟨hat.1, hat.2⟩ hbyte
  | call function fetched _ hat hbyte hcase =>
    exact .call function fetched _ ⟨hat.1, hat.2⟩ hbyte (hcase.mapHost f)
  | ret function fetched _ hat hbyte hcase =>
    exact .ret function fetched _ ⟨hat.1, hat.2⟩ hbyte (hcase.mapHost f)
  | jump function fetched _ hat hbyte hcase =>
    exact .jump function fetched _ ⟨hat.1, hat.2⟩ hbyte (hcase.mapHost f)
  | branch function fetched _ hat hbyte hcase =>
    exact .branch function fetched _ ⟨hat.1, hat.2⟩ hbyte (hcase.mapHost f)
  | host function fetched _ hat hbyte hcase =>
    exact .host function fetched _ ⟨hat.1, hat.2⟩ hbyte (hcase.mapHost hsim)

/-- **Hosts that answer alike lead to the same run.** -/
theorem runWithin_mapHost (n : Nat) (execution : Execution σ) :
    (execution.mapHost f).runWithin program seen n =
      ((execution.runWithin program host n).1, (execution.runWithin program host n).2.mapHost f) := by
  induction n generalizing execution with
  | zero => rfl
  | succ n ih =>
    simp only [runWithin, step_mapHost hsim, Transition.mapHost]
    split
    · exact ih _
    · rfl

end

end Execution

/-! ## Recording what is asked -/

/-- An instruction that a host is asked for: its opcode and operand, and the data stack before. -/
structure HostCall where
  opcode : Opcode
  immediate : Bytes
  stack : Stack
  deriving DecidableEq

/-- The host with a list of what it was asked, oldest first. -/
def Host.recording (host : Host σ) : Host (σ × List HostCall) where
  execute op immediate stack state :=
    let effect := host.execute op immediate stack state.1
    ⟨effect.result, effect.stack, effect.host, state.2 ++ [⟨op, immediate, stack⟩]⟩

/-- A recording host does what the host does. -/
theorem Host.recording_simulates (host : Host σ) : host.recording.Simulates Prod.fst host :=
  fun _ _ _ _ => rfl

namespace Execution

/-- The instructions that a run of at most `n` steps asks its host for, in order. -/
def hostCalls (program : Program) (host : Host σ) (n : Nat) (execution : Execution σ) :
    List HostCall :=
  ((execution.mapHost fun state => (state, [])).runWithin program host.recording n).2.host.2

/-- **Recording changes nothing:** without the list, a recorded run is the run itself. -/
theorem runWithin_recording (program : Program) (host : Host σ) (n : Nat)
    (execution : Execution (σ × List HostCall)) :
    (execution.mapHost Prod.fst).runWithin program host n =
      ((execution.runWithin program host.recording n).1,
        (execution.runWithin program host.recording n).2.mapHost Prod.fst) :=
  runWithin_mapHost host.recording_simulates n execution

end Execution

end EvmObject.Machine
