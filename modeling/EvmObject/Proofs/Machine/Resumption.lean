import EvmObject.Proofs.Machine.FailedSteps
import EvmObject.Proofs.Machine.Faults

/-!
# Stepping on after an abort

An aborted step drops the frames and leaves everything else, and nothing in the execution says that
it came to an end: whoever steps on has the same instruction carried out again. Without frames no
word is out of reach, and there is room for a call. So the fault may be gone, and the function that
was aborted goes on with the words of its callers.

`Resumable` says when. It is a matter of the instruction and of the number of words alone, since
nothing else comes back: `Stuck` is what holds of all other aborted executions, and it is kept by
every step.
-/

namespace EvmObject.Machine

open Validation (Validated)

namespace Execution

variable {σ : Type}

/-- The execution after `n` steps, whatever each of them leads to. -/
def stepped (program : Program) (host : Host σ) : (n : Nat) → Execution σ → Execution σ
  | 0, execution => execution
  | n + 1, execution => stepped program host n (execution.step program host).after

/-- The execution without frames. -/
def bare (execution : Execution σ) : Execution σ :=
  { execution with state := { execution.state with frames := .empty } }

/-- Without frames the instruction is carried out and the execution goes on. It is a call, a branch
or an instruction of the host that does not end the execution; there are enough words on the whole
stack for it, and it does not leave too many. -/
def Resumable (execution : Execution σ) (valid : Validated) (op : Opcode) : Prop :=
  ¬ execution.bare.IsShort valid op ∧
    (op.byte = Opcode.callf ∨ op.byte = Opcode.rjumpi ∨
      (¬ IsControl op.byte ∧ haltAfter? op = none ∧
        execution.stack.size - op.info.inputs + op.info.outputs ≤ Limits.stack))

/-! ## Steps that do not go on -/

section
variable {program : Program} {host : Host σ} {execution after : Execution σ} {ending : Halt}

/-- What a step does that ends the execution: it stops, leaves the entry function, or has the host
carry out an instruction that ends the execution. -/
inductive Ended (program : Program) (execution after : Execution σ) : Prop where
  | stop (function : Function) (fetched : Fetched) (hat : execution.Fetches program function fetched)
      (hbyte : fetched.opcode.byte = Opcode.stop) (hafter : after = execution)
  | left (function : Function) (fetched : Fetched) (frame : Frame) (frames : ReturnStack)
      (hat : execution.Fetches program function fetched)
      (hbyte : fetched.opcode.byte = Opcode.retf)
      (hpop : execution.state.frames.pop? = some (frame, frames))
      (hafter : after = { execution with state := { execution.state with frames } })
  | host (function : Function) (fetched : Fetched) (effect : Effect σ)
      (hat : execution.Fetches program function fetched) (hbyte : ¬ IsControl fetched.opcode.byte)
      (hending : haltAfter? fetched.opcode ≠ none) (hafter : after = execution.hosted effect)

theorem ended_of_step (hhalted : (execution.step program host).outcome = .halted ending) :
    Ended program execution (execution.step program host).after := by
  have hcases := step_cases program host execution
  generalize execution.step program host = taken at hcases hhalted ⊢
  cases hcases with
  | noFunction => cases hhalted
  | noInstruction => cases hhalted
  | stop function fetched hat hbyte => exact .stop function fetched hat hbyte rfl
  | invalid => cases hhalted
  | call _ _ _ _ _ hcase => cases hcase <;> cases hhalted
  | ret function fetched _ hat hbyte hcase =>
    cases hcase with
    | short => cases hhalted
    | noFrame => cases hhalted
    | last frame frames _ hpop => exact .left function fetched frame frames hat hbyte hpop rfl
    | returned => cases hhalted
  | jump _ _ _ _ _ hcase => cases hcase <;> cases hhalted
  | branch _ _ _ _ _ hcase => cases hcase <;> cases hhalted
  | host function fetched _ hat hbyte hcase =>
    cases hcase with
    | short => cases hhalted
    | failed => cases hhalted
    | ended ending _ _ hending =>
      refine .host function fetched _ hat hbyte ?_ rfl
      rw [hending]
      exact Option.some_ne_none ending
    | done => cases hhalted

/-- The position stays, and no frame is new. -/
structure Stays (execution after : Execution σ) : Prop where
  function_eq : after.state.function = execution.state.function
  pc_eq : after.state.pc = execution.state.pc
  frames : ∀ frame ∈ after.state.frames.frames, frame ∈ execution.state.frames.frames

/-- A step that does not go on stays where it is. -/
theorem stays_of_step (hended : (execution.step program host).outcome ≠ .running) :
    Stays execution (execution.step program host).after := by
  cases houtcome : (execution.step program host).outcome with
  | running => exact absurd houtcome hended
  | aborted fault =>
    -- the frames are dropped, be it at the execution before or at what the host left
    have hnone (frame : Frame) (hmem : frame ∈ ReturnStack.empty.frames) :
        frame ∈ execution.state.frames.frames := absurd hmem (Array.not_mem_empty frame)
    rcases exists_abort_of_step houtcome with hstep | ⟨_, _, hstep⟩
    · rw [hstep]
      exact ⟨rfl, rfl, hnone⟩
    · rw [hstep]
      exact ⟨rfl, rfl, hnone⟩
  | halted ending =>
    cases ended_of_step houtcome with
    | stop _ _ _ _ hafter =>
      rw [hafter]
      exact ⟨rfl, rfl, fun _ hmem => hmem⟩
    | left _ _ frame frames _ _ hpop hafter =>
      rw [hafter]
      refine ⟨rfl, rfl, fun other hmem => ?_⟩
      rw [ReturnStack.pop?_eq_some_iff.mp hpop]
      exact Array.mem_push.mpr (.inl hmem)
    | host _ _ _ _ _ _ hafter =>
      rw [hafter]
      exact ⟨rfl, rfl, fun _ hmem => hmem⟩

namespace Stays

variable (hstays : Stays execution after)
include hstays

theorem onTrack {valid : Validated} (htrack : execution.state.OnTrack valid) :
    after.state.OnTrack valid where
  position := by
    rw [hstays.function_eq, hstays.pc_eq]
    exact htrack.position
  frames frame hmem := htrack.frames frame (hstays.frames frame hmem)

theorem fetches {function : Function} {fetched : Fetched}
    (hat : execution.Fetches program function fetched) :
    after.Fetches program function fetched where
  function_eq := by
    rw [hstays.function_eq]
    exact hat.function_eq
  fetch_eq := by
    rw [hstays.pc_eq]
    exact hat.fetch_eq

theorem frames_eq_empty (hempty : execution.state.frames = .empty) :
    after.state.frames = .empty := by
  apply ReturnStack.eq_of_frames
  apply Array.eq_empty_iff_forall_not_mem.mpr
  intro frame hmem
  have hbefore := hstays.frames frame hmem
  rw [hempty] at hbefore
  exact Array.not_mem_empty frame hbefore

end Stays

end

/-- Stepping keeps on track, be it over an abort or an end. -/
theorem onTrack_stepped {valid : Validated}
    (hall : ∀ index < valid.codeCount, ∃ function split, Loaded valid index function split)
    {host : Host σ} (hhost : host.KeepsTrack) (n : Nat) {execution : Execution σ}
    (htrack : execution.state.OnTrack valid) :
    (execution.stepped (Program.ofValidated valid) host n).state.OnTrack valid := by
  induction n generalizing execution with
  | zero => exact htrack
  | succ n ih =>
    apply ih
    by_cases hrunning : (execution.step (Program.ofValidated valid) host).outcome = .running
    · exact (OnTrack.step hall hhost htrack).after hrunning
    · exact (stays_of_step hrunning).onTrack htrack

/-! ## Without frames -/

section
variable {valid : Validated} {execution : Execution StackHost.Trace} {function : Function}
  {fetched : Fetched}

/-- An aborted step of the stack-only host takes the frames away and does nothing else. -/
theorem after_eq_bare {program : Program} {fault : Fault}
    (haborted : (execution.step program stackHost).outcome = .aborted fault) :
    (execution.step program stackHost).after = execution.bare := by
  rcases exists_abort_of_step haborted with hstep | ⟨fetched, hresult, hstep⟩
  · rw [hstep]
    rfl
  · have heffect : execution.effectOf stackHost fetched =
        ⟨.error fault, execution.stack, execution.host⟩ := stackHost_effect_of_fault hresult
    rw [hstep, heffect]
    rfl

/-- Without frames no word is out of reach. -/
theorem low_of_empty {execution : Execution σ} (hempty : execution.state.frames = .empty) :
    execution.state.frames.height ≤ Limits.stack := by
  rw [hempty]
  exact ReturnStack.isLow_empty.height_le

theorem bare_eq {execution : Execution σ} (hempty : execution.state.frames = .empty) :
    execution.bare = execution := by
  obtain ⟨⟨function, pc, frames⟩, stack, host⟩ := execution
  obtain rfl : frames = .empty := hempty
  rfl

/-- Some instructions do not go on, whatever the stack. -/
theorem not_resumable_of_byte {execution : Execution σ} {op : Opcode}
    (hbyte : op.byte = Opcode.stop ∨ op.byte = Opcode.invalid ∨ op.byte = Opcode.retf) :
    ¬ execution.Resumable valid op := by
  rintro ⟨_, hcall | hbranch | ⟨hcontrol, _, _⟩⟩
  · rw [hcall] at hbyte
    exact absurd hbyte (by decide)
  · rw [hbranch] at hbyte
    exact absurd hbyte (by decide)
  · apply hcontrol
    rcases hbyte with hbyte | hbyte | hbyte
    · exact .inl hbyte
    · exact .inr (.inl hbyte)
    · exact .inr (.inr (.inr (.inl hbyte)))

theorem not_resumable_of_halts {execution : Execution σ} {op : Opcode}
    (hbyte : ¬ IsControl op.byte) (hending : haltAfter? op ≠ none) :
    ¬ execution.Resumable valid op := by
  rintro ⟨_, hcall | hbranch | ⟨_, hgoes, _⟩⟩
  · exact hbyte (.inr (.inr (.inl hcall)))
  · exact hbyte (.inr (.inr (.inr (.inr (.inr hbranch)))))
  · exact hending hgoes

variable {config : Validation.Config} {raw : Bytes} {taken : Transition StackHost.Trace}

theorem running_iff_of_call (hvalid : Validation.validate config raw = .ok valid)
    (hat : execution.Fetches (Program.ofValidated valid) function fetched)
    (hempty : execution.state.frames = .empty) (hbyte : fetched.opcode.byte = Opcode.callf)
    (hcase : CallCase (Program.ofValidated valid) execution fetched taken)
    (hsafe : ∀ fault, taken.outcome = .aborted fault → ¬ fault.IsAstray) :
    taken.outcome = .running ↔ execution.Resumable valid fetched.opcode := by
  have hlow := low_of_empty hempty
  unfold Resumable
  rw [bare_eq hempty]
  cases hcase with
  | unknown => exact absurd (by decide) (hsafe _ rfl)
  | short callee hcallee hshort =>
    have hnot := (isShort_iff_of_callf hlow hvalid hat hbyte hcallee).mpr hshort
    exact iff_of_false nofun fun hresumable => hresumable.1 hnot
  | full _ _ _ hfull =>
    -- there is room for a frame where there are none
    rw [hempty] at hfull
    exact absurd hfull (by decide)
  | entered callee _ hcallee hreaches =>
    have hshort := isShort_iff_of_callf hlow hvalid hat hbyte hcallee
    have henough := (not_isShort_iff hshort).mpr hreaches
    exact iff_of_true rfl ⟨henough, .inl hbyte⟩

theorem running_iff_of_ret (hempty : execution.state.frames = .empty)
    (hbyte : fetched.opcode.byte = Opcode.retf) (hcase : RetCase execution function taken) :
    taken.outcome = .running ↔ execution.Resumable valid fetched.opcode := by
  have hnot : ¬ execution.Resumable valid fetched.opcode :=
    not_resumable_of_byte (.inr (.inr hbyte))
  cases hcase with
  | short => exact iff_of_false nofun hnot
  | noFrame => exact iff_of_false nofun hnot
  | last => exact iff_of_false nofun hnot
  | returned _ _ _ hpop =>
    -- there is no frame to return to
    rw [hempty] at hpop
    cases hpop

theorem running_iff_of_branch (hempty : execution.state.frames = .empty)
    (hbyte : fetched.opcode.byte = Opcode.rjumpi)
    (hcase : BranchCase execution function fetched taken)
    (hsafe : ∀ fault, taken.outcome = .aborted fault → ¬ fault.IsAstray) :
    taken.outcome = .running ↔ execution.Resumable valid fetched.opcode := by
  have hlow := low_of_empty hempty
  unfold Resumable
  rw [bare_eq hempty]
  have hshort : execution.IsShort valid fetched.opcode ↔ execution.reaches 1 = false :=
    isShort_iff_of_rjumpi hlow hbyte
  have hnot := not_isShort_iff hshort
  cases hcase with
  | short hfew => exact iff_of_false nofun fun hresumable => hresumable.1 (hshort.mpr hfew)
  | unread hreaches hpeek => exact absurd hpeek (peek_ne_error_of_low hlow hreaches)
  | untaken hreaches => exact iff_of_true rfl ⟨hnot.mpr hreaches, .inr (.inl hbyte)⟩
  | nowhere => exact absurd (by decide) (hsafe _ rfl)
  | taken _ _ hreaches => exact iff_of_true rfl ⟨hnot.mpr hreaches, .inr (.inl hbyte)⟩

theorem running_iff_of_host {program : Program} (hat : execution.Fetches program function fetched)
    (hempty : execution.state.frames = .empty) (hbyte : ¬ IsControl fetched.opcode.byte)
    (hcase : HostCase stackHost execution fetched taken) :
    taken.outcome = .running ↔ execution.Resumable valid fetched.opcode := by
  have hlow := low_of_empty hempty
  cases hcase with
  | short hshort =>
    refine iff_of_false nofun fun hresumable => hresumable.1 ?_
    rw [bare_eq hempty]
    exact (isShort_iff_of_host hlow hbyte).mpr hshort
  | failed fault hreaches hresult =>
    obtain ⟨_, hfull⟩ := (effectOf_eq_error_iff hlow hat hreaches).mp hresult
    refine iff_of_false nofun ?_
    rintro ⟨_, hcall | hbranch | ⟨_, _, hroom⟩⟩
    · exact hbyte (.inr (.inr (.inl hcall)))
    · exact hbyte (.inr (.inr (.inr (.inr (.inr hbranch)))))
    · omega
  | ended ending _ _ hending =>
    refine iff_of_false nofun (not_resumable_of_halts hbyte ?_)
    rw [hending]
    exact Option.some_ne_none ending
  | done hreaches hresult hending =>
    refine iff_of_true rfl ⟨?_, .inr (.inr ⟨hbyte, hending, ?_⟩)⟩
    · rw [bare_eq hempty]
      exact (not_isShort_iff (isShort_iff_of_host hlow hbyte)).mpr hreaches
    · apply Nat.le_of_not_lt
      intro hfull
      have hfails := (effectOf_eq_error_iff hlow hat hreaches).mpr ⟨rfl, hfull⟩
      rw [hresult] at hfails
      cases hfails

variable (hvalid : Validation.validate config raw = .ok valid)
include hvalid

/-- **Without frames a step goes on exactly if it is resumable,** or a jump. -/
theorem running_iff_resumable (htrack : execution.state.OnTrack valid)
    (hat : execution.Fetches (Program.ofValidated valid) function fetched)
    (hempty : execution.state.frames = .empty) (hjump : fetched.opcode.byte ≠ Opcode.rjump) :
    (execution.step (Program.ofValidated valid) stackHost).outcome = .running ↔
      execution.Resumable valid fetched.opcode := by
  have hsafe := (OnTrack.step (fun _ hindex => exists_loaded hvalid hindex) stackHost_keepsTrack
    htrack).fault
  have hcases := step_cases (Program.ofValidated valid) stackHost execution
  generalize execution.step (Program.ofValidated valid) stackHost = taken at hcases hsafe ⊢
  cases hcases with
  | noFunction => exact absurd (by decide) (hsafe _ rfl)
  | noInstruction _ _ hfunction hfetch =>
    obtain rfl := Option.some.inj (hat.function_eq.symm.trans hfunction)
    rw [hat.fetch_eq] at hfetch
    cases hfetch
  | stop _ _ hat' hbyte =>
    obtain ⟨rfl, rfl⟩ := hat.unique hat'
    exact iff_of_false nofun (not_resumable_of_byte (.inl hbyte))
  | invalid _ _ hat' hbyte =>
    obtain ⟨rfl, rfl⟩ := hat.unique hat'
    exact iff_of_false nofun (not_resumable_of_byte (.inr (.inl hbyte)))
  | call _ _ _ hat' hbyte hcase =>
    obtain ⟨rfl, rfl⟩ := hat.unique hat'
    exact running_iff_of_call hvalid hat hempty hbyte hcase hsafe
  | ret _ _ _ hat' hbyte hcase =>
    obtain ⟨rfl, rfl⟩ := hat.unique hat'
    exact running_iff_of_ret hempty hbyte hcase
  | jump _ _ _ hat' hbyte =>
    obtain ⟨rfl, rfl⟩ := hat.unique hat'
    exact absurd hbyte hjump
  | branch _ _ _ hat' hbyte hcase =>
    obtain ⟨rfl, rfl⟩ := hat.unique hat'
    exact running_iff_of_branch hempty hbyte hcase hsafe
  | host _ _ _ hat' hbyte hcase =>
    obtain ⟨rfl, rfl⟩ := hat.unique hat'
    exact running_iff_of_host hat hempty hbyte hcase

/-- A jump is never aborted. -/
theorem ne_rjump_of_aborted (htrack : execution.state.OnTrack valid)
    (hat : execution.Fetches (Program.ofValidated valid) function fetched) {fault : Fault}
    (haborted : (execution.step (Program.ofValidated valid) stackHost).outcome = .aborted fault) :
    fetched.opcode.byte ≠ Opcode.rjump := by
  intro hbyte
  have hsafe := (OnTrack.step (fun _ hindex => exists_loaded hvalid hindex) stackHost_keepsTrack
    htrack).fault fault haborted
  have hstep : execution.step (Program.ofValidated valid) stackHost =
      execution.jump function fetched :=
    (StepCase.jump function fetched _ hat hbyte (jump_cases ..)).eq_step.symm
  have hcases := jump_cases execution function fetched
  rw [hstep] at haborted
  generalize execution.jump function fetched = taken at hcases haborted
  cases hcases with
  | nowhere =>
    cases haborted
    exact absurd (by decide) hsafe
  | taken => cases haborted

end

/-! ## Stuck executions -/

/-- The execution has no frames, and the instruction at its position does not go on without them. -/
structure Stuck (execution : Execution StackHost.Trace) (valid : Validated) : Prop where
  onTrack : execution.state.OnTrack valid
  frames_eq : execution.state.frames = .empty
  exists_fetched : ∃ function fetched,
    execution.Fetches (Program.ofValidated valid) function fetched ∧
      fetched.opcode.byte ≠ Opcode.rjump ∧ ¬ execution.Resumable valid fetched.opcode

section
variable {valid : Validated} {config : Validation.Config} {raw : Bytes}
  {execution : Execution StackHost.Trace}
  (hvalid : Validation.validate config raw = .ok valid)
include hvalid

theorem Stuck.not_running (hstuck : execution.Stuck valid) :
    (execution.step (Program.ofValidated valid) stackHost).outcome ≠ .running := by
  obtain ⟨function, fetched, hat, hjump, hnot⟩ := hstuck.exists_fetched
  exact mt (running_iff_resumable hvalid hstuck.onTrack hat hstuck.frames_eq hjump).mp hnot

/-- **A stuck execution stays stuck.** -/
theorem Stuck.step (hstuck : execution.Stuck valid) :
    (execution.step (Program.ofValidated valid) stackHost).after.Stuck valid := by
  have hended := hstuck.not_running hvalid
  have hstays := stays_of_step hended
  refine ⟨hstays.onTrack hstuck.onTrack, hstays.frames_eq_empty hstuck.frames_eq, ?_⟩
  obtain ⟨function, fetched, hat, hjump, hnot⟩ := hstuck.exists_fetched
  refine ⟨function, fetched, hstays.fetches hat, hjump, ?_⟩
  cases houtcome : (execution.step (Program.ofValidated valid) stackHost).outcome with
  | running => exact absurd houtcome hended
  | aborted fault =>
    rw [after_eq_bare houtcome, bare_eq hstuck.frames_eq]
    exact hnot
  | halted ending =>
    -- the stack may be another, but what ends an execution does so with any
    cases ended_of_step houtcome with
    | stop _ _ hat' hbyte =>
      obtain ⟨rfl, rfl⟩ := hat.unique hat'
      exact not_resumable_of_byte (.inl hbyte)
    | left _ _ _ _ hat' hbyte =>
      obtain ⟨rfl, rfl⟩ := hat.unique hat'
      exact not_resumable_of_byte (.inr (.inr hbyte))
    | host _ _ _ hat' hbyte hending =>
      obtain ⟨rfl, rfl⟩ := hat.unique hat'
      exact not_resumable_of_halts hbyte hending

theorem Stuck.stepped (hstuck : execution.Stuck valid) (m : Nat) :
    (execution.stepped (Program.ofValidated valid) stackHost m).Stuck valid := by
  induction m generalizing execution with
  | zero => exact hstuck
  | succ m ih => exact ih (hstuck.step hvalid)

end

end Execution

/-- **When an aborted execution can be resumed.** Take a valid container and any number of steps
from the start of the entry function, whatever each of them led to, the last of which is aborted.
Then some later step goes on if and only if the instruction that was aborted is resumable: a call, a
branch or an instruction of the host that does not end the execution, for which the words of all
functions together are enough and the stack has room. -/
theorem resumes_iff_resumable {config : Validation.Config} {raw : Bytes} {valid : Validated}
    (hvalid : Validation.validate config raw = .ok valid) (trace : StackHost.Trace) (n : Nat)
    (fault : Fault) :
    let program := Program.ofValidated valid
    let before := (Execution.initial trace).stepped program stackHost n
    let after := (before.step program stackHost).after
    (before.step program stackHost).outcome = .aborted fault →
      ∃ op, valid.opcodeAt? before.state.function before.state.pc = some op ∧
        ((∃ m, ((after.stepped program stackHost m).step program stackHost).outcome = .running) ↔
          before.Resumable valid op) := by
  intro program before after haborted
  have hall : ∀ index < valid.codeCount, ∃ function split, Loaded valid index function split :=
    fun index hindex => exists_loaded hvalid hindex
  have htrack : before.state.OnTrack valid :=
    Execution.onTrack_stepped hall stackHost_keepsTrack n
      (Execution.onTrack_initial (hall 0 (codeCount_pos hvalid)) trace)
  obtain ⟨function, _, _, op, _, hat⟩ := Execution.exists_standsAt htrack
  have hafter : after = before.bare := Execution.after_eq_bare haborted
  have hended : (before.step program stackHost).outcome ≠ .running := by
    rw [haborted]
    exact nofun
  have hstays : Execution.Stays before after := Execution.stays_of_step hended
  have hjump := Execution.ne_rjump_of_aborted hvalid htrack hat haborted
  have hempty : after.state.frames = .empty := by
    rw [hafter]
    rfl
  have hsame : after.Resumable valid op ↔ before.Resumable valid op := by
    rw [hafter]
    exact Iff.rfl
  refine ⟨op, hat.opcodeAt?_eq hvalid, ?_⟩
  constructor
  · rintro ⟨m, hrunning⟩
    apply Classical.byContradiction
    intro hnot
    have hstuck : after.Stuck valid := ⟨hstays.onTrack htrack, hempty, function, _,
      hstays.fetches hat, hjump, mt hsame.mp hnot⟩
    exact (hstuck.stepped hvalid m).not_running hvalid hrunning
  · intro hresumable
    refine ⟨0, ?_⟩
    exact (Execution.running_iff_resumable hvalid (hstays.onTrack htrack) (hstays.fetches hat) hempty
      hjump).mpr (hsame.mpr hresumable)

/-- No frame was in the way of its first step, and so no later step goes on. -/
theorem resumes_iff_resumable_pop :
    let program := Program.ofValidated popValid
    let before : Execution StackHost.Trace := Execution.initial []
    Validation.validate .default (Container.ofBody popBody).raw = .ok popValid ∧
      (before.step program stackHost).outcome = .aborted .stackUnderflow ∧
      ∀ m, (((before.step program stackHost).after.stepped program stackHost m).step program
        stackHost).outcome ≠ .running := by
  intro program before
  have hvalid : Validation.validate .default (Container.ofBody popBody).raw = .ok popValid :=
    eq_ok_of_toOption (by decide +kernel)
  have haborted : (before.step program stackHost).outcome = .aborted .stackUnderflow := by
    decide +kernel
  obtain ⟨op, hop, hresumes⟩ := resumes_iff_resumable hvalid [] 0 .stackUnderflow haborted
  refine ⟨hvalid, haborted, fun m hrunning => ?_⟩
  have hresumable := hresumes.mp ⟨m, hrunning⟩
  have hpop : popValid.opcodeAt? 0 0 = some ⟨0x50, rfl⟩ := by decide +kernel
  obtain rfl : ⟨0x50, rfl⟩ = op := Option.some.inj (hpop.symm.trans hop)
  have hcontrol : ¬ IsControl 0x50 := by
    unfold IsControl
    decide
  exact hresumable.1 (.inr (.inr (.inr ⟨hcontrol, by decide +kernel⟩)))

/-- A body of two sections. The first pushes two words and calls the second with one of them, and
the second discards two. -/
def borrowBody : Container.Body :=
  ⟨1, #[.entry, ⟨1, 0⟩], #[8, 11], [0x60, 1, 0x60, 2, 0xB0, 0, 1, 0x00, 0x50, 0x50, 0xB1], [], false⟩

/-- The container of that body with its analyses. -/
def borrowValid : Validated :=
  ⟨Container.ofBody borrowBody,
    [⟨[⟨0, 0x60, 1⟩, ⟨2, 0x60, 1⟩, ⟨4, 0xB0, 2⟩, ⟨7, 0x00, 0⟩],
        ⟨#[true, false, true, false, true, false, false, true]⟩, [], [⟨4, 1⟩]⟩,
      ⟨[⟨0, 0x50, 0⟩, ⟨1, 0x50, 0⟩, ⟨2, 0xB1, 0⟩], ⟨#[true, true, true]⟩, [], []⟩]⟩

/-- **An aborted function goes on with a word of its caller.** The second discard is aborted, since
the one word on the stack is the caller's. The next step discards it and goes on. -/
theorem resumes_with_word_of_caller :
    let program := Program.ofValidated borrowValid
    let before := (Execution.initial []).stepped program stackHost 4
    let after := (before.step program stackHost).after
    Validation.validate .default (Container.ofBody borrowBody).raw = .ok borrowValid ∧
      before.state.frames.height = 1 ∧ before.stack.toList = [1] ∧
      (before.step program stackHost).outcome = .aborted .stackUnderflow ∧
      (after.step program stackHost).outcome = .running ∧
      (after.step program stackHost).after.stack.toList = [] := by
  intro program before after
  exact ⟨eq_ok_of_toOption (by decide +kernel), by decide +kernel, by decide +kernel,
    by decide +kernel, by decide +kernel, by decide +kernel⟩

end EvmObject.Machine
