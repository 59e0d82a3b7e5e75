import EvmObject.Proofs.Machine.Loaded
import EvmObject.Proofs.Machine.Runs
import EvmObject.Proofs.Machine.StackHost

/-!
# Valid code keeps on track

An execution of a valid container stands at an instruction in every state that it reaches, and no
step of it is aborted because there is nothing to go on with: no section, no instruction, no operand
or no place to jump to. The invariant is `State.OnTrack`. It speaks of the saved return addresses as
well as of the position, since a return goes wherever its frame says.

* `OnTrack.step`: what one step preserves, by the ways that it can go.
* `control_flow_safety`: the same for a run from the start of the entry function.
-/

namespace EvmObject.Machine

open Code (Item)
open Validation (Validated)

/-! ## The statement -/

/-- The faults of a machine that has nothing to go on with. -/
def Fault.IsAstray (fault : Fault) : Prop :=
  fault = .pcOutOfBounds ∨ fault = .opcodeNotFound ∨ fault = .unknownSection ∨ fault = .invalidJump

instance (fault : Fault) : Decidable fault.IsAstray :=
  inferInstanceAs (Decidable (fault = .pcOutOfBounds ∨ fault = .opcodeNotFound ∨
    fault = .unknownSection ∨ fault = .invalidJump))

/-- The host may do as it likes with the stack and fail, but it never claims that the machine has
nothing to go on with. -/
def Host.KeepsTrack {σ : Type} (host : Host σ) : Prop :=
  ∀ op immediate stack state fault,
    (host.execute op immediate stack state).result = .error fault → ¬ fault.IsAstray

/-- The analysis of the section has an instruction at the offset. -/
def HasInstructionAt (valid : Validated) (index pc : Nat) : Prop :=
  ∃ analysis, valid.analysis? index = some analysis ∧
    ∃ instruction ∈ analysis.instructions, instruction.pc = pc

/-! ## Instruction starts -/

/-- An instruction of a loaded section stands at the offset. -/
def IsStart (valid : Validated) (index pc : Nat) : Prop :=
  ∃ function split, Loaded valid index function split ∧ ∃ item ∈ split, item.pc = pc

theorem IsStart.hasInstructionAt {valid : Validated} {index pc : Nat}
    (hstart : IsStart valid index pc) : HasInstructionAt valid index pc := by
  obtain ⟨function, split, hloaded, item, hmem, rfl⟩ := hstart
  obtain ⟨analysis, hanalysis, hdescribes, _⟩ := hloaded.analysis
  refine ⟨analysis, hanalysis, item.instruction, ?_, rfl⟩
  rw [hdescribes.instructions]
  exact List.mem_map_of_mem hmem

theorem HasInstructionAt.lt {valid : Validated} {index pc : Nat}
    (hat : HasInstructionAt valid index pc) : index < valid.codeCount := by
  obtain ⟨analysis, hanalysis, _⟩ := hat
  exact (List.getElem?_eq_some_iff.mp hanalysis).1

namespace Loaded

variable {valid : Validated} {index : Nat} {function : Function} {split : List Item} {item : Item}
  (hloaded : Loaded valid index function split)
include hloaded

/-- A section starts with an instruction. -/
theorem isStart_zero : IsStart valid index 0 := by
  obtain ⟨item, hmem, hpc⟩ :=
    hloaded.wellFormed.tiled.exists_start hloaded.wellFormed.nonempty
  exact ⟨function, split, hloaded, item, hmem, hpc⟩

/-- A jump leads to an instruction. -/
theorem isStart_landing (hmem : item ∈ split) (hjump : item.HasJumpByte) :
    IsStart valid index item.landing.toNat := by
  obtain ⟨reached, hreached, hpc⟩ := hloaded.landing item hmem hjump
  exact ⟨function, split, hloaded, reached, hreached, hpc⟩

/-- **Behind an instruction that does not end the flow stands another,** because the last one of a
section ends it. -/
theorem isStart_next (hmem : item ∈ split) {op : Opcode} (hop : item.opcode? = some op)
    (hflows : op.info.isEnding ≠ true) : IsStart valid index item.next := by
  rcases hloaded.wellFormed.tiled.next_mem hmem with hlast | ⟨follower, hfollower, hpc⟩
  · -- the item is the last one, and that one ends the flow
    obtain ⟨last, lastOp, hgetLast, hlastOp, hends⟩ := hloaded.wellFormed.ending
    obtain rfl : item = last := Option.some.inj (hlast.symm.trans hgetLast)
    obtain rfl : op = lastOp := Option.some.inj (hop.symm.trans hlastOp)
    exact absurd hends hflows
  · exact ⟨function, split, hloaded, follower, hfollower, hpc⟩

end Loaded

/-! ## The invariant -/

/-- The position and every saved return address are instructions of their sections. -/
structure State.OnTrack (valid : Validated) (state : State) : Prop where
  position : IsStart valid state.function state.pc
  frames : ∀ frame ∈ state.frames.frames, IsStart valid frame.function frame.pc

/-- The transition stays on track if it goes on, and is not aborted for want of an instruction. -/
structure Transition.OnTrack {σ : Type} (valid : Validated) (taken : Transition σ) : Prop where
  fault : ∀ fault, taken.outcome = .aborted fault → ¬ fault.IsAstray
  after : taken.outcome = .running → taken.after.state.OnTrack valid

namespace Execution

variable {σ : Type} {valid : Validated} {execution : Execution σ}

theorem onTrack_abort {fault : Fault} (hfault : ¬ fault.IsAstray) :
    (execution.abort fault).OnTrack valid where
  fault other houtcome := by
    obtain rfl := Outcome.aborted.inj houtcome
    exact hfault
  after hrunning := by cases hrunning

theorem onTrack_halt {ending : Halt} {event? : Option Event} :
    (execution.halt ending event?).OnTrack valid where
  fault other houtcome := by cases houtcome
  after hrunning := by cases hrunning

theorem onTrack_goto {state : State} {event? : Option Event} (hstate : state.OnTrack valid) :
    (execution.goto state event?).OnTrack valid where
  fault other houtcome := by cases houtcome
  after _ := hstate

/-- The execution stands at an instruction of a loaded section. -/
structure StandsAt (execution : Execution σ) (valid : Validated) (function : Function)
    (split : List Item) (item : Item) (op : Opcode) : Prop where
  loaded : Loaded valid execution.state.function function split
  mem : item ∈ split
  pc_eq : item.pc = execution.state.pc
  opcode_eq : item.opcode? = some op
  byte_eq : op.byte = item.byte

theorem Fetches.unique {program : Program} {function function' : Function}
    {fetched fetched' : Fetched} (hat : execution.Fetches program function fetched)
    (hat' : execution.Fetches program function' fetched') :
    function = function' ∧ fetched = fetched' := by
  obtain rfl : function = function' :=
    Option.some.inj (hat.function_eq.symm.trans hat'.function_eq)
  exact ⟨rfl, Except.ok.inj (hat.fetch_eq.symm.trans hat'.fetch_eq)⟩

/-- **On track, the machine reads an instruction of the section.** -/
theorem exists_standsAt (htrack : execution.state.OnTrack valid) :
    ∃ function split item op, execution.StandsAt valid function split item op ∧
      execution.Fetches (Program.ofValidated valid) function
        ⟨op, item.immediate, item.next⟩ := by
  obtain ⟨function, split, hloaded, item, hmem, hpc⟩ := htrack.position
  obtain ⟨op, hbyte, hop, hfetch⟩ := Function.fetch_of_tiled hloaded.wellFormed.tiled hmem
  exact ⟨function, split, item, op, ⟨hloaded, hmem, hpc, hop, hbyte⟩,
    hloaded.function_eq, hpc ▸ hfetch⟩

/-! ## One step -/

/-- An instruction of the host after which the execution goes on does not end the flow. -/
theorem isEnding_ne_of_host {op : Opcode} (hcontrol : ¬ IsControl op.byte)
    (hnone : haltAfter? op = none) : op.info.isEnding ≠ true := by
  intro hends
  simp only [IsControl, not_or] at hcontrol
  obtain ⟨hstop, hinvalid, _, hretf, hrjump, _⟩ := hcontrol
  rw [haltAfter?] at hnone
  rcases Opcode.byte_of_isEnding hends with h | h | h | h | h | h | h
  · exact hstop h
  · exact hinvalid h
  · exact hretf h
  · exact hrjump h
  · simp [h] at hnone
  · simp [h, Opcode.revert, Opcode.returnOp] at hnone
  · simp [h, Opcode.selfdestruct, Opcode.revert, Opcode.returnOp] at hnone

theorem onTrack_ret {function : Function} {taken : Transition σ}
    (htrack : execution.state.OnTrack valid) (hcase : RetCase execution function taken) :
    taken.OnTrack valid := by
  cases hcase with
  | short => exact onTrack_abort (by decide)
  | noFrame => exact onTrack_abort (by decide)
  | last => exact onTrack_halt
  | returned frame frames _ hpop _ =>
    -- the frame on top says where to go on, and those below it are still there
    have hframes := ReturnStack.pop?_eq_some_iff.mp hpop
    have hmem (other : Frame) (h : other ∈ frames.frames ∨ other = frame) :
        other ∈ execution.state.frames.frames := by
      rw [hframes]
      exact Array.mem_push.mpr h
    exact onTrack_goto ⟨htrack.frames frame (hmem frame (.inr rfl)),
      fun other hother => htrack.frames other (hmem other (.inl hother))⟩

section
variable {function : Function} {split : List Item} {item : Item} {op : Opcode}
  {taken : Transition σ} (hstands : execution.StandsAt valid function split item op)
  (htrack : execution.state.OnTrack valid)
include hstands htrack

theorem onTrack_call
    (hall : ∀ index < valid.codeCount, ∃ function split, Loaded valid index function split)
    (hbyte : op.byte = Opcode.callf)
    (hcase : CallCase (Program.ofValidated valid) execution ⟨op, item.immediate, item.next⟩ taken) :
    taken.OnTrack valid := by
  have hcall : item.byte = Opcode.callf := hstands.byte_eq ▸ hbyte
  have hlt := hstands.loaded.callee_lt item hstands.mem hcall
  rw [← hstands.loaded.callee_eq hstands.mem hcall op item.next] at hlt
  obtain ⟨callee, calleeSplit, hloaded⟩ := hall _ hlt
  cases hcase with
  | unknown hcallee =>
    rw [hloaded.function_eq] at hcallee
    cases hcallee
  | short => exact onTrack_abort (by decide)
  | full => exact onTrack_abort (by decide)
  | entered _ frames _ _ hpush =>
    -- a call does not end the flow, so there is something to return to
    have hflows := Opcode.isEnding_ne_of_byte (.inl hbyte)
    have hreturn := hstands.loaded.isStart_next hstands.mem hstands.opcode_eq hflows
    obtain ⟨_, hframes⟩ := ReturnStack.push_eq_ok_iff.mp hpush
    refine onTrack_goto ⟨hloaded.isStart_zero, fun frame hmem => ?_⟩
    rw [hframes, Array.mem_push] at hmem
    rcases hmem with hbelow | rfl
    · exact htrack.frames frame hbelow
    · exact hreturn

theorem onTrack_jump (hbyte : op.byte = Opcode.rjump)
    (hcase : JumpCase execution function ⟨op, item.immediate, item.next⟩ taken) :
    taken.OnTrack valid := by
  have hjump : item.HasJumpByte := .inl (hstands.byte_eq ▸ hbyte)
  have hfound := hstands.loaded.target?_eq hstands.mem hjump op
  cases hcase with
  | nowhere htarget =>
    rw [hfound] at htarget
    cases htarget
  | taken target htarget =>
    obtain rfl := Option.some.inj (hfound.symm.trans htarget)
    exact onTrack_goto ⟨hstands.loaded.isStart_landing hstands.mem hjump, htrack.frames⟩

theorem onTrack_branch (hbyte : op.byte = Opcode.rjumpi)
    (hcase : BranchCase execution function ⟨op, item.immediate, item.next⟩ taken) :
    taken.OnTrack valid := by
  have hjump : item.HasJumpByte := .inr (hstands.byte_eq ▸ hbyte)
  have hfound := hstands.loaded.target?_eq hstands.mem hjump op
  cases hcase with
  | short => exact onTrack_abort (by decide)
  | unread => exact onTrack_abort (by decide)
  | untaken =>
    -- a branch does not end the flow, so there is something to fall through to
    have hflows := Opcode.isEnding_ne_of_byte (.inr hbyte)
    have hnext := hstands.loaded.isStart_next hstands.mem hstands.opcode_eq hflows
    exact onTrack_goto ⟨hnext, htrack.frames⟩
  | nowhere _ _ _ _ htarget =>
    rw [hfound] at htarget
    cases htarget
  | taken _ target _ _ _ htarget =>
    obtain rfl := Option.some.inj (hfound.symm.trans htarget)
    exact onTrack_goto ⟨hstands.loaded.isStart_landing hstands.mem hjump, htrack.frames⟩

theorem onTrack_host {host : Host σ} (hhost : host.KeepsTrack) (hbyte : ¬ IsControl op.byte)
    (hcase : HostCase host execution ⟨op, item.immediate, item.next⟩ taken) :
    taken.OnTrack valid := by
  cases hcase with
  | short => exact onTrack_abort (by decide)
  | failed fault _ hresult => exact onTrack_abort (hhost _ _ _ _ fault hresult)
  | ended => exact onTrack_halt
  | done _ _ hending =>
    have hflows := isEnding_ne_of_host hbyte hending
    have hnext := hstands.loaded.isStart_next hstands.mem hstands.opcode_eq hflows
    exact onTrack_goto ⟨hnext, htrack.frames⟩

end

/-- **One step keeps on track,** whatever the host does. -/
theorem OnTrack.step
    (hall : ∀ index < valid.codeCount, ∃ function split, Loaded valid index function split)
    {host : Host σ} (hhost : host.KeepsTrack) (htrack : execution.state.OnTrack valid) :
    (execution.step (Program.ofValidated valid) host).OnTrack valid := by
  obtain ⟨function, split, item, op, hstands, hhere⟩ := exists_standsAt htrack
  have hcases := step_cases (Program.ofValidated valid) host execution
  -- the transition becomes a variable, so that the cases can say what it is
  generalize execution.step (Program.ofValidated valid) host = taken at hcases ⊢
  cases hcases with
  | noFunction hnone =>
    rw [hhere.function_eq] at hnone
    cases hnone
  | noInstruction _ fault hfunction hfetch =>
    obtain rfl := Option.some.inj (hhere.function_eq.symm.trans hfunction)
    rw [hhere.fetch_eq] at hfetch
    cases hfetch
  | stop => exact onTrack_halt
  | invalid => exact onTrack_abort (by decide)
  | call _ _ _ hat hbyte hcase =>
    obtain ⟨rfl, rfl⟩ := hhere.unique hat
    exact onTrack_call hstands htrack hall hbyte hcase
  | ret _ _ _ hat _ hcase =>
    obtain ⟨rfl, rfl⟩ := hhere.unique hat
    exact onTrack_ret htrack hcase
  | jump _ _ _ hat hbyte hcase =>
    obtain ⟨rfl, rfl⟩ := hhere.unique hat
    exact onTrack_jump hstands htrack hbyte hcase
  | branch _ _ _ hat hbyte hcase =>
    obtain ⟨rfl, rfl⟩ := hhere.unique hat
    exact onTrack_branch hstands htrack hbyte hcase
  | host _ _ _ hat hbyte hcase =>
    obtain ⟨rfl, rfl⟩ := hhere.unique hat
    exact onTrack_host hstands htrack hhost hbyte hcase

/-! ## From the start -/

theorem onTrack_initial (hzero : ∃ function split, Loaded valid 0 function split) (state : σ) :
    (Execution.initial state).state.OnTrack valid := by
  obtain ⟨function, split, hloaded⟩ := hzero
  refine ⟨hloaded.isStart_zero, fun frame hmem => ?_⟩
  obtain rfl : frame = .bottom := by simpa [Execution.initial, State.initial] using hmem
  exact hloaded.isStart_zero

/-- **A run of a valid container is on track,** and its next step is. -/
theorem onTrack_of_run {config : Validation.Config} {raw : Bytes}
    (hvalid : Validation.validate config raw = .ok valid) {host : Host σ} (hhost : host.KeepsTrack)
    {state : σ} {n : Nat}
    (hrun : (Execution.initial state).runWithin (Program.ofValidated valid) host n =
      (.running, execution)) :
    execution.state.OnTrack valid ∧
      (execution.step (Program.ofValidated valid) host).OnTrack valid := by
  have hall : ∀ index < valid.codeCount, ∃ function split, Loaded valid index function split :=
    fun index hindex => exists_loaded hvalid hindex
  have htrack : execution.state.OnTrack valid :=
    runWithin_induction (P := fun execution => execution.state.OnTrack valid)
      (fun execution hbefore hrunning => (OnTrack.step hall hhost hbefore).after hrunning)
      (onTrack_initial (hall 0 (codeCount_pos hvalid)) state) hrun
  exact ⟨htrack, OnTrack.step hall hhost htrack⟩

end Execution

/-- **Control flow of valid code is safe.** Take a valid container, any host that does not itself
complain of a missing instruction, and any number of steps that have all gone on. Then the machine
stands at an instruction that the analysis of an existing section lists, and the next step is not
aborted for want of a section, an instruction, an operand or a place to jump to. -/
theorem control_flow_safety {config : Validation.Config} {raw : Bytes} {valid : Validated}
    (hvalid : Validation.validate config raw = .ok valid) {σ : Type} (host : Host σ)
    (hhost : host.KeepsTrack) (state : σ) (n : Nat) (execution : Execution σ)
    (hrun : (Execution.initial state).runWithin (Program.ofValidated valid) host n =
      (.running, execution)) :
    execution.state.function < valid.codeCount ∧
      HasInstructionAt valid execution.state.function execution.state.pc ∧
      ∀ fault, (execution.step (Program.ofValidated valid) host).outcome = .aborted fault →
        ¬ fault.IsAstray := by
  obtain ⟨htrack, hstep⟩ := Execution.onTrack_of_run hvalid hhost hrun
  have hat := htrack.position.hasInstructionAt
  exact ⟨hat.lt, hat, hstep.fault⟩

theorem stackHost_keepsTrack : stackHost.KeepsTrack := by
  intro op immediate stack state fault hresult
  rcases stackHost_fault hresult with (rfl | rfl) | rfl
  · decide
  · decide
  · decide

/-- A body of two sections: the first pushes two words and calls the second, which adds them. -/
def sumBody : Container.Body :=
  ⟨1, #[.entry, ⟨2, 1⟩], #[8, 10], [0x60, 2, 0x60, 3, 0xB0, 0, 1, 0, 0x01, 0xB1], [], false⟩

/-- The container of that body with its analyses. -/
def sumValid : Validated :=
  ⟨Container.ofBody sumBody,
    [⟨[⟨0, 0x60, 1⟩, ⟨2, 0x60, 1⟩, ⟨4, 0xB0, 2⟩, ⟨7, 0x00, 0⟩],
        ⟨#[true, false, true, false, true, false, false, true]⟩, [], [⟨4, 1⟩]⟩,
      ⟨[⟨0, 0x01, 0⟩, ⟨1, 0xB1, 0⟩], ⟨#[true, true]⟩, [], []⟩]⟩

/-- A body that discards a word. It puts none there. -/
def popBody : Container.Body := ⟨1, #[.entry], #[2], [0x50, 0x00], [], false⟩

/-- The container of that body with its analysis. -/
def popValid : Validated :=
  ⟨Container.ofBody popBody, [⟨[⟨0, 0x50, 0⟩, ⟨1, 0x00, 0⟩], ⟨#[true, true]⟩, [], []⟩]⟩

/-- Five steps push, push, call, add and return, and the machine stands behind the call. -/
theorem control_flow_safety_sum :
    ∃ execution, Validation.validate .default (Container.ofBody sumBody).raw = .ok sumValid ∧
      (Execution.initial []).runWithin (Program.ofValidated sumValid) stackHost 5 =
        (.running, execution) ∧
      execution.state = ⟨0, 7, .initial⟩ ∧ HasInstructionAt sumValid 0 7 ∧
      ∀ fault, (execution.step (Program.ofValidated sumValid) stackHost).outcome =
        .aborted fault → ¬ fault.IsAstray := by
  have hvalid : Validation.validate .default (Container.ofBody sumBody).raw = .ok sumValid :=
    eq_ok_of_toOption (by decide +kernel)
  have hrunning : ((Execution.initial []).runWithin (Program.ofValidated sumValid) stackHost 5).1 =
      .running := by decide +kernel
  have hstate : ((Execution.initial []).runWithin (Program.ofValidated sumValid) stackHost
      5).2.state = ⟨0, 7, .initial⟩ := by decide +kernel
  cases hrun : (Execution.initial []).runWithin (Program.ofValidated sumValid) stackHost 5 with
  | mk outcome execution =>
    rw [hrun] at hrunning hstate
    obtain rfl : outcome = .running := hrunning
    have hsafe := control_flow_safety hvalid stackHost stackHost_keepsTrack [] 5 execution hrun
    rw [hstate] at hsafe
    exact ⟨execution, hvalid, rfl, hstate, hsafe.2.1, hsafe.2.2⟩

end EvmObject.Machine
