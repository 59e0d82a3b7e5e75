import EvmObject.Proofs.Machine.ControlFlow
import EvmObject.Proofs.Machine.Runs
import Mathlib.Algebra.GroupWithZero.Nat
import Mathlib.Algebra.Order.BigOperators.Group.List
import Mathlib.Algebra.Order.Group.Nat
import Mathlib.Order.WellFoundedSet

/-!
# Code without loops and recursion stops

A run of a container whose jumps all lead forward and whose sections do not call each other in a
circle comes to an end, whatever the host does and whatever is on the data stack.

The position alone does not show it: the offset falls back to zero on a call and to a saved value on
a return. What falls with every step is the sum of what is left to do at the position and at all
saved return addresses, if a byte of code is worth enough.

* **`StepBudget`** gives every section a number of steps per byte, such that one byte of a caller
  pays for a whole run of any section that it calls. Without recursion there is such a budget
  (`stepBudget`), by recursion along the calls.
* **`Flows`** lists the ways that the code of a container leads from a state to the next, read off
  the analyses, and `flows_of_step` says that the machine takes one of them.
* **`StepBudget.left_lt_of_flows`**: on each of these ways less of the budget is left.
* **`acyclic_code_stops`**: so the budget at the start bounds the number of steps. The bound grows
  exponentially with the depth of the calls, but it depends on nothing but the container.
-/

namespace EvmObject

namespace Validation.Validated

variable {valid : Validated}

/-! ## What is asked of the code -/

/-- The sections that the calls of a section name, one for each call. A section that does not exist
calls none. -/
def callees (valid : Validated) (caller : Nat) : List Nat :=
  ((valid.analysis? caller).map fun analysis => analysis.calls.map (·.callee.toNat)).getD []

/-- A section contains a call of another. -/
def Calls (valid : Validated) (caller callee : Nat) : Prop :=
  callee ∈ valid.callees caller

/-- No section calls itself, be it through others. -/
def HasNoRecursion (valid : Validated) : Prop :=
  ∀ index, ¬ Relation.TransGen valid.Calls index index

/-- Every relative jump of every section leads to a larger offset than its own. -/
def HasNoLoop (valid : Validated) : Prop :=
  ∀ index analysis, valid.analysis? index = some analysis →
    ∀ jump ∈ analysis.jumps, jump.pc < jump.target

/-! ## Recursion along the calls

Only sections that exist have calls, so there are finitely many callers, and calls without a circle
are well-founded: what holds of a section if it holds of all that it calls holds of every section. -/

theorem Calls.lt {caller callee : Nat} (hcalls : valid.Calls caller callee) :
    caller < valid.codeCount := by
  unfold Calls callees at hcalls
  cases hanalysis : valid.analysis? caller with
  | none => simp [hanalysis] at hcalls
  | some analysis => exact (List.getElem?_eq_some_iff.mp hanalysis).1

/-- The section is called by the other, be it through others. -/
def IsBelow (valid : Validated) (callee caller : Nat) : Prop :=
  Relation.TransGen valid.Calls caller callee

theorem HasNoRecursion.isStrictOrder (hacyclic : valid.HasNoRecursion) :
    IsStrictOrder Nat valid.IsBelow where
  irrefl := hacyclic
  trans _ _ _ hlow hhigh := hhigh.trans hlow

theorem HasNoRecursion.wellFounded (hacyclic : valid.HasNoRecursion) :
    WellFounded fun callee caller => valid.Calls caller callee := by
  have horder := hacyclic.isStrictOrder
  have hfinite : {index | index < valid.codeCount}.Finite := Set.finite_lt_nat _
  have hbelow := Set.wellFoundedOn_iff.mp (hfinite.wellFoundedOn (r := valid.IsBelow))
  constructor
  intro index
  induction index using hbelow.induction with
  | _ index ih =>
    constructor
    intro callee hcalls
    by_cases hlt : callee < valid.codeCount
    · exact ih callee ⟨.single hcalls, hlt, hcalls.lt⟩
    · -- a section that does not exist calls nothing
      exact ⟨callee, fun _ hdeeper => absurd hdeeper.lt hlt⟩

/-- It suffices that sections call only those behind them. -/
theorem hasNoRecursion_of_lt
    (hlt : ∀ caller callee, valid.Calls caller callee → caller < callee) :
    valid.HasNoRecursion := by
  have hbelow {caller callee : Nat} (hpath : Relation.TransGen valid.Calls caller callee) :
      caller < callee := by
    induction hpath with
    | single hcalls => exact hlt _ _ hcalls
    | tail _ hcalls ih => exact Nat.lt_trans ih (hlt _ _ hcalls)
  intro index hcircle
  exact Nat.lt_irrefl index (hbelow hcircle)

/-- Number of bytes of a section. -/
def codeSize (valid : Validated) (index : Nat) : Nat :=
  ((valid.container.body.slice? index).getD []).length

end Validation.Validated

namespace Machine

open Code (Item)
open Validation (Validated)

/-! ## Steps paid in advance

Without jumps back, the code of a section is executed once at most, byte by byte. Each byte has to
pay for its own step and, if a call stands there, for all steps of the section that is called. -/

/-- A number of steps for each byte of a section. One byte of a caller pays for all bytes of any
section that it calls, and for its own step. -/
structure StepBudget (valid : Validated) where
  perByte : Nat → Nat
  perByte_pos : ∀ index, 0 < perByte index
  callee_lt : ∀ caller callee, valid.Calls caller callee →
    valid.codeSize callee * perByte callee < perByte caller

section
variable {valid : Validated} (hwf : WellFounded fun callee caller => valid.Calls caller callee)

/-- One for the step itself, and what the bytes of all called sections cost. -/
noncomputable def costPerByte : Nat → Nat :=
  hwf.fix fun caller ofCallee =>
    1 + ((valid.callees caller).attach.map fun callee =>
      valid.codeSize callee.1 * ofCallee callee.1 callee.2).sum

theorem costPerByte_eq (caller : Nat) :
    costPerByte hwf caller = 1 + ((valid.callees caller).map fun callee =>
      valid.codeSize callee * costPerByte hwf callee).sum := by
  rw [costPerByte, hwf.fix_eq]
  congr 2
  exact List.attach_map_val (f := fun callee => valid.codeSize callee * costPerByte hwf callee)

/-- Without recursion the cost of a byte is a budget. -/
noncomputable def stepBudget : StepBudget valid where
  perByte := costPerByte hwf
  perByte_pos index := by
    rw [costPerByte_eq]
    omega
  callee_lt caller callee hcalls := by
    have hmem := List.mem_map_of_mem
      (f := fun callee => valid.codeSize callee * costPerByte hwf callee) hcalls
    have hle := List.le_sum_of_mem hmem
    rw [costPerByte_eq hwf caller]
    omega

end

namespace StepBudget

variable {valid : Validated} (budget : StepBudget valid)

/-- What the bytes of a section pay for from an offset on. -/
def leftAt (index pc : Nat) : Nat :=
  (valid.codeSize index - pc) * budget.perByte index

/-- What the functions that wait for a return have left, from their return addresses on. -/
def saved (frames : ReturnStack) : Nat :=
  (frames.frames.toList.map fun frame => budget.leftAt frame.function frame.pc).sum

/-- What is left to do from a state on: in the running function, and in those that wait for it. -/
def left (state : State) : Nat :=
  budget.leftAt state.function state.pc + budget.saved state.frames

theorem left_eq (function pc : Nat) (frames : ReturnStack) :
    budget.left ⟨function, pc, frames⟩ = budget.leftAt function pc + budget.saved frames := rfl

theorem leftAt_zero (index : Nat) :
    budget.leftAt index 0 = valid.codeSize index * budget.perByte index := by
  unfold leftAt
  rw [Nat.sub_zero]

theorem leftAt_lt {index pc later : Nat} (hinside : pc < valid.codeSize index)
    (hlater : pc < later) :
    budget.leftAt index later + budget.perByte index ≤ budget.leftAt index pc := by
  have hbytes : valid.codeSize index - later + 1 ≤ valid.codeSize index - pc := by omega
  calc budget.leftAt index later + budget.perByte index
      = (valid.codeSize index - later + 1) * budget.perByte index := by
        rw [Nat.succ_mul]
        rfl
    _ ≤ budget.leftAt index pc := Nat.mul_le_mul_right _ hbytes

theorem saved_of_push {below above : ReturnStack} {frame : Frame}
    (hframes : above.frames = below.frames.push frame) :
    budget.saved above = budget.saved below + budget.leftAt frame.function frame.pc := by
  unfold saved
  rw [hframes, Array.toList_push, List.map_append, List.sum_append]
  simp

end StepBudget

/-! ## Where the code leads -/

/-- From the first state the code of the container leads to the second, if the machine goes on. -/
inductive Flows (valid : Validated) (state : State) : State → Prop where
  | next (later : Nat) (hstart : IsStart valid state.function later) (hlater : state.pc < later) :
      Flows valid state { state with pc := later }
  | jump (analysis : Code.Analysis) (jump : Code.Jump)
      (hanalysis : valid.analysis? state.function = some analysis) (hjump : jump ∈ analysis.jumps)
      (hpc : jump.pc = state.pc) (hstart : IsStart valid state.function jump.target) :
      Flows valid state { state with pc := jump.target }
  | call (callee later height : Nat) (frames : ReturnStack)
      (hcalls : valid.Calls state.function callee) (hentry : IsStart valid callee 0)
      (hstart : IsStart valid state.function later) (hlater : state.pc < later)
      (hframes : frames.frames = state.frames.frames.push ⟨state.function, later, height⟩) :
      Flows valid state ⟨callee, 0, frames⟩
  | ret (frame : Frame) (frames : ReturnStack)
      (hframes : state.frames.frames = frames.frames.push frame) :
      Flows valid state ⟨frame.function, frame.pc, frames⟩

theorem Flows.onTrack {valid : Validated} {state after : State} (hflows : Flows valid state after)
    (htrack : state.OnTrack valid) : after.OnTrack valid := by
  cases hflows with
  | next later hstart => exact ⟨hstart, htrack.frames⟩
  | jump _ _ _ _ _ hstart => exact ⟨hstart, htrack.frames⟩
  | call callee later height frames _ hentry hstart _ hframes =>
    refine ⟨hentry, fun frame hmem => ?_⟩
    rw [hframes, Array.mem_push] at hmem
    rcases hmem with hbelow | rfl
    · exact htrack.frames frame hbelow
    · exact hstart
  | ret frame frames hframes =>
    have hmem (other : Frame) (h : other ∈ frames.frames ∨ other = frame) :
        other ∈ state.frames.frames := by
      rw [hframes]
      exact Array.mem_push.mpr h
    exact ⟨htrack.frames frame (hmem frame (.inr rfl)),
      fun other hother => htrack.frames other (hmem other (.inl hother))⟩

theorem IsStart.lt_codeSize {valid : Validated} {index pc : Nat}
    (hstart : IsStart valid index pc) : pc < valid.codeSize index := by
  obtain ⟨function, split, hloaded, item, hmem, rfl⟩ := hstart
  have hbounds := (hloaded.wellFormed.tiled.bounds hmem).2
  unfold Item.next at hbounds
  unfold Validated.codeSize
  rw [hloaded.slice_eq, Option.getD_some]
  omega

/-- **Less of the budget is left after each step.** -/
theorem StepBudget.left_lt_of_flows {valid : Validated} (budget : StepBudget valid)
    (hforward : valid.HasNoLoop) {state after : State} (htrack : state.OnTrack valid)
    (hflows : Flows valid state after) : budget.left after < budget.left state := by
  have hinside := htrack.position.lt_codeSize
  have hpos := budget.perByte_pos state.function
  have hahead {later : Nat} (hlater : state.pc < later) :=
    budget.leftAt_lt hinside hlater
  cases hflows with
  | next later _ hlater =>
    have hless := hahead hlater
    rw [left_eq]
    unfold left
    omega
  | jump analysis jump hanalysis hjump hpc =>
    have hless := hahead (hpc ▸ hforward _ _ hanalysis _ hjump)
    rw [left_eq]
    unfold left
    omega
  | call callee later height frames hcalls _ _ hlater hframes =>
    -- the byte of the call pays for the whole callee, and what is behind it is still left
    have hless := hahead hlater
    have hcallee : budget.leftAt callee 0 < budget.perByte state.function := by
      rw [leftAt_zero]
      exact budget.callee_lt _ _ hcalls
    have hsaved := budget.saved_of_push hframes
    dsimp only at hsaved
    rw [left_eq]
    unfold left
    omega
  | ret frame frames hframes =>
    -- the callee gives up what it has left, which is the byte of the return at least
    have hless := hahead (Nat.lt_succ_self state.pc)
    have hsaved := budget.saved_of_push hframes
    rw [left_eq]
    unfold left
    omega

/-! ## The machine goes where the code leads -/

namespace Execution

variable {σ : Type} {valid : Validated} {execution : Execution σ}

namespace StandsAt

variable {function : Function} {split : List Item} {item : Item} {op : Opcode}
  (hstands : execution.StandsAt valid function split item op)
include hstands

theorem lt_next : execution.state.pc < item.next := by
  rw [← hstands.pc_eq]
  unfold Item.next
  omega

theorem flows_next (hflows : op.info.isEnding ≠ true) :
    Flows valid execution.state { execution.state with pc := item.next } := by
  apply Flows.next
  · exact hstands.loaded.isStart_next hstands.mem hstands.opcode_eq hflows
  · exact hstands.lt_next

theorem flows_jump (hjump : item.HasJumpByte) {target : Nat}
    (htarget : function.target? ⟨op, item.immediate, item.next⟩ = some target) :
    Flows valid execution.state { execution.state with pc := target } := by
  rw [hstands.loaded.target?_eq hstands.mem hjump] at htarget
  obtain rfl := Option.some.inj htarget
  obtain ⟨analysis, hanalysis, hdescribes, _⟩ := hstands.loaded.analysis
  apply Flows.jump analysis ⟨item.pc, item.landing.toNat⟩ hanalysis
  · rw [hdescribes.jumps]
    exact List.mem_map_of_mem (List.mem_filter.mpr ⟨hstands.mem, decide_eq_true hjump⟩)
  · exact hstands.pc_eq
  · exact hstands.loaded.isStart_landing hstands.mem hjump

theorem calls (hcall : item.byte = Opcode.callf) :
    valid.Calls execution.state.function (Bytes.toNat item.immediate) := by
  obtain ⟨analysis, hanalysis, hdescribes, _⟩ := hstands.loaded.analysis
  have htwo := hstands.loaded.wellFormed.tiled.length_of_callf hstands.mem hcall
  unfold Validated.Calls Validated.callees
  rw [hanalysis, Option.map_some, Option.getD_some, hdescribes.calls, List.map_map, List.mem_map]
  refine ⟨item, List.mem_filter.mpr ⟨hstands.mem, decide_eq_true hcall⟩, ?_⟩
  show (UInt16.ofNat (Bytes.toNat item.immediate)).toNat = _
  rw [UInt16.toNat_ofNat', Nat.mod_eq_of_lt (Code.toNat_lt_of_length htwo)]

theorem flows_call
    (hall : ∀ index < valid.codeCount, ∃ function split, Loaded valid index function split)
    (hbyte : op.byte = Opcode.callf) {callee : Function} {frames : ReturnStack}
    (hpush : execution.state.frames.push
      (execution.frameFor ⟨op, item.immediate, item.next⟩ callee) = .ok frames) :
    Flows valid execution.state
      ⟨Fetched.callee ⟨op, item.immediate, item.next⟩, 0, frames⟩ := by
  have hcall : item.byte = Opcode.callf := hstands.byte_eq ▸ hbyte
  rw [hstands.loaded.callee_eq hstands.mem hcall]
  obtain ⟨_, _, hloaded⟩ := hall _ (hstands.loaded.callee_lt item hstands.mem hcall)
  have hflows := Opcode.isEnding_ne_of_byte (.inl hbyte)
  apply Flows.call
  · exact hstands.calls hcall
  · exact hloaded.isStart_zero
  · exact hstands.loaded.isStart_next hstands.mem hstands.opcode_eq hflows
  · exact hstands.lt_next
  · exact (ReturnStack.push_eq_ok_iff.mp hpush).2

end StandsAt

/-- **A step that goes on goes where the code leads,** whatever the host does. -/
theorem flows_of_step
    (hall : ∀ index < valid.codeCount, ∃ function split, Loaded valid index function split)
    {host : Host σ} (htrack : execution.state.OnTrack valid)
    (hrunning : (execution.step (Program.ofValidated valid) host).outcome = .running) :
    Flows valid execution.state
      (execution.step (Program.ofValidated valid) host).after.state := by
  obtain ⟨function, split, item, op, hstands, hhere⟩ := exists_standsAt htrack
  have hcases := step_cases (Program.ofValidated valid) host execution
  generalize execution.step (Program.ofValidated valid) host = taken at hcases hrunning ⊢
  cases hcases with
  | noFunction => cases hrunning
  | noInstruction => cases hrunning
  | stop => cases hrunning
  | invalid => cases hrunning
  | call _ _ _ hat hbyte hcase =>
    obtain ⟨rfl, rfl⟩ := hhere.unique hat
    cases hcase with
    | unknown => cases hrunning
    | short => cases hrunning
    | full => cases hrunning
    | entered _ _ _ _ hpush => exact hstands.flows_call hall hbyte hpush
  | ret _ _ _ _ _ hcase =>
    cases hcase with
    | short => cases hrunning
    | noFrame => cases hrunning
    | last => cases hrunning
    | returned frame frames _ hpop => exact .ret frame frames (ReturnStack.pop?_eq_some_iff.mp hpop)
  | jump _ _ _ hat hbyte hcase =>
    obtain ⟨rfl, rfl⟩ := hhere.unique hat
    cases hcase with
    | nowhere => cases hrunning
    | taken _ htarget => exact hstands.flows_jump (.inl (hstands.byte_eq ▸ hbyte)) htarget
  | branch _ _ _ hat hbyte hcase =>
    obtain ⟨rfl, rfl⟩ := hhere.unique hat
    cases hcase with
    | short => cases hrunning
    | unread => cases hrunning
    | untaken => exact hstands.flows_next (Opcode.isEnding_ne_of_byte (.inr hbyte))
    | nowhere => cases hrunning
    | taken _ _ _ _ _ htarget =>
      exact hstands.flows_jump (.inr (hstands.byte_eq ▸ hbyte)) htarget
  | host _ _ _ hat hbyte hcase =>
    obtain ⟨rfl, rfl⟩ := hhere.unique hat
    cases hcase with
    | short => cases hrunning
    | failed => cases hrunning
    | ended => cases hrunning
    | done _ _ hending => exact hstands.flows_next (isEnding_ne_of_host hbyte hending)

/-! ## Runs -/

/-- A run of more steps than the budget pays for has come to an end. -/
theorem runWithin_ne_running_of_left_lt
    (hall : ∀ index < valid.codeCount, ∃ function split, Loaded valid index function split)
    (budget : StepBudget valid) (hforward : valid.HasNoLoop) (host : Host σ) {n : Nat}
    (htrack : execution.state.OnTrack valid) (hleft : budget.left execution.state < n) :
    (execution.runWithin (Program.ofValidated valid) host n).1 ≠ .running := by
  induction n generalizing execution with
  | zero => omega
  | succ n ih =>
    by_cases hrunning : (execution.step (Program.ofValidated valid) host).outcome = .running
    · have hflows := flows_of_step hall htrack hrunning
      have hless := budget.left_lt_of_flows hforward htrack hflows
      rw [runWithin_succ_of_running hrunning]
      apply ih (hflows.onTrack htrack)
      omega
    · rw [runWithin_succ_of_ended hrunning]
      exact hrunning

end Execution

/-- **Code without loops and recursion always stops.** Take a valid container whose relative jumps
all lead forward and in which no section calls itself, directly or through others. Then there is a
number of steps within which every execution from the start of the entry function ends, for every
host, every state of it and every data stack; more steps than these lead to no other end. -/
theorem acyclic_code_stops {config : Validation.Config} {raw : Bytes} {valid : Validated}
    (hvalid : Validation.validate config raw = .ok valid) (hforward : valid.HasNoLoop)
    (hacyclic : valid.HasNoRecursion) :
    ∃ n, ∀ {σ : Type} (host : Host σ) (hostState : σ) (stack : Stack),
      let start : Execution σ := ⟨.initial, stack, hostState⟩
      let program := Program.ofValidated valid
      (start.runWithin program host n).1 ≠ .running ∧
        ∀ m, start.runWithin program host (n + m) = start.runWithin program host n := by
  have budget := stepBudget hacyclic.wellFounded
  have hall : ∀ index < valid.codeCount, ∃ function split, Loaded valid index function split :=
    fun index hindex => exists_loaded hvalid hindex
  refine ⟨budget.left .initial + 1, fun {σ} host hostState stack => ?_⟩
  have htrack : State.initial.OnTrack valid :=
    Execution.onTrack_initial (hall 0 (codeCount_pos hvalid)) hostState
  have hended : ((⟨.initial, stack, hostState⟩ : Execution σ).runWithin (Program.ofValidated valid)
      host (budget.left .initial + 1)).1 ≠ .running :=
    Execution.runWithin_ne_running_of_left_lt hall budget hforward host htrack
      (Nat.lt_succ_self _)
  exact ⟨hended, Execution.runWithin_add_of_ended hended⟩

/-- A body of two sections. The first branches over a call of the second, which only returns. -/
def skipBody : Container.Body :=
  ⟨1, #[.entry, .entry], #[9, 10], [0x60, 1, 0x5D, 0, 3, 0xB0, 0, 1, 0x00, 0xB1], [], false⟩

/-- The container of that body with its analyses. -/
def skipValid : Validated :=
  ⟨Container.ofBody skipBody,
    [⟨[⟨0, 0x60, 1⟩, ⟨2, 0x5D, 2⟩, ⟨5, 0xB0, 2⟩, ⟨8, 0x00, 0⟩],
        ⟨#[true, false, true, false, false, true, false, false, true]⟩, [⟨2, 8⟩], [⟨5, 1⟩]⟩,
      ⟨[⟨0, 0xB1, 0⟩], ⟨#[true]⟩, [], []⟩]⟩

/-- Its only jump leads from 2 to 8, and its only call from section 0 to section 1. -/
theorem acyclic_code_stops_skip :
    Validation.validate .default (Container.ofBody skipBody).raw = .ok skipValid ∧
      skipValid.HasNoLoop ∧ skipValid.HasNoRecursion ∧
      ∃ n, ∀ hostState stack,
        ((⟨.initial, stack, hostState⟩ : Execution StackHost.Trace).runWithin
          (Program.ofValidated skipValid) stackHost n).1 ≠ .running := by
  have hvalid : Validation.validate .default (Container.ofBody skipBody).raw = .ok skipValid :=
    eq_ok_of_toOption (by decide +kernel)
  have hforward : skipValid.HasNoLoop := by
    intro index analysis hanalysis
    have hall : ∀ analysis ∈ skipValid.analyses, ∀ jump ∈ analysis.jumps, jump.pc < jump.target :=
      by decide
    exact hall analysis (List.mem_of_getElem? hanalysis)
  have hacyclic : skipValid.HasNoRecursion := by
    apply Validated.hasNoRecursion_of_lt
    intro caller callee hcalls
    match caller with
    | 0 =>
      obtain rfl : callee = 1 := List.mem_singleton.mp hcalls
      decide
    | 1 => cases hcalls
    | _ + 2 => cases hcalls
  obtain ⟨n, hstops⟩ := acyclic_code_stops hvalid hforward hacyclic
  exact ⟨hvalid, hforward, hacyclic, n, fun hostState stack =>
    (hstops stackHost hostState stack).1⟩

end Machine

end EvmObject
