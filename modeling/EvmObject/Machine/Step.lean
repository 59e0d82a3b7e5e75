import EvmObject.Log
import EvmObject.Machine.Host
import EvmObject.Machine.Program
import EvmObject.Machine.ReturnStack

/-!
# One step

A step reads the instruction at the machine's position and carries it out. Control transfers are
the machine's own; all other instructions are the host's, which the machine asks at most once per
step and only when it finds the inputs within reach of the running function. It counts words in
machine words, whose sums wrap around. An aborted step leaves the position, drops the return frames,
and leaves the data stack as the host left it.
-/

namespace EvmObject.Machine

/-! ## Positions and machines -/

/-- Where an execution stands. -/
structure State where
  /-- The running code section. -/
  function : Nat
  /-- Offset of the next instruction in it. -/
  pc : Nat
  /-- The frames of the running function and of those that wait for it. -/
  frames : ReturnStack
  deriving DecidableEq

namespace State

/-- The start of the first code section. -/
def initial : State := ⟨0, 0, .initial⟩

instance : Inhabited State := ⟨initial⟩

end State

/-- An execution: its position, its data stack and the state of its host. -/
structure Execution (σ : Type) where
  state : State
  stack : Stack
  host : σ

/-- An execution at the start of a program, with an empty stack. -/
def Execution.initial {σ : Type} (host : σ) : Execution σ := ⟨.initial, .empty, host⟩

/-! ## Events -/

/-- What a step is worth a record for. -/
inductive Event where
  /-- A function calls another, which makes this many frames. -/
  | called (caller callee depth : Nat)
  /-- The entry function returns. -/
  | left
  /-- A function returns to another at an offset. -/
  | returned (callee caller pc : Nat)
  /-- A jump is taken. -/
  | jumped (op : Opcode) (pc target : Nat)
  /-- The execution is aborted. -/
  | aborted (function pc : Nat) (fault : Fault)
  deriving DecidableEq

/-- The record of an event. -/
def Event.record : Event → Log.Record
  | called caller callee depth => .trace s!"CALLF {caller} -> {callee}, depth {depth}"
  | left => .trace "RETF out of the entry function"
  | returned callee caller pc => .trace s!"RETF {callee} -> {caller} at {pc}"
  | jumped op pc target => .trace s!"{op.info.name} {pc} -> {target}"
  | aborted function pc fault =>
    .debug s!"execution aborted at {pc} of section {function}: {fault.message}"

/-! ## Ways to end a step -/

/-- What a step leads to. -/
structure Transition (σ : Type) where
  outcome : Outcome
  after : Execution σ
  event? : Option Event

namespace Execution

variable {σ : Type} (execution : Execution σ)

/-- Aborts with a fault. -/
def abort (fault : Fault) : Transition σ where
  outcome := .aborted fault
  after := { execution with state := { execution.state with frames := .empty } }
  event? := some (.aborted execution.state.function execution.state.pc fault)

/-- Ends the execution where it stands. -/
def halt (halt : Halt) (event? : Option Event) : Transition σ :=
  ⟨.halted halt, execution, event?⟩

/-- Goes on at another position. -/
def goto (state : State) (event? : Option Event) : Transition σ :=
  ⟨.running, { execution with state }, event?⟩

/-- The data stack holds `count` words that the running function can reach. Height and count are
machine words, and their sum wraps around. -/
def reaches (count : Nat) : Bool :=
  (UInt64.ofNat execution.state.frames.height + UInt64.ofNat count).toNat ≤ execution.stack.size

/-- Number of words below the topmost `count`. Both are machine words, and their difference wraps
around. -/
def heightBelow (count : Nat) : Nat :=
  (UInt64.ofNat execution.stack.size - UInt64.ofNat count).toNat

/-! ## Control transfers -/

/-- Calls the code section that the operand names. Its arguments are the topmost words, and what is
below them is out of its reach. -/
def call (program : Program) (fetched : Fetched) : Transition σ :=
  let state := execution.state
  let callee := ((Bytes.readU16? fetched.immediate).getD 0).toNat
  match program.function? callee with
  | none => execution.abort .unknownSection
  | some function =>
    let inputs := function.signature.inputs.toNat
    if !execution.reaches inputs then execution.abort .stackUnderflow
    else
      match state.frames.push ⟨state.function, fetched.next, execution.heightBelow inputs⟩ with
      | .error fault => execution.abort fault
      | .ok frames =>
        execution.goto ⟨callee, 0, frames⟩ (some (.called state.function callee frames.size))

/-- Returns to the caller, with as many words as the signature of the running function says. The
entry function has no caller, and its return ends the execution. -/
def ret (function : Function) : Transition σ :=
  let state := execution.state
  if !execution.reaches function.signature.outputs.toNat then execution.abort .stackUnderflow
  else
    match state.frames.pop? with
    | none => execution.abort .stackUnderflow
    | some (frame, frames) =>
      if frames.isEmpty then
        { execution with state := { state with frames } }.halt .stopped (some .left)
      else
        execution.goto ⟨frame.function, frame.pc, frames⟩
          (some (.returned state.function frame.function frame.pc))

/-- Jumps by the offset in the operand. -/
def jump (function : Function) (fetched : Fetched) : Transition σ :=
  let state := execution.state
  match function.target? fetched with
  | none => execution.abort .invalidJump
  | some target =>
    execution.goto { state with pc := target } (some (.jumped fetched.opcode state.pc target))

/-- Takes the top word off and jumps if it is not zero. A jump that leads nowhere is a fault only if
it is taken, and leaves the word. -/
def branch (function : Function) (fetched : Fetched) : Transition σ :=
  if !execution.reaches 1 then execution.abort .stackUnderflow
  else
    match execution.stack.peek 0 with
    | .error fault => execution.abort fault
    | .ok condition =>
      if condition = 0 then
        let popped := execution.stack.pop.2
        { execution with stack := popped }.goto { execution.state with pc := fetched.next } none
      else
        match function.target? fetched with
        | none => execution.abort .invalidJump
        | some _ => { execution with stack := execution.stack.pop.2 }.jump function fetched

/-! ## Everything else -/

/-- How the execution ends after the host carried out an opcode, if it does. -/
def haltAfter? (op : Opcode) : Option Halt :=
  if op.byte = Opcode.returnOp then some .returned
  else if op.byte = Opcode.revert then some .reverted
  else if op.byte = Opcode.selfdestruct then some .destructed
  else none

/-- Has the host carry out an opcode. -/
def delegate (host : Host σ) (fetched : Fetched) : Transition σ :=
  if !execution.reaches fetched.opcode.info.inputs then execution.abort .stackUnderflow
  else
    match execution with
    | ⟨state, stack, hostState⟩ =>
      match host.execute fetched.opcode fetched.immediate stack hostState with
      | ⟨.error fault, stack, hostState⟩ => abort ⟨state, stack, hostState⟩ fault
      | ⟨.ok (), stack, hostState⟩ =>
        match haltAfter? fetched.opcode with
        | some ending => halt ⟨state, stack, hostState⟩ ending none
        | none => goto ⟨state, stack, hostState⟩ { state with pc := fetched.next } none

/-! ## The step -/

/-- Carries out one instruction. -/
def step (program : Program) (host : Host σ) : Transition σ :=
  match program.function? execution.state.function with
  | none => execution.abort .unknownSection
  | some function =>
    match function.fetch execution.state.pc with
    | .error fault => execution.abort fault
    | .ok fetched =>
      let byte := fetched.opcode.byte
      if byte = Opcode.stop then execution.halt .stopped none
      else if byte = Opcode.invalid then execution.abort .invalidOpcode
      else if byte = Opcode.callf then execution.call program fetched
      else if byte = Opcode.retf then execution.ret function
      else if byte = Opcode.rjump then execution.jump function fetched
      else if byte = Opcode.rjumpi then execution.branch function fetched
      else execution.delegate host fetched

end Execution

end EvmObject.Machine
