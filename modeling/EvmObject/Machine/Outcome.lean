/-!
# Outcomes

A step goes on, ends the execution, or aborts it with a fault.
-/

namespace EvmObject.Machine

/-- How an execution that was not aborted ended. -/
inductive Halt where
  /-- `STOP`, or `RETF` out of the function that the execution started with. -/
  | stopped
  /-- `RETURN`. -/
  | returned
  /-- `SELFDESTRUCT`. -/
  | destructed
  /-- `REVERT`. -/
  | reverted
  deriving DecidableEq, Repr

namespace Halt

/-- The name of an ending. -/
def name : Halt → String
  | stopped => "Stop"
  | returned => "Return"
  | destructed => "SelfDestruct"
  | reverted => "Revert"

/-- The number of an ending: successes count from 1, the revert is 16. -/
def code : Halt → Nat
  | stopped => 0x01
  | returned => 0x02
  | destructed => 0x03
  | reverted => 0x10

/-- The effects of the execution are undone. -/
def isRevert (halt : Halt) : Bool := halt == reverted

/-- The execution ended with success. -/
def isOk (halt : Halt) : Bool := !halt.isRevert

end Halt

/-- Why an execution is aborted. -/
inductive Fault where
  /-- An instruction reads below the words of the running function. -/
  | stackUnderflow
  /-- The data stack would be over its limit. -/
  | stackOverflow
  /-- The return stack would be over its limit. -/
  | returnStackOverflow
  /-- A jump does not lead to an instruction of its section. -/
  | invalidJump
  /-- The next instruction or its operand is past the end of the section. -/
  | pcOutOfBounds
  /-- The next byte is not enabled. -/
  | opcodeNotFound
  /-- The instruction `INVALID`. -/
  | invalidOpcode
  /-- The code section does not exist. -/
  | unknownSection
  /-- The host failed. -/
  | host
  deriving DecidableEq, Repr

namespace Fault

/-- The name of a fault. -/
def name : Fault → String
  | stackUnderflow => "StackUnderflow"
  | stackOverflow => "StackOverflow"
  | returnStackOverflow => "ReturnStackOverflow"
  | invalidJump => "InvalidJump"
  | pcOutOfBounds => "PcOutOfBounds"
  | opcodeNotFound => "OpcodeNotFound"
  | invalidOpcode => "InvalidFEOpcode"
  | unknownSection => "UnknownSection"
  | host => "Host"

/-- The text of a fault. -/
def message : Fault → String
  | stackUnderflow => "stack underflow"
  | stackOverflow => "stack overflow"
  | returnStackOverflow => "return stack overflow"
  | invalidJump => "invalid jump destination"
  | pcOutOfBounds => "program counter out of bounds"
  | opcodeNotFound => "opcode not found"
  | invalidOpcode => "invalid opcode 0xFE"
  | unknownSection => "unknown code section"
  | host => "host error"

/-- All faults. -/
def all : List Fault :=
  [stackUnderflow, stackOverflow, returnStackOverflow, invalidJump, pcOutOfBounds, opcodeNotFound,
    invalidOpcode, unknownSection, host]

end Fault

/-- How a step or a run comes out. -/
inductive Outcome where
  /-- The execution goes on. -/
  | running
  /-- The execution ended. -/
  | halted (halt : Halt)
  /-- The execution is aborted and its return frames are dropped. -/
  | aborted (fault : Fault)
  deriving DecidableEq, Repr

namespace Outcome

/-- The execution goes on. -/
def isRunning (outcome : Outcome) : Bool := outcome == running

/-- The execution ended with success. -/
def isOk : Outcome → Bool
  | halted halt => halt.isOk
  | _ => false

/-- The kind of an outcome and its reason. -/
def describe : Outcome → String
  | running => "Continue"
  | halted halt => s!"Halt({halt.name})"
  | aborted fault => s!"Abort({fault.name})"

end Outcome

end EvmObject.Machine
