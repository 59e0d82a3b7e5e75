import EvmObject.Log
import EvmObject.Opcode.Basic

/-!
# What can be wrong with code

An `Error` is the kind of a refusal: its name is what suites of vectors expect and its message is
what a person reads. A `Fault` is the cause inside one section and a `ReferenceFault` a cause that
needs the instructions or the number of all sections; each has an error and leaves one record.
-/

namespace EvmObject.Code

/-- The kinds of refusal of code. -/
inductive Error where
  /-- A byte is undefined or meaningful in legacy code only. -/
  | undefinedInstruction
  /-- The section ends inside an operand. -/
  | truncatedImmediate
  /-- The last instruction does not end the flow. -/
  | missingTerminatingInstruction
  /-- A jump leads before the start of its section. -/
  | jumpUnderflow
  /-- A jump leads to the end of its section or behind it. -/
  | jumpOverflow
  /-- A jump lands on operand bytes. -/
  | jumpToImmediateBytes
  /-- A jump lands on the operand of a call. -/
  | jumpToCallOperand
  /-- A call names a section that does not exist. -/
  | invalidSectionId
  deriving DecidableEq, Repr

/-- The name under which suites expect an error. -/
def Error.name : Error → String
  | .undefinedInstruction => "UndefinedInstruction"
  | .truncatedImmediate => "TruncatedImmediate"
  | .missingTerminatingInstruction => "MissingTerminatingInstruction"
  | .jumpUnderflow => "JumpUnderflow"
  | .jumpOverflow => "JumpOverflow"
  | .jumpToImmediateBytes => "JumpToImmediateBytes"
  | .jumpToCallOperand => "JumpToCallOperand"
  | .invalidSectionId => "InvalidSectionId"

/-- The text of an error. -/
def Error.message : Error → String
  | .undefinedInstruction => "Opcode is not defined"
  | .truncatedImmediate => "Bytecode is missing immediate bytes"
  | .missingTerminatingInstruction => "Last instruction of bytecode is not terminating"
  | .jumpUnderflow => "Jump destination is too low"
  | .jumpOverflow => "Jump destination is too high"
  | .jumpToImmediateBytes => "Jump into immediate bytes"
  | .jumpToCallOperand => "Jump into CALLF operand"
  | .invalidSectionId => "CALLF index is out of bounds"

/-- Why one section is refused on its own. -/
inductive Fault where
  /-- The byte at `pc` is not enabled. -/
  | undefined (byte : UInt8) (pc : Nat)
  /-- The operand of `op` at `pc` is cut off. -/
  | truncated (op : Opcode) (pc : Nat)
  /-- The jump `op` at `pc` leads before the start. -/
  | below (op : Opcode) (pc : Nat) (target : Int)
  /-- The jump `op` at `pc` leads to the end or behind it. -/
  | above (op : Opcode) (pc : Nat) (target : Int)
  /-- No instruction ends the section. -/
  | unterminated
  deriving DecidableEq

namespace Fault

/-- The kind of a fault. -/
def error : Fault → Error
  | undefined .. => .undefinedInstruction
  | truncated .. => .truncatedImmediate
  | below .. => .jumpUnderflow
  | above .. => .jumpOverflow
  | unterminated => .missingTerminatingInstruction

/-- The record that a fault leaves. -/
def record : Fault → Log.Record
  | undefined byte pc =>
    .debug s!"undefined instruction 0x{Text.byteLower byte} at {pc}"
  | truncated op pc => .debug s!"truncated immediate of {op.info.name} at {pc}"
  | below op pc target => .debug s!"{op.info.name} at {pc} jumps to {target}"
  | above op pc target => .debug s!"{op.info.name} at {pc} jumps to {target} past the section end"
  | unterminated => .debug "code section does not end with a terminating instruction"

end Fault

/-- Why the sections of a container do not fit together. -/
inductive ReferenceFault where
  /-- The call at `pc` of section `index` names a section that is not there. -/
  | missingCallee (index pc : Nat) (callee : UInt16)
  /-- The jump at `pc` of section `index` lands inside an instruction, perhaps a call. -/
  | insideInstruction (index pc target : Nat) (intoCall : Bool)
  deriving DecidableEq, Repr

namespace ReferenceFault

/-- The kind of a fault. -/
def error : ReferenceFault → Error
  | missingCallee .. => .invalidSectionId
  | insideInstruction _ _ _ true => .jumpToCallOperand
  | insideInstruction _ _ _ false => .jumpToImmediateBytes

/-- The record that a fault leaves. -/
def record : ReferenceFault → Log.Record
  | missingCallee index pc callee =>
    .debug s!"CALLF at {pc} of section {index} calls missing section {callee}"
  | insideInstruction index pc target _ =>
    .debug s!"jump at {pc} of section {index} lands inside an instruction at {target}"

end ReferenceFault

end EvmObject.Code
