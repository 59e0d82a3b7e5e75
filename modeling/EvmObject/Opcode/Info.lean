/-!
# What is known of an opcode

An `Info` is one entry of the instruction table: the name, how many words the instruction takes
from and leaves on the stack, how many operand bytes follow it, whether it ends the sequential flow
of a code section, and whether it only makes sense outside of containers.
-/

namespace EvmObject.Opcode

/-- One entry of the instruction table. -/
structure Info where
  name : String
  /-- Words taken from the stack. -/
  inputs : Nat
  /-- Words left on the stack. -/
  outputs : Nat
  /-- Operand bytes that follow the opcode byte. -/
  immediateSize : Nat
  /-- The instruction is meaningful in legacy code only and is refused inside containers. -/
  isLegacy : Bool
  /-- The instruction ends the sequential flow of its section. -/
  isEnding : Bool
  deriving DecidableEq, Repr

namespace Info

/-- An entry that takes and leaves nothing and has no operand. -/
def plain (name : String) : Info := ⟨name, 0, 0, 0, false, false⟩

/-- Sets the words taken and left. -/
def withStack (info : Info) (inputs outputs : Nat) : Info := { info with inputs, outputs }

/-- Sets the number of operand bytes. -/
def withImmediate (info : Info) (immediateSize : Nat) : Info := { info with immediateSize }

/-- Refuses the instruction inside containers. -/
def legacy (info : Info) : Info := { info with isLegacy := true }

/-- Lets the instruction end the flow of its section. -/
def ending (info : Info) : Info := { info with isEnding := true }

/-- Words left minus words taken. -/
def stackChange (info : Info) : Int := (info.outputs : Int) - (info.inputs : Int)

end Info

end EvmObject.Opcode
