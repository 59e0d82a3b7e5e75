import EvmObject.Machine.Stack
import EvmObject.Opcode.Basic

/-!
# Hosts

A `Host` carries out the instructions that are not control transfers. It has a state of its own, may
change the data stack, and answers with success or a fault. The machine checks beforehand that the
instruction's inputs are within reach of the running function.
-/

namespace EvmObject.Machine

/-- What an instruction left behind. -/
structure Effect (σ : Type) where
  result : Except Fault Unit
  stack : Stack
  host : σ

/-- Carries out instructions on the data stack, with a state of type `σ`. -/
structure Host (σ : Type) where
  /-- Carries out an opcode with its operand bytes. -/
  execute : Opcode → Bytes → Stack → σ → Effect σ

namespace Host

/-- A host that fails on some opcodes, without any effect, and is the given one on all others. -/
def refusing {σ : Type} (host : Host σ) (refuses : Opcode → Bool) : Host σ where
  execute op immediate stack state :=
    if refuses op then ⟨.error .host, stack, state⟩ else host.execute op immediate stack state

end Host

end EvmObject.Machine
