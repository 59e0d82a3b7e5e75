import EvmObject.Machine.Outcome
import EvmObject.Validation.Basic

/-!
# Programs

A `Program` is what the machine needs of a validated container: for each code section its bytes, its
signature and its jump table. `fetch` reads the instruction at an offset of a section; it repeats
the checks of validation, since a machine may be set to any position.
-/

namespace EvmObject.Machine

/-- A code section, ready to run. -/
structure Function where
  code : Array UInt8
  signature : Container.Signature
  jumpTable : Code.JumpTable
  deriving DecidableEq

/-- The code sections of a container, ready to run. -/
structure Program where
  functions : Array Function
  deriving DecidableEq

/-- An instruction that was read at some offset. -/
structure Fetched where
  opcode : Opcode
  /-- The operand bytes. -/
  immediate : Bytes
  /-- The offset of the byte after the instruction. -/
  next : Nat
  deriving DecidableEq

namespace Function

/-- Reads the instruction at an offset. -/
def fetch (function : Function) (pc : Nat) : Except Fault Fetched :=
  match function.code[pc]? with
  | none => .error .pcOutOfBounds
  | some byte =>
    match Opcode.enabled? byte with
    | none => .error .opcodeNotFound
    | some opcode =>
      let next := pc + 1 + opcode.info.immediateSize
      if function.code.size < next then .error .pcOutOfBounds
      else .ok ⟨opcode, (function.code.extract (pc + 1) next).toList, next⟩

/-- Where a relative jump leads, if it is to an instruction of the function. The distance in the
operand counts from the byte after the jump. -/
def target? (function : Function) (fetched : Fetched) : Option Nat :=
  let target := (fetched.next : Int) + (Bytes.readI16? fetched.immediate).getD 0
  if 0 ≤ target && function.jumpTable.isValid target.toNat then some target.toNat else none

end Function

namespace Program

/-- The function of a code section. -/
def function? (program : Program) (index : Nat) : Option Function := program.functions[index]?

/-- The program of code sections with their signatures and analyses, matched in order. -/
def ofSections (sections : List Bytes) (signatures : List Container.Signature)
    (analyses : List Code.Analysis) : Program :=
  ⟨((sections.zip (signatures.zip analyses)).map fun (code, signature, analysis) =>
    ⟨code.toArray, signature, analysis.jumpTable⟩).toArray⟩

end Program

/-- The program of a validated container. -/
def Program.ofValidated (valid : Validation.Validated) : Program :=
  let body := valid.container.body
  .ofSections (body.sections.map (·.getD [])) body.signatures.toList valid.analyses

end EvmObject.Machine
