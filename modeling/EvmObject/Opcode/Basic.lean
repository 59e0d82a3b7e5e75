import EvmObject.Limits
import EvmObject.Opcode.Table
import EvmObject.Text.Quoted

/-!
# Opcodes

An `Opcode` is a byte that the instruction table defines, so its `info` is total. Inside containers
the legacy instructions are refused: `enabled?` is the test that scanning, listing and execution
share. Main statements: `ofByte?_byte`, every opcode is found under its byte, and
`enabled?_eq_some_iff`, which says what being enabled means.
-/

namespace EvmObject

/-- A byte that the instruction table defines. -/
structure Opcode where
  byte : UInt8
  isDefined : (Opcode.Info.ofByte? byte).isSome = true
  deriving DecidableEq

namespace Opcode

/-! ## From bytes to opcodes -/

/-- The opcode of a byte; `none` if the byte is undefined. -/
def ofByte? (byte : UInt8) : Option Opcode :=
  if h : (Info.ofByte? byte).isSome = true then some ⟨byte, h⟩ else none

/-- The table's entry for an opcode. -/
def info (op : Opcode) : Info :=
  (Info.ofByte? op.byte).get op.isDefined

/-- The opcode of a byte that may appear in a container; `none` for undefined and legacy bytes. -/
def enabled? (byte : UInt8) : Option Opcode :=
  (ofByte? byte).filter fun op => !op.info.isLegacy

@[simp] theorem ofByte?_byte (op : Opcode) : ofByte? op.byte = some op := by
  simp [ofByte?, op.isDefined]

/-- An opcode is enabled exactly under its own byte and only if it is not a legacy instruction. -/
theorem enabled?_eq_some_iff {byte : UInt8} {op : Opcode} :
    enabled? byte = some op ↔ op.byte = byte ∧ op.info.isLegacy = false := by
  constructor
  · intro h
    obtain ⟨found, live⟩ := Option.filter_eq_some_iff.mp h
    refine ⟨?_, by simpa using live⟩
    unfold ofByte? at found
    split at found
    · exact (congrArg Opcode.byte (Option.some.inj found)).symm
    · cases found
  · rintro ⟨rfl, live⟩
    simp [enabled?, live]

/-! ## Names -/

/-- The name of a defined byte, and a fixed word for all others. -/
def nameOfByte (byte : UInt8) : String :=
  ((ofByte? byte).map (·.info.name)).getD "Unknown"

/-- The name of a defined byte; an undefined one is shown by its value. -/
def labelOfByte (byte : UInt8) : String :=
  match Info.ofByte? byte with
  | some info => info.name
  | none => s!"UNKNOWN(0x{Text.byteUpper byte})"

/-- Every defined opcode, by ascending byte. -/
def all : List Opcode :=
  (List.range 256).filterMap fun n => ofByte? (UInt8.ofNat n)

/-- The opcode with a name, spelled exactly as in the table. -/
def ofName? (name : String) : Option Opcode :=
  all.find? fun op => op.info.name == name

/-- What is said of a name that no opcode has. -/
def unknownNameMessage : String := "invalid opcode"

/-! ## Bytes with a role of their own -/

/-- Stops the execution. -/
def stop : UInt8 := 0x00

/-- Jumps by a signed offset. -/
def rjump : UInt8 := 0x5C

/-- Jumps by a signed offset if the top of the stack is not zero. -/
def rjumpi : UInt8 := 0x5D

/-- Calls a code section. -/
def callf : UInt8 := 0xB0

/-- Returns to the calling code section. -/
def retf : UInt8 := 0xB1

/-- Ends the execution with a result. -/
def returnOp : UInt8 := 0xF3

/-- Ends the execution and undoes its effects. -/
def revert : UInt8 := 0xFD

/-- Aborts the execution. -/
def invalid : UInt8 := 0xFE

/-- Ends the execution and removes the account. -/
def selfdestruct : UInt8 := 0xFF

/-- Tells whether the opcode pushes operand bytes. -/
def isPush (op : Opcode) : Bool :=
  0x60 ≤ op.byte && op.byte ≤ 0x7F

/-- Tells whether the opcode jumps inside its section. -/
def isRelativeJump (op : Opcode) : Bool :=
  op.byte == rjump || op.byte == rjumpi

/-- Tells whether the opcode calls a code section. -/
def isCall (op : Opcode) : Bool :=
  op.byte == callf

/-! ## Entries outside the table -/

/-- An entry for a name; `none` if the name takes as many bytes as its limit or more. -/
def Info.ofName? (name : String) : Option Info :=
  if name.utf8ByteSize < Limits.opcodeName then some (Info.plain name) else none

/-- All fields of an entry on one line. -/
def Info.describe (info : Info) : String :=
  s!"OpCodeInfo \x7b name: {Text.quoted info.name}, inputs: {info.inputs}, " ++
    s!"outputs: {info.outputs}, not_eof: {info.isLegacy}, terminating: {info.isEnding}, " ++
    s!"immediate_size: {info.immediateSize} \x7d"

end Opcode

end EvmObject
