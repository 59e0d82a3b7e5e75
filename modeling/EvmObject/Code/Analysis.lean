import EvmObject.Bisection
import EvmObject.Code.Cursor
import EvmObject.Code.Fault
import EvmObject.Code.JumpTable

/-!
# Analysis of one code section

A section is accepted if every item is whole and enabled, every relative jump stays inside the
section, and the last instruction ends the flow. What is learned on the way is kept: the
instructions, the jump table, the jumps with their targets and the calls. Whether a jump lands on an
instruction and a call names a section is not decided here, since the first needs the whole table
and the second the whole container.
-/

namespace EvmObject.Code

/-! ## Facts of one item -/

/-- An instruction of an accepted section. -/
structure Instruction where
  pc : Nat
  byte : UInt8
  immediateSize : Nat
  deriving DecidableEq, Repr

/-- A relative jump and the offset it leads to. -/
structure Jump where
  pc : Nat
  target : Nat
  deriving DecidableEq, Repr

/-- A call and the section it names. -/
structure Call where
  pc : Nat
  callee : UInt16
  deriving DecidableEq, Repr

/-- The offset is one of the two operand bytes of the call. -/
def Call.covers (call : Call) (offset : Nat) : Bool :=
  offset == call.pc + 1 || offset == call.pc + 2

namespace Item

/-- The signed distance that a relative jump asks for. -/
def offset (item : Item) : Int :=
  (Bytes.readI16? item.immediate).getD 0

/-- Where a relative jump leads: the distance counts from the byte after the item. -/
def target (item : Item) : Int :=
  item.next + item.offset

/-- The item as an instruction. -/
def instruction (item : Item) : Instruction :=
  ⟨item.pc, item.byte, item.immediate.length⟩

end Item

/-! ## The section -/

/-- What is known of an accepted section. -/
structure Analysis where
  instructions : List Instruction
  jumpTable : JumpTable
  jumps : List Jump
  calls : List Call
  deriving DecidableEq, Repr

namespace Analysis

/-- The last instruction of the section. -/
def last? (analysis : Analysis) : Option Instruction :=
  analysis.instructions.getLast?

/-- The call whose operand covers an offset. The calls stand in code order, so bisection finds the
only one that can: the first that does not end before the offset. -/
def callAt? (analysis : Analysis) (offset : Nat) : Option Call :=
  let calls := analysis.calls.toArray
  calls[partitionPoint (fun call => call.pc + 2 < offset) calls]?.filter (·.covers offset)

end Analysis

/-! ## The scan -/

/-- What is gathered from the items up to some offset. -/
structure Scan where
  /-- Cleared for the operands met so far, set for all that follows. -/
  table : JumpTable
  instructions : Array Instruction
  jumps : Array Jump
  calls : Array Call
  /-- The last instruction met ends the flow. -/
  isEnded : Bool

namespace Scan

/-- Nothing is met yet. -/
def start (size : Nat) : Scan := ⟨.full size, #[], #[], #[], false⟩

/-- Notes where the item leads if it is a relative jump, or which section it names if it is a
call. -/
def refer (size : Nat) (scan : Scan) (op : Opcode) (item : Item) : Except Fault Scan :=
  if op.isRelativeJump then
    match Bytes.readI16? item.immediate with
    | none => .error (.truncated op item.pc)
    | some offset =>
      let target := (item.next : Int) + offset
      if target < 0 then .error (.below op item.pc target)
      else if (size : Int) ≤ target then .error (.above op item.pc target)
      else .ok { scan with jumps := scan.jumps.push ⟨item.pc, target.toNat⟩ }
  else if op.isCall then
    match Bytes.readU16? item.immediate with
    | none => .error (.truncated op item.pc)
    | some callee => .ok { scan with calls := scan.calls.push ⟨item.pc, callee⟩ }
  else .ok scan

/-- Meets the next item of a section of `size` bytes. -/
def meet (size : Nat) (scan : Scan) (item : Item) : Except Fault Scan :=
  match item.opcode? with
  | none => .error (.undefined item.byte item.pc)
  | some op =>
    if item.isTruncated then .error (.truncated op item.pc)
    else
      (scan.refer size op item).map fun scan => { scan with
        table := scan.table.clear (item.pc + 1) item.immediate.length
        instructions := scan.instructions.push item.instruction
        isEnded := op.info.isEnding }

/-- What is known once all items are met. -/
def analysis (scan : Scan) : Analysis :=
  ⟨scan.instructions.toList, scan.table, scan.jumps.toList, scan.calls.toList⟩

end Scan

/-- Analyses a section in one pass. The first item that is wrong decides the fault; a section of
sound items still has to end the flow. -/
def analyze (code : Bytes) : Except Fault Analysis := do
  let size := code.length
  let scan ← (items code).foldlM (Scan.meet size) (Scan.start size)
  if scan.isEnded then return scan.analysis else throw .unterminated

end EvmObject.Code
