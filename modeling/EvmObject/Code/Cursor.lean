import EvmObject.Bytes.BigEndian
import EvmObject.Opcode.Basic

/-!
# Walking a code section

A `Cursor` stands at an opcode byte. One step reads an `Item`: the byte and the operand bytes that
the instruction table asks for, or as many as are left. Undefined and legacy bytes are items without
operand, so a walk never gets stuck and whoever walks decides what to do about them.
Main statements: `Cursor.items_cons`, the first item and the items behind it, and
`flatMap_bytes_items`, the bytes of the items are the bytes of the code.
-/

namespace EvmObject.Code

/-- One instruction as it stands in the code. -/
structure Item where
  /-- Offset of the opcode byte. -/
  pc : Nat
  /-- The opcode byte, defined or not. -/
  byte : UInt8
  /-- The operand bytes, fewer than declared if the code ends early. -/
  immediate : Bytes
  deriving DecidableEq, Repr

namespace Item

/-- The opcode, if the byte is enabled in containers. -/
def opcode? (item : Item) : Option Opcode :=
  Opcode.enabled? item.byte

/-- Number of operand bytes that a byte asks for; none for a byte that is not enabled. -/
def immediateSize (byte : UInt8) : Nat :=
  ((Opcode.enabled? byte).map (·.info.immediateSize)).getD 0

/-- Number of operand bytes that the item should have. -/
def declaredSize (item : Item) : Nat :=
  immediateSize item.byte

/-- The code ends inside the operand. -/
def isTruncated (item : Item) : Bool :=
  item.immediate.length < item.declaredSize

/-- Offset of the byte after the item. -/
def next (item : Item) : Nat :=
  item.pc + 1 + item.immediate.length

/-- The bytes of the item. -/
def bytes (item : Item) : Bytes :=
  item.byte :: item.immediate

end Item

/-- The item that starts with `byte` at `pc` when `rest` follows the byte. -/
def Item.read (pc : Nat) (byte : UInt8) (rest : Bytes) : Item :=
  ⟨pc, byte, rest.take (immediateSize byte)⟩

/-- A position in a code section: the offset and what stands from there on. -/
structure Cursor where
  pc : Nat
  rest : Bytes
  deriving DecidableEq, Repr

namespace Cursor

/-- Stands at the first byte. -/
def start (code : Bytes) : Cursor := ⟨0, code⟩

/-- Stands behind the item that starts with `byte` at `pc`. -/
def behind (pc : Nat) (byte : UInt8) (rest : Bytes) : Cursor :=
  ⟨(Item.read pc byte rest).next, rest.drop (Item.immediateSize byte)⟩

/-- Reads the item at the cursor and moves behind it; `none` at the end. -/
def next? : Cursor → Option (Item × Cursor)
  | ⟨_, []⟩ => none
  | ⟨pc, byte :: rest⟩ => some (Item.read pc byte rest, behind pc byte rest)

/-- At least this many items are left. -/
def atLeast (cursor : Cursor) : Nat := min cursor.rest.length 1

/-- At most this many items are left. -/
def atMost (cursor : Cursor) : Nat := cursor.rest.length

theorem length_behind_le (pc : Nat) (byte : UInt8) (rest : Bytes) :
    (behind pc byte rest).rest.length ≤ rest.length := by
  simp [behind]

/-- Adds the steps from the cursor to the end to those done before, which stand last first. -/
def stepsOnto (cursor : Cursor) (done : List (Item × Cursor)) : List (Item × Cursor) :=
  match cursor with
  | ⟨_, []⟩ => done.reverse
  | ⟨pc, byte :: rest⟩ =>
    stepsOnto (behind pc byte rest) ((Item.read pc byte rest, behind pc byte rest) :: done)
termination_by cursor.rest.length
decreasing_by exact Nat.lt_succ_of_le (length_behind_le ..)

/-- All steps to the end: each item with the cursor behind it. -/
def steps (cursor : Cursor) : List (Item × Cursor) :=
  cursor.stepsOnto []

theorem stepsOnto_eq (cursor : Cursor) (done : List (Item × Cursor)) :
    cursor.stepsOnto done = done.reverse ++ cursor.steps := by
  match cursor with
  | ⟨_, []⟩ => simp [steps, stepsOnto]
  | ⟨pc, byte :: rest⟩ =>
    have apart := stepsOnto_eq (behind pc byte rest)
    rw [steps, stepsOnto, stepsOnto, apart, apart]
    simp
termination_by cursor.rest.length
decreasing_by exact Nat.lt_succ_of_le (length_behind_le ..)

@[simp] theorem steps_nil (pc : Nat) : steps ⟨pc, []⟩ = [] := by
  simp [steps, stepsOnto]

theorem steps_cons (pc : Nat) (byte : UInt8) (rest : Bytes) :
    steps ⟨pc, byte :: rest⟩ =
      (Item.read pc byte rest, behind pc byte rest) :: (behind pc byte rest).steps := by
  rw [steps, stepsOnto, stepsOnto_eq]
  simp

/-- The items from the cursor to the end. -/
def items (cursor : Cursor) : List Item :=
  cursor.steps.map (·.1)

@[simp] theorem items_nil (pc : Nat) : items ⟨pc, []⟩ = [] := by
  simp [items]

/-- The first item, then the items behind it. -/
theorem items_cons (pc : Nat) (byte : UInt8) (rest : Bytes) :
    items ⟨pc, byte :: rest⟩ = Item.read pc byte rest :: (behind pc byte rest).items := by
  simp [items, steps_cons]

/-- The items lose no byte and add none. -/
theorem flatMap_bytes_items (cursor : Cursor) :
    cursor.items.flatMap Item.bytes = cursor.rest := by
  match cursor with
  | ⟨_, []⟩ => simp
  | ⟨pc, byte :: rest⟩ =>
    have tail := flatMap_bytes_items (behind pc byte rest)
    rw [items_cons, List.flatMap_cons, tail]
    simp [Item.bytes, Item.read, behind]
termination_by cursor.rest.length
decreasing_by exact Nat.lt_succ_of_le (length_behind_le ..)

end Cursor

/-- The items of a code section, in order. -/
def items (code : Bytes) : List Item :=
  (Cursor.start code).items

/-- The bytes of the items, one after the other, are the code. -/
theorem flatMap_bytes_items (code : Bytes) : (items code).flatMap Item.bytes = code :=
  Cursor.flatMap_bytes_items _

end EvmObject.Code
