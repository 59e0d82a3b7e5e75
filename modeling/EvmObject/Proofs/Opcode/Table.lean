import EvmObject.Opcode.Basic

/-!
# What the instruction table says

Facts that hold by looking through the table. Of the control transfers: `RJUMP`, `RJUMPI` and
`CALLF` have two operand bytes, and an opcode that ends the flow of a section is one after which no
execution falls through. Of the others: an operand fits in a word, and how many words the families
of stack moves take and leave. `Opcode.forall_of_table` is the way to look: it reduces a statement
about every opcode to one that is decided byte by byte.
-/

namespace EvmObject.Opcode

/-- The table's entry under the byte of an opcode. -/
theorem ofByte?_eq_info (op : Opcode) : Info.ofByte? op.byte = some op.info := by
  simp [info]

/-- **A look through the table.** What holds of each of its entries holds of every opcode. -/
theorem forall_of_table {P : UInt8 → Info → Prop}
    (htable : ∀ n : Fin 256, ∀ entry ∈ Info.ofByte? (UInt8.ofNat n), P (UInt8.ofNat n) entry)
    (op : Opcode) : P op.byte op.info := by
  have hentry := htable ⟨op.byte.toNat, op.byte.toNat_lt⟩ op.info
  rw [UInt8.ofNat_toNat] at hentry
  exact hentry op.ofByte?_eq_info

/-- An opcode that reads its operand as a jump offset has an operand of two bytes. -/
theorem immediateSize_of_isRelativeJump {op : Opcode} (hjump : op.isRelativeJump = true) :
    op.info.immediateSize = 2 := by
  refine forall_of_table (P := fun byte entry =>
    (byte == rjump || byte == rjumpi) = true → entry.immediateSize = 2) ?_ op hjump
  decide +kernel

/-- An opcode that reads its operand as a section index has an operand of two bytes. -/
theorem immediateSize_of_isCall {op : Opcode} (hcall : op.isCall = true) :
    op.info.immediateSize = 2 := by
  refine forall_of_table (P := fun byte entry =>
    (byte == callf) = true → entry.immediateSize = 2) ?_ op hcall
  decide +kernel

/-- An opcode that ends the flow is one that leaves its section or the execution, or jumps in any
case. -/
theorem byte_of_isEnding {op : Opcode} (hending : op.info.isEnding = true) :
    op.byte = stop ∨ op.byte = invalid ∨ op.byte = retf ∨ op.byte = rjump ∨ op.byte = returnOp ∨
      op.byte = revert ∨ op.byte = selfdestruct := by
  refine forall_of_table (P := fun byte entry => entry.isEnding = true →
    byte = stop ∨ byte = invalid ∨ byte = retf ∨ byte = rjump ∨ byte = returnOp ∨ byte = revert ∨
      byte = selfdestruct) ?_ op hending
  decide +kernel

/-- Neither a call nor a branch ends the flow. -/
theorem isEnding_ne_of_byte {op : Opcode} (hbyte : op.byte = callf ∨ op.byte = rjumpi) :
    op.info.isEnding ≠ true := by
  intro hends
  have hbytes := byte_of_isEnding hends
  rcases hbyte with hcall | hbranch
  · rw [hcall] at hbytes
    exact absurd hbytes (by decide)
  · rw [hbranch] at hbytes
    exact absurd hbytes (by decide)

/-! ## Operands and words -/

/-- Operands fit in a word. -/
theorem immediateSize_le (op : Opcode) : op.info.immediateSize ≤ Limits.wordBytes := by
  refine forall_of_table (P := fun _ entry => entry.immediateSize ≤ Limits.wordBytes) ?_ op
  decide +kernel

/-- No instruction takes more words than a byte counts. -/
theorem inputs_lt (op : Opcode) : op.info.inputs < 256 := by
  refine forall_of_table (P := fun _ entry => entry.inputs < 256) ?_ op
  decide +kernel

/-- A push, also that of no bytes, leaves one word. -/
theorem words_of_push {op : Opcode} (hpush : 0x5F ≤ op.byte ∧ op.byte ≤ 0x7F) :
    op.info.inputs = 0 ∧ op.info.outputs = 1 := by
  refine forall_of_table (P := fun byte entry =>
    0x5F ≤ byte ∧ byte ≤ 0x7F → entry.inputs = 0 ∧ entry.outputs = 1) ?_ op hpush
  decide +kernel

/-- The `n`-th duplication takes `n` words and leaves one more. -/
theorem words_of_dup {op : Opcode} (hdup : 0x80 ≤ op.byte ∧ op.byte ≤ 0x8F) :
    op.byte.toNat - 0x7F ≠ 0 ∧ op.info.inputs = op.byte.toNat - 0x7F ∧
      op.info.outputs = op.byte.toNat - 0x7F + 1 := by
  refine forall_of_table (P := fun byte entry => 0x80 ≤ byte ∧ byte ≤ 0x8F →
    byte.toNat - 0x7F ≠ 0 ∧ entry.inputs = byte.toNat - 0x7F ∧
      entry.outputs = byte.toNat - 0x7F + 1) ?_ op hdup
  decide +kernel

/-- The `n`-th exchange takes the `n` words above another and this one, and leaves as many. -/
theorem words_of_swap {op : Opcode} (hswap : 0x90 ≤ op.byte ∧ op.byte ≤ 0x9F) :
    op.byte.toNat - 0x8F ≠ 0 ∧ op.info.inputs = op.byte.toNat - 0x8F + 1 ∧
      op.info.outputs = op.byte.toNat - 0x8F + 1 := by
  refine forall_of_table (P := fun byte entry => 0x90 ≤ byte ∧ byte ≤ 0x9F →
    byte.toNat - 0x8F ≠ 0 ∧ entry.inputs = byte.toNat - 0x8F + 1 ∧
      entry.outputs = byte.toNat - 0x8F + 1) ?_ op hswap
  decide +kernel

/-- The entry of an opcode is the one under its byte. -/
theorem info_eq_of_byte {op : Opcode} {byte : UInt8} {entry : Info} (hbyte : op.byte = byte)
    (hentry : Info.ofByte? byte = some entry) : op.info = entry := by
  subst hbyte
  exact Option.some.inj (op.ofByte?_eq_info.symm.trans hentry)

end EvmObject.Opcode
