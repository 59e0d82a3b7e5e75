import Mathlib.Data.List.Nodup
import EvmObject.Proofs.Opcode.Table
import EvmObject.Proofs.Text.Lines

/-!
# Names of opcodes

A name is made of capital letters and digits (`isNameChar_of_mem_name`), so it can be told from what is written
around it. No two opcodes share one, so an opcode is found under its own name (`ofName?_name`).
-/

namespace EvmObject.Opcode

/-! ## How a name looks -/

/-- A capital letter or a digit. -/
def isNameChar (c : Char) : Bool := c.isUpper || c.isDigit

theorem isNameChar_of_mem_name {op : Opcode} {c : Char} (hmem : c ∈ op.info.name.toList) :
    isNameChar c = true := by
  have hall : op.info.name.toList.all isNameChar = true := by
    refine forall_of_table (P := fun _ entry => entry.name.toList.all isNameChar = true) ?_ op
    decide +kernel
  exact List.all_eq_true.mp hall c hmem

theorem isWord_name (op : Opcode) : Text.IsWord op.info.name :=
  Text.isWord_of_forall isNameChar rfl rfl fun _ => isNameChar_of_mem_name

/-- What is written in place of a name is none. -/
theorem ofName?_unknown : ofName? "Unknown" = none := by
  refine List.find?_eq_none.mpr fun op _ hname => ?_
  have hlower : 'n' ∈ op.info.name.toList := by
    rw [beq_iff_eq.mp hname]
    decide
  exact absurd (isNameChar_of_mem_name hlower) (by decide)

/-! ## Different names -/

theorem mem_all (op : Opcode) : op ∈ all := by
  refine List.mem_filterMap.mpr ⟨op.byte.toNat, List.mem_range.mpr op.byte.toNat_lt, ?_⟩
  rw [UInt8.ofNat_toNat, ofByte?_byte]

/-- The characters of a text as one number. -/
def nameCode (name : String) : Nat :=
  name.toList.foldl (fun code c => code * 256 + c.toNat) 0

/-- No name stands twice in the table. Numbers are compared, of which there is one for each name. -/
theorem nodup_names : (all.map (·.info.name)).Nodup := by
  have hcodes : ((all.map (·.info.name)).map nameCode).Nodup := by decide +kernel
  exact List.Nodup.of_map nameCode hcodes

theorem eq_of_name_eq {op other : Opcode} (hname : op.info.name = other.info.name) : op = other :=
  List.inj_on_of_nodup_map nodup_names op.mem_all other.mem_all hname

/-- **An opcode is found under its name.** -/
theorem ofName?_name (op : Opcode) : ofName? op.info.name = some op := by
  have hfound : (ofName? op.info.name).isSome = true :=
    List.find?_isSome.mpr ⟨op, op.mem_all, beq_self_eq_true _⟩
  obtain ⟨found, hfound⟩ := Option.isSome_iff_exists.mp hfound
  have hname := List.find?_some hfound
  rw [hfound, eq_of_name_eq (beq_iff_eq.mp hname)]

end EvmObject.Opcode
