import EvmObject.Code.Cursor

/-!
# Code as consecutive instructions

`Tiled pc code split` says, without any walk, that `code` is the instructions of `split` one behind
the other, the first at offset `pc`: each an enabled opcode byte and exactly the operand bytes that
the instruction table asks for. The walk over items is tied to it both ways:

* `Tiled.items_eq`: a split, if there is one, is what the walk finds;
* `tiled_items`: the walk over code without a cut or disabled item finds a split.

The rest reads off a split where its instructions stand: `Tiled.code_eq` cuts the code around one of
them, and `Tiled.next_mem` names the one behind it.
-/

namespace EvmObject.Code

/-! ## Splits -/

/-- The bytes of `code`, which start at offset `pc`, are the instructions of `split`. -/
inductive Tiled : Nat → Bytes → List Item → Prop where
  | nil (pc : Nat) : Tiled pc [] []
  | cons (pc : Nat) (op : Opcode) (operand rest : Bytes) (split : List Item)
      (henabled : Opcode.enabled? op.byte = some op)
      (hsize : operand.length = op.info.immediateSize)
      (hrest : Tiled (pc + 1 + operand.length) rest split) :
      Tiled pc (op.byte :: (operand ++ rest)) (⟨pc, op.byte, operand⟩ :: split)

namespace Item

/-- The item is an instruction: its byte is enabled and no operand byte is missing. -/
def IsWhole (item : Item) : Prop :=
  item.opcode?.isSome = true ∧ item.isTruncated = false

/-- The opcode of a whole item, which has just the operand bytes that the opcode asks for or, where
the items do not come from a walk, more. -/
theorem IsWhole.exists_opcode {item : Item} (hwhole : item.IsWhole) :
    ∃ op, item.opcode? = some op ∧ op.byte = item.byte ∧
      op.info.immediateSize ≤ item.immediate.length := by
  obtain ⟨op, hop⟩ := Option.isSome_iff_exists.mp hwhole.1
  refine ⟨op, hop, (Opcode.enabled?_eq_some_iff.mp hop).1, ?_⟩
  have htruncated := hwhole.2
  have hop' : Opcode.enabled? item.byte = some op := hop
  simp only [isTruncated, declaredSize, immediateSize, hop', Option.map_some, Option.getD_some,
    decide_eq_false_iff_not, Nat.not_lt] at htruncated
  exact htruncated

end Item

theorem immediateSize_of_enabled {byte : UInt8} {op : Opcode}
    (henabled : Opcode.enabled? byte = some op) :
    Item.immediateSize byte = op.info.immediateSize := by
  simp [Item.immediateSize, henabled]

/-! ## The walk finds the split -/

/-- **A split is what the walk finds.** At each opcode byte the walk takes as many operand bytes as
the split has, and goes on where the next instruction stands. -/
theorem Tiled.items_eq {pc : Nat} {code : Bytes} {split : List Item}
    (htiled : Tiled pc code split) : (Cursor.mk pc code).items = split := by
  induction htiled with
  | nil pc => exact Cursor.items_nil pc
  | cons pc op operand rest split henabled hsize _ ih =>
    have himm : Item.immediateSize op.byte = operand.length := by
      rw [immediateSize_of_enabled henabled, hsize]
    have hread : Item.read pc op.byte (operand ++ rest) = ⟨pc, op.byte, operand⟩ := by
      simp [Item.read, himm]
    have hbehind : Cursor.behind pc op.byte (operand ++ rest) =
        ⟨pc + 1 + operand.length, rest⟩ := by
      simp [Cursor.behind, hread, himm, Item.next]
    rw [Cursor.items_cons, hread, hbehind, ih]

/-- **Whole items are a split.** The walk over the rest is shorter, so the recursion is on what is
left of the code. -/
theorem Cursor.tiled_items (cursor : Cursor) (hwhole : ∀ item ∈ cursor.items, item.IsWhole) :
    Tiled cursor.pc cursor.rest cursor.items := by
  match cursor with
  | ⟨pc, []⟩ =>
    rw [Cursor.items_nil]
    exact .nil pc
  | ⟨pc, byte :: rest⟩ =>
    rw [Cursor.items_cons] at hwhole ⊢
    have htail := Cursor.tiled_items (behind pc byte rest)
      fun item hmem => hwhole item (List.mem_cons_of_mem _ hmem)
    obtain ⟨op, hop, hbyte, hsize⟩ := (hwhole _ List.mem_cons_self).exists_opcode
    change op.byte = byte at hbyte
    subst hbyte
    have himm : Item.immediateSize op.byte = op.info.immediateSize := immediateSize_of_enabled hop
    simp only [Item.read, himm] at hsize
    -- the operand is neither cut nor longer than declared, so the walk goes on right behind it
    have hlen : (rest.take op.info.immediateSize).length = op.info.immediateSize := by
      simp only [List.length_take] at hsize ⊢
      omega
    have hcode := List.take_append_drop op.info.immediateSize rest
    simp only [behind, Item.read, himm, Item.next] at htail ⊢
    have := Tiled.cons pc op (rest.take op.info.immediateSize) _ _ hop hlen htail
    rwa [hcode] at this
termination_by cursor.rest.length
decreasing_by exact Nat.lt_succ_of_le (length_behind_le ..)

/-- Code without a cut or disabled item is split by the walk. -/
theorem tiled_items {code : Bytes} (hwhole : ∀ item ∈ items code, item.IsWhole) :
    Tiled 0 code (items code) :=
  Cursor.tiled_items (Cursor.start code) hwhole

/-! ## Where the instructions stand -/

section
variable {pc : Nat} {code : Bytes} {split : List Item} (htiled : Tiled pc code split)
include htiled

/-- Each item of a split has an opcode and exactly the operand bytes that the opcode asks for. -/
theorem Tiled.exists_opcode {item : Item} (hmem : item ∈ split) :
    ∃ op, item.opcode? = some op ∧ op.byte = item.byte ∧
      item.immediate.length = op.info.immediateSize := by
  induction htiled with
  | nil => simp at hmem
  | cons pc op operand rest split henabled hsize _ ih =>
    rcases List.mem_cons.mp hmem with rfl | hmem
    · exact ⟨op, henabled, rfl, hsize⟩
    · exact ih hmem

/-- **The code around an instruction.** -/
theorem Tiled.code_eq {item : Item} (hmem : item ∈ split) :
    ∃ before after, code = before ++ item.bytes ++ after ∧ pc + before.length = item.pc := by
  induction htiled with
  | nil => simp at hmem
  | cons pc op operand rest split _ _ _ ih =>
    rcases List.mem_cons.mp hmem with rfl | hmem
    · exact ⟨[], rest, by simp [Item.bytes], by simp⟩
    · obtain ⟨before, after, hcode, hpc⟩ := ih hmem
      refine ⟨op.byte :: (operand ++ before), after, by simp [hcode], ?_⟩
      simp only [List.length_cons, List.length_append]
      omega

/-- An instruction lies within the code. -/
theorem Tiled.bounds {item : Item} (hmem : item ∈ split) :
    pc ≤ item.pc ∧ item.next ≤ pc + code.length := by
  obtain ⟨before, after, rfl, hpc⟩ := htiled.code_eq hmem
  simp only [Item.next, Item.bytes, List.length_append, List.length_cons]
  omega

/-- Code that is not empty has an instruction at its start. -/
theorem Tiled.exists_start (hne : code ≠ []) : ∃ item ∈ split, item.pc = pc := by
  cases htiled with
  | nil => exact absurd rfl hne
  | cons op operand rest split _ _ _ => exact ⟨_, List.mem_cons_self, rfl⟩

/-- **Behind an instruction stands the next,** unless it is the last. -/
theorem Tiled.next_mem {item : Item} (hmem : item ∈ split) :
    split.getLast? = some item ∨ ∃ follower ∈ split, follower.pc = item.next := by
  induction htiled with
  | nil => simp at hmem
  | cons pc op operand rest split _ _ hrest ih =>
    rcases List.mem_cons.mp hmem with rfl | hmem
    · cases hrest with
      | nil => exact .inl rfl
      | cons => exact .inr ⟨_, List.mem_cons_of_mem _ List.mem_cons_self, rfl⟩
    · rcases ih hmem with hlast | ⟨follower, hfollower, hpc⟩
      · refine .inl ?_
        rw [List.getLast?_cons, hlast]
        rfl
      · exact .inr ⟨follower, List.mem_cons_of_mem _ hfollower, hpc⟩

end

end EvmObject.Code
