import EvmObject.Proofs.Code.Scan

/-!
# Which sections are accepted

`WellFormed code split` and `Analysis.Describes` say, without the scan, which code sections are in
order and what is to be known of them. Both speak of a split of the code into instructions, of the
bytes of an opcode and its operand, and of numbers; neither mentions the walk, the table of the scan
or its flag. `analyze_exact` is the main result: the analysis accepts exactly the well-formed
sections, and what it answers is exactly what describes them.

On the way, `Tiled.getElem?_bits` is what makes a jump table exact: bit by bit, only the offsets
where instructions stand are set.
-/

namespace EvmObject.Code

/-! ## The statement -/

namespace Item

/-- The byte of a relative jump, with or without a condition. -/
def HasJumpByte (item : Item) : Prop :=
  item.byte = Opcode.rjump ∨ item.byte = Opcode.rjumpi

instance (item : Item) : Decidable item.HasJumpByte :=
  inferInstanceAs (Decidable (item.byte = Opcode.rjump ∨ item.byte = Opcode.rjumpi))

/-- The number that sixteen operand bits write in two's complement, high byte first. -/
def distance (item : Item) : Int :=
  let value := Bytes.toNat item.immediate
  if value < 0x8000 then value else (value : Int) - 0x10000

/-- The offset behind the operand, moved by the operand. -/
def landing (item : Item) : Int :=
  (item.pc + 1 + item.immediate.length : Nat) + item.distance

end Item

/-- A section is in order on its own, as `split` shows. -/
structure WellFormed (code : Bytes) (split : List Item) : Prop where
  nonempty : code ≠ []
  /-- The code is enabled opcodes, each with exactly the operand bytes it asks for. -/
  tiled : Tiled 0 code split
  /-- Relative jumps stay inside the section. -/
  inside : ∀ item ∈ split, item.HasJumpByte → 0 ≤ item.landing ∧ item.landing < code.length
  /-- The last instruction ends the flow. -/
  ending : ∃ last op, split.getLast? = some last ∧ last.opcode? = some op ∧ op.info.isEnding = true

/-- What is known of a section is what `split` shows. -/
structure Analysis.Describes (analysis : Analysis) (code : Bytes) (split : List Item) : Prop where
  instructions : analysis.instructions =
    split.map fun item => ⟨item.pc, item.byte, item.immediate.length⟩
  size : analysis.jumpTable.size = code.length
  /-- A jump may land exactly where an instruction stands; never past the end. -/
  isValid : ∀ offset, analysis.jumpTable.isValid offset = true ↔ ∃ item ∈ split, item.pc = offset
  jumps : analysis.jumps =
    (split.filter fun item => item.HasJumpByte).map fun item => ⟨item.pc, item.landing.toNat⟩
  calls : analysis.calls = (split.filter fun item => item.byte = Opcode.callf).map fun item =>
    ⟨item.pc, UInt16.ofNat (Bytes.toNat item.immediate)⟩

/-! ## Operands as numbers -/

theorem toNat_of_two (hi lo : UInt8) : Bytes.toNat [hi, lo] = hi.toNat * 256 + lo.toNat := by
  simp [Bytes.toNat]

theorem readU16?_of_length {bytes : Bytes} (htwo : bytes.length = 2) :
    Bytes.readU16? bytes = some (UInt16.ofNat (Bytes.toNat bytes)) := by
  match bytes with
  | [hi, lo] => rw [toNat_of_two]; rfl

theorem toNat_lt_of_length {bytes : Bytes} (htwo : bytes.length = 2) :
    Bytes.toNat bytes < 0x10000 := by
  match bytes with
  | [hi, lo] =>
    rw [toNat_of_two]
    have hhi := hi.toNat_lt
    have hlo := lo.toNat_lt
    omega

/-- The operand of a jump, as it is read, is the number that its two bytes write. -/
theorem Item.offset_eq_distance {item : Item} (htwo : item.immediate.length = 2) :
    item.offset = item.distance := by
  have hbound := toNat_lt_of_length htwo
  have hnat : (UInt16.ofNat (Bytes.toNat item.immediate)).toBitVec.toNat =
      Bytes.toNat item.immediate := by
    rw [UInt16.toNat_toBitVec, UInt16.toNat_ofNat', Nat.mod_eq_of_lt hbound]
  simp only [Item.offset, Bytes.readI16?, readU16?_of_length htwo, Option.map_some,
    Option.getD_some, Bytes.signed, BitVec.toInt_eq_toNat_cond, hnat, Item.distance]
  split <;> split <;> omega

theorem Item.target_eq_landing {item : Item} (htwo : item.immediate.length = 2) :
    item.target = item.landing := by
  rw [Item.target, Item.landing, Item.offset_eq_distance htwo, Item.next]

/-! ## Faults, by the bytes -/

/-- What is wrong with an enabled item that has no more operand bytes than its opcode asks for. The
operand of a jump is read only if it is there. -/
theorem Item.fault?_eq_of_opcode {item : Item} {op : Opcode} (hop : item.opcode? = some op)
    (hle : item.immediate.length ≤ op.info.immediateSize) (size : Nat) :
    item.fault? size =
      if item.isTruncated = true then some (.truncated op item.pc)
      else if ¬ item.HasJumpByte then none
      else if item.landing < 0 then some (.below op item.pc item.landing)
      else if (size : Int) ≤ item.landing then some (.above op item.pc item.landing)
      else none := by
  have hjump : op.isRelativeJump = true ↔ item.HasJumpByte := by
    have hbyte : op.byte = item.byte := (Opcode.enabled?_eq_some_iff.mp hop).1
    rw [Opcode.isRelativeJump, hbyte, Bool.or_eq_true, beq_iff_eq, beq_iff_eq, HasJumpByte]
  cases htruncated : item.isTruncated with
  | true => simp only [fault?, hop, htruncated, if_true]
  | false =>
    by_cases hbytes : item.HasJumpByte
    · have htwo : item.immediate.length = 2 := by
        have hsize := Opcode.immediateSize_of_isRelativeJump (hjump.mpr hbytes)
        simp only [isTruncated, declaredSize, immediateSize_of_enabled hop,
          decide_eq_false_iff_not] at htruncated
        omega
      simp only [fault?, hop, htruncated, hjump.mpr hbytes, hbytes, target_eq_landing htwo,
        Bool.false_eq_true, Bool.not_true, not_true_eq_false, if_false]
    · have hother : op.isRelativeJump = false := by
        rw [← Bool.not_eq_true, hjump]
        exact hbytes
      simp only [fault?, hop, htruncated, hother, hbytes, Bool.false_eq_true, Bool.not_false,
        not_false_eq_true, if_false, if_true]

/-! ## Items of a split, by their bytes -/

section
variable {pc : Nat} {code : Bytes} {split : List Item} {item : Item}
  (htiled : Tiled pc code split) (hmem : item ∈ split)
include htiled hmem

theorem Tiled.isJump_iff : item.isJump = true ↔ item.HasJumpByte := by
  obtain ⟨op, hop, hbyte, _⟩ := htiled.exists_opcode hmem
  simp only [Item.isJump, hop, Option.any_some, Opcode.isRelativeJump, hbyte, Bool.or_eq_true,
    beq_iff_eq, Item.HasJumpByte]

theorem Tiled.length_of_hasJumpByte (hjump : item.HasJumpByte) : item.immediate.length = 2 := by
  obtain ⟨op, _, hbyte, hsize⟩ := htiled.exists_opcode hmem
  rw [hsize]
  apply Opcode.immediateSize_of_isRelativeJump
  rw [Opcode.isRelativeJump, hbyte, Bool.or_eq_true, beq_iff_eq, beq_iff_eq]
  exact hjump

theorem Tiled.length_of_callf (hcall : item.byte = Opcode.callf) : item.immediate.length = 2 := by
  obtain ⟨op, _, hbyte, hsize⟩ := htiled.exists_opcode hmem
  rw [hsize]
  apply Opcode.immediateSize_of_isCall
  rw [Opcode.isCall, hbyte, hcall]
  rfl

/-- An instruction of a split is at fault only if it is a jump that leaves the section. -/
theorem Tiled.fault?_eq_none_iff (size : Nat) :
    item.fault? size = none ↔
      (item.HasJumpByte → 0 ≤ item.landing ∧ item.landing < size) := by
  obtain ⟨op, hop, _, hsize⟩ := htiled.exists_opcode hmem
  have hwhole : item.isTruncated = false := by
    simp [Item.isTruncated, Item.declaredSize, immediateSize_of_enabled hop, hsize]
  rw [Item.fault?_eq_of_opcode hop (Nat.le_of_eq hsize), hwhole, if_neg Bool.false_ne_true]
  by_cases hbytes : item.HasJumpByte
  · rw [if_neg (not_not_intro hbytes)]
    simp only [hbytes, true_implies]
    split
    · simp only [reduceCtorEq, false_iff, not_and, Int.not_lt]
      omega
    · split
      · simp only [reduceCtorEq, false_iff, not_and, Int.not_lt]
        omega
      · simp only [true_iff]
        omega
  · simp [hbytes]

theorem Tiled.jump?_eq :
    item.jump? = if item.HasJumpByte then some ⟨item.pc, item.landing.toNat⟩ else none := by
  by_cases hbytes : item.HasJumpByte
  · have htarget := Item.target_eq_landing (htiled.length_of_hasJumpByte hmem hbytes)
    rw [Item.jump?, if_pos ((htiled.isJump_iff hmem).mpr hbytes), if_pos hbytes, htarget]
  · rw [Item.jump?, if_neg fun h => hbytes ((htiled.isJump_iff hmem).mp h), if_neg hbytes]

theorem Tiled.call?_eq :
    item.call? = if item.byte = Opcode.callf then
      some ⟨item.pc, UInt16.ofNat (Bytes.toNat item.immediate)⟩ else none := by
  obtain ⟨op, hop, hbyte, _⟩ := htiled.exists_opcode hmem
  have hcall : op.isCall = true ↔ item.byte = Opcode.callf := by
    rw [Opcode.isCall, hbyte, beq_iff_eq]
  by_cases hbytes : item.byte = Opcode.callf
  · rw [Item.call?, hop, Option.any_some, if_pos (hcall.mpr hbytes), if_pos hbytes,
      readU16?_of_length (htiled.length_of_callf hmem hbytes), Option.map_some]
  · rw [Item.call?, hop, Option.any_some, if_neg fun h => hbytes (hcall.mp h), if_neg hbytes]

end

/-! ## The table, bit by bit -/

/-- **Only the offsets of instructions are set.** -/
theorem Tiled.getElem?_bits {pc : Nat} {code : Bytes} {split : List Item}
    (htiled : Tiled pc code split) (offset : Nat) :
    (split.flatMap Item.bits)[offset]? = some true ↔ ∃ item ∈ split, item.pc = pc + offset := by
  induction htiled generalizing offset with
  | nil => simp
  | cons pc op operand rest split _ _ hrest ih =>
    rw [List.flatMap_cons, Item.bits, List.cons_append]
    cases offset with
    | zero => simp
    | succ offset =>
      have hhead : ¬ pc = pc + (offset + 1) := by omega
      simp only [List.getElem?_cons_succ, List.mem_cons, exists_eq_or_imp, hhead, false_or]
      by_cases hinside : offset < operand.length
      · -- the bit of an operand byte, and all items behind stand further on
        rw [List.getElem?_append_left (by simpa using hinside), List.getElem?_replicate]
        simp only [hinside, if_true, Option.some.injEq, Bool.false_eq_true, false_iff, not_exists,
          not_and]
        intro item hmem hpc
        have := (hrest.bounds hmem).1
        omega
      · rw [List.getElem?_append_right (by simpa using hinside), List.length_replicate, ih,
          show pc + 1 + operand.length + (offset - operand.length) = pc + (offset + 1) by omega]

theorem JumpTable.isValid_iff (table : JumpTable) (offset : Nat) :
    table.isValid offset = true ↔ table.bits.toList[offset]? = some true := by
  rw [isValid, Array.getD_eq_getD_getElem?, Array.getElem?_toList]
  cases table.bits[offset]? <;> simp

/-- Tables of one size that agree on every offset are one table. -/
theorem JumpTable.eq_of_isValid {left right : JumpTable} (hsize : left.size = right.size)
    (hvalid : ∀ offset, left.isValid offset = true ↔ right.isValid offset = true) :
    left = right := by
  obtain ⟨leftBits⟩ := left
  obtain ⟨rightBits⟩ := right
  rw [JumpTable.mk.injEq]
  apply Array.ext hsize
  intro offset hleft hright
  have hbit := hvalid offset
  simp only [isValid, Array.getD, hleft, hright, dif_pos] at hbit
  exact Bool.eq_iff_iff.mpr hbit

theorem Tiled.length_bits {pc : Nat} {code : Bytes} {split : List Item}
    (htiled : Tiled pc code split) : (split.flatMap Item.bits).length = code.length := by
  induction htiled with
  | nil => rfl
  | cons pc op operand rest split _ _ _ ih => simp [Item.bits, ih]

/-! ## What a split amounts to -/

theorem filterMap_eq_map_filter {α β : Type} {f : α → Option β} {p : α → Prop} [DecidablePred p]
    {g : α → β} {xs : List α} (hf : ∀ x ∈ xs, f x = if p x then some (g x) else none) :
    xs.filterMap f = (xs.filter fun x => p x).map g := by
  induction xs with
  | nil => rfl
  | cons x xs ih =>
    have hrest := ih fun y hmem => hf y (List.mem_cons_of_mem _ hmem)
    by_cases hx : p x <;> simp [hf x List.mem_cons_self, hx, hrest]

/-- What the instructions of a split amount to describes the section. -/
theorem Tiled.describes_ofItems {code : Bytes} {split : List Item} (htiled : Tiled 0 code split) :
    (Analysis.ofItems split).Describes code split where
  instructions := rfl
  size := htiled.length_bits
  isValid offset := by
    rw [JumpTable.isValid_iff]
    simpa [Analysis.ofItems] using htiled.getElem?_bits offset
  jumps := filterMap_eq_map_filter fun _ hmem => htiled.jump?_eq hmem
  calls := filterMap_eq_map_filter fun _ hmem => htiled.call?_eq hmem

/-- A section has only one description. -/
theorem Analysis.Describes.eq {left right : Analysis} {code : Bytes} {split : List Item}
    (hleft : left.Describes code split) (hright : right.Describes code split) : left = right := by
  have htable : left.jumpTable = right.jumpTable :=
    JumpTable.eq_of_isValid (hleft.size.trans hright.size.symm)
      fun offset => (hleft.isValid offset).trans (hright.isValid offset).symm
  obtain ⟨_, _, _, _⟩ := left
  obtain ⟨_, _, _, _⟩ := right
  rw [Analysis.mk.injEq]
  exact ⟨hleft.instructions.trans hright.instructions.symm, htable,
    hleft.jumps.trans hright.jumps.symm, hleft.calls.trans hright.calls.symm⟩

/-- The conditions under which the scan accepts are those of a well-formed section. -/
theorem wellFormed_iff {code : Bytes} {split : List Item} :
    WellFormed code split ↔
      Tiled 0 code split ∧ (∀ item ∈ split, item.fault? code.length = none) ∧
        split.getLast?.any Item.isEnding = true := by
  have hending : split.getLast?.any Item.isEnding = true ↔
      ∃ last op, split.getLast? = some last ∧ last.opcode? = some op ∧
        op.info.isEnding = true := by
    simp only [Option.any_eq_true, Item.isEnding]
    constructor
    · rintro ⟨last, hlast, op, hop, hends⟩
      exact ⟨last, op, hlast, hop, hends⟩
    · rintro ⟨last, op, hlast, hop, hends⟩
      exact ⟨last, hlast, op, hop, hends⟩
  constructor
  · intro hwell
    exact ⟨hwell.tiled,
      fun item hmem => (hwell.tiled.fault?_eq_none_iff hmem _).mpr (hwell.inside item hmem),
      hending.mpr hwell.ending⟩
  · rintro ⟨htiled, hsound, hends⟩
    refine ⟨?_, htiled, fun item hmem => (htiled.fault?_eq_none_iff hmem _).mp (hsound item hmem),
      hending.mp hends⟩
    -- empty code has no last instruction
    rintro rfl
    cases htiled
    simp at hends

/-! ## The analysis is exact -/

/-- A section has an analysis exactly if a split shows that it is well-formed and describes it. -/
theorem analyze_eq_ok_iff {code : Bytes} {analysis : Analysis} :
    analyze code = .ok analysis ↔
      ∃ split, WellFormed code split ∧ analysis.Describes code split := by
  rw [analyze_eq_ok_iff_split]
  constructor
  · rintro ⟨split, htiled, hsound, hends, rfl⟩
    exact ⟨split, wellFormed_iff.mpr ⟨htiled, hsound, hends⟩, htiled.describes_ofItems⟩
  · rintro ⟨split, hwell, hdescribes⟩
    obtain ⟨htiled, hsound, hends⟩ := wellFormed_iff.mp hwell
    exact ⟨split, htiled, hsound, hends, hdescribes.eq htiled.describes_ofItems⟩

/-- **The analysis accepts exactly the well-formed sections, and what it answers is exact.** A
section is accepted if and only if it is not empty and splits into enabled opcodes with their whole
operands, of which the relative jumps stay inside and the last ends the flow. The answer is then the
one description of that split: its instructions in order, the table of their offsets, its relative
jumps with their targets and its calls with the sections they name. -/
theorem analyze_exact (code : Bytes) :
    ((∃ analysis, analyze code = .ok analysis) ↔ ∃ split, WellFormed code split) ∧
      ∀ analysis, analyze code = .ok analysis ↔
        ∃ split, WellFormed code split ∧ analysis.Describes code split := by
  refine ⟨⟨?_, ?_⟩, fun analysis => analyze_eq_ok_iff⟩
  · rintro ⟨analysis, hok⟩
    obtain ⟨split, hwell, _⟩ := analyze_eq_ok_iff.mp hok
    exact ⟨split, hwell⟩
  · rintro ⟨split, hwell⟩
    exact ⟨_, analyze_eq_ok_iff.mpr ⟨split, hwell, hwell.tiled.describes_ofItems⟩⟩

end EvmObject.Code
