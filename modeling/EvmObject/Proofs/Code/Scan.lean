import EvmObject.Code.Analysis
import EvmObject.Proofs.Code.Tiling
import EvmObject.Proofs.Opcode.Table

/-!
# The scan, item by item

The scan of a section carries a table, three growing lists and a flag from item to item. Here that
state is traded for what the items say on their own: `Item.fault?` is what is wrong with one item
and `Analysis.ofItems` what a list of items amounts to.

* `Scan.meet_eq`: meeting an item is a fault of that item, or adds what the item says.
* `Scan.foldlM_meet`: a whole scan stops at the first faulty item.
* `Scan.analysis_foldl_add`: without a faulty item the scan ends with `Analysis.ofItems`. The table
  is where the state matters: it starts out full, so what stands behind the items met is still set.
* `analyze_eq`: the analysis of a section in these terms.
-/

namespace EvmObject.Code

/-! ## What one item says -/

namespace Item

/-- The item is a relative jump. -/
def isJump (item : Item) : Bool :=
  item.opcode?.any (·.isRelativeJump)

/-- The item ends the flow of its section. -/
def isEnding (item : Item) : Bool :=
  item.opcode?.any (·.info.isEnding)

/-- The item as a jump, if it is one. -/
def jump? (item : Item) : Option Jump :=
  if item.isJump then some ⟨item.pc, item.target.toNat⟩ else none

/-- The item as a call, if it is one. -/
def call? (item : Item) : Option Call :=
  if item.opcode?.any (·.isCall) then
    (Bytes.readU16? item.immediate).map fun callee => ⟨item.pc, callee⟩
  else none

/-- What is wrong with an item of a section of `size` bytes. -/
def fault? (size : Nat) (item : Item) : Option Fault :=
  match item.opcode? with
  | none => some (.undefined item.byte item.pc)
  | some op =>
    if item.isTruncated then some (.truncated op item.pc)
    else if !op.isRelativeJump then none
    else if item.target < 0 then some (.below op item.pc item.target)
    else if (size : Int) ≤ item.target then some (.above op item.pc item.target)
    else none

/-- The bits of an item: its opcode byte, then its operand bytes. -/
def bits (item : Item) : List Bool :=
  true :: List.replicate item.immediate.length false

end Item

/-- What a list of items amounts to. -/
def Analysis.ofItems (items : List Item) : Analysis where
  instructions := items.map Item.instruction
  jumpTable := ⟨(items.flatMap Item.bits).toArray⟩
  jumps := items.filterMap Item.jump?
  calls := items.filterMap Item.call?

/-! ## Operands of two bytes

`RJUMP`, `RJUMPI` and `CALLF` are the opcodes whose operand the scan reads, and the instruction
table gives each of them two bytes. So an item that is not cut has what is read. -/

theorem exists_readU16?_of_length {bytes : Bytes} (hsize : 2 ≤ bytes.length) :
    ∃ value, Bytes.readU16? bytes = some value := by
  match bytes with
  | [] => simp at hsize
  | [_] => simp at hsize
  | hi :: lo :: _ => exact ⟨_, rfl⟩

namespace Item

variable {item : Item} {op : Opcode}

theorem exists_readU16? (hop : item.opcode? = some op) (hwhole : item.isTruncated = false)
    (htwo : op.info.immediateSize = 2) :
    ∃ value, Bytes.readU16? item.immediate = some value := by
  have hisWhole : item.IsWhole := ⟨by rw [hop]; rfl, hwhole⟩
  obtain ⟨op', hop', _, hsize⟩ := hisWhole.exists_opcode
  obtain rfl : op' = op := Option.some.inj (hop'.symm.trans hop)
  exact exists_readU16?_of_length (htwo ▸ hsize)

theorem readI16?_eq_offset (hop : item.opcode? = some op) (hwhole : item.isTruncated = false)
    (hjump : op.isRelativeJump = true) :
    Bytes.readI16? item.immediate = some item.offset := by
  obtain ⟨value, hvalue⟩ :=
    exists_readU16? hop hwhole (Opcode.immediateSize_of_isRelativeJump hjump)
  simp [Item.offset, Bytes.readI16?, hvalue]

end Item

/-! ## One item of the scan -/

namespace Scan

/-- Adds what a sound item says. -/
def add (scan : Scan) (item : Item) : Scan where
  table := scan.table.clear (item.pc + 1) item.immediate.length
  instructions := scan.instructions.push item.instruction
  jumps := (item.jump?.map scan.jumps.push).getD scan.jumps
  calls := (item.call?.map scan.calls.push).getD scan.calls
  isEnded := item.isEnding

/-- **Meeting an item** is a fault of the item, or adds what the item says. -/
theorem meet_eq (size : Nat) (scan : Scan) (item : Item) :
    scan.meet size item =
      match item.fault? size with
      | some fault => .error fault
      | none => .ok (scan.add item) := by
  unfold meet Item.fault?
  cases hop : item.opcode? with
  | none => rfl
  | some op =>
    by_cases htruncated : item.isTruncated = true
    · simp [htruncated]
    · rw [Bool.not_eq_true] at htruncated
      simp only [htruncated, Bool.false_eq_true, if_false]
      by_cases hjump : op.isRelativeJump = true
      · -- a jump is no call, since the two are different bytes
        have hread := Item.readI16?_eq_offset hop htruncated hjump
        have hcall : op.isCall = false := by
          simp only [Opcode.isRelativeJump, Bool.or_eq_true, beq_iff_eq] at hjump
          simp only [Opcode.isCall]
          rcases hjump with hbyte | hbyte <;> rw [hbyte] <;> rfl
        have htarget : (item.next : Int) + item.offset = item.target := rfl
        simp only [refer, hjump, hread, htarget, if_true, Bool.not_true, Bool.false_eq_true,
          if_false]
        by_cases hbelow : item.target < 0
        · simp [hbelow, Except.map]
        · by_cases habove : (size : Int) ≤ item.target
          · simp [hbelow, habove, Except.map]
          · simp [hbelow, habove, Except.map, add, Item.jump?, Item.call?, Item.isJump,
              Item.isEnding, hop, hjump, hcall]
      · rw [Bool.not_eq_true] at hjump
        by_cases hcall : op.isCall = true
        · obtain ⟨callee, hread⟩ :=
            Item.exists_readU16? hop htruncated (Opcode.immediateSize_of_isCall hcall)
          simp [refer, hjump, hcall, hread, Except.map, add, Item.jump?, Item.call?, Item.isJump,
            Item.isEnding, hop]
        · simp [refer, hjump, hcall, Except.map, add, Item.jump?, Item.call?, Item.isJump,
            Item.isEnding, hop]

/-! ## All items of the scan -/

/-- **The scan stops at the first faulty item.** -/
theorem foldlM_meet (size : Nat) (items : List Item) (scan : Scan) :
    items.foldlM (meet size) scan =
      match items.findSome? (Item.fault? size) with
      | some fault => .error fault
      | none => .ok (items.foldl add scan) := by
  induction items generalizing scan with
  | nil => rfl
  | cons item rest ih =>
    rw [List.foldlM_cons, meet_eq, List.findSome?_cons, List.foldl_cons]
    cases hfault : item.fault? size with
    | some fault => rfl
    | none => exact ih _

theorem isEnded_foldl_add (items : List Item) (scan : Scan) :
    (items.foldl add scan).isEnded = (items.getLast?.map Item.isEnding).getD scan.isEnded := by
  induction items generalizing scan with
  | nil => rfl
  | cons item rest ih =>
    rw [List.foldl_cons, ih, List.getLast?_cons]
    cases rest.getLast? <;> rfl

theorem instructions_foldl_add (items : List Item) (scan : Scan) :
    (items.foldl add scan).instructions.toList =
      scan.instructions.toList ++ items.map Item.instruction := by
  induction items generalizing scan with
  | nil => simp
  | cons item rest ih => simp [ih, add]

theorem jumps_foldl_add (items : List Item) (scan : Scan) :
    (items.foldl add scan).jumps.toList = scan.jumps.toList ++ items.filterMap Item.jump? := by
  induction items generalizing scan with
  | nil => simp
  | cons item rest ih =>
    rw [List.foldl_cons, ih]
    cases hjump : item.jump? <;> simp [add, hjump]

theorem calls_foldl_add (items : List Item) (scan : Scan) :
    (items.foldl add scan).calls.toList = scan.calls.toList ++ items.filterMap Item.call? := by
  induction items generalizing scan with
  | nil => simp
  | cons item rest ih =>
    rw [List.foldl_cons, ih]
    cases hcall : item.call? <;> simp [add, hcall]

end Scan

/-! ## The table of the scan -/

/-- Clearing right behind the bits that are settled settles as many more. -/
theorem JumpTable.toList_clear (table : JumpTable) (settled : List Bool) (count left : Nat)
    (hbits : table.bits.toList = settled ++ List.replicate (count + left) true) :
    (table.clear settled.length count).bits.toList =
      settled ++ List.replicate count false ++ List.replicate left true := by
  induction count generalizing table settled with
  | zero => simpa [clear] using hbits
  | succ count ih =>
    have hset : (table.bits.setIfInBounds settled.length false).toList =
        (settled ++ [false]) ++ List.replicate (count + left) true := by
      rw [Array.toList_setIfInBounds, hbits, show count + 1 + left = (count + left) + 1 by omega,
        List.replicate_succ, List.set_append_right _ _ (Nat.le_refl _)]
      simp
    have hnext := ih ⟨table.bits.setIfInBounds settled.length false⟩ (settled ++ [false]) hset
    rw [List.length_append, List.length_singleton] at hnext
    rw [clear, hnext, List.replicate_succ]
    simp

namespace Scan

/-- **The table behind the items met is still full.** The invariant of the scan: the bits up to the
offset that is reached are settled, and all bits of the code ahead are set. -/
theorem table_foldl_add {pc : Nat} {code : Bytes} {split : List Item}
    (htiled : Tiled pc code split) (scan : Scan) (settled : List Bool)
    (hpc : settled.length = pc)
    (hbits : scan.table.bits.toList = settled ++ List.replicate code.length true) :
    (split.foldl add scan).table.bits.toList = settled ++ split.flatMap Item.bits := by
  induction htiled generalizing scan settled with
  | nil pc => simpa using hbits
  | cons pc op operand rest split _ _ _ ih =>
    have hahead : scan.table.bits.toList =
        (settled ++ [true]) ++ List.replicate (operand.length + rest.length) true := by
      rw [hbits, List.length_cons, List.length_append, List.replicate_succ]
      simp
    have hclear := JumpTable.toList_clear scan.table (settled ++ [true]) operand.length rest.length
      hahead
    rw [List.length_append, List.length_singleton, hpc] at hclear
    have htail := ih (scan.add ⟨pc, op.byte, operand⟩)
      (settled ++ Item.bits ⟨pc, op.byte, operand⟩)
      (by simp [Item.bits, hpc]; omega)
      (by simpa [add, Item.bits] using hclear)
    rw [List.foldl_cons, htail, List.flatMap_cons, List.append_assoc]

/-- **What a scan ends with.** -/
theorem analysis_foldl_add {code : Bytes} {split : List Item} (htiled : Tiled 0 code split) :
    (split.foldl add (start code.length)).analysis = Analysis.ofItems split := by
  have htable := table_foldl_add htiled (start code.length) [] rfl
    (by simp [start, JumpTable.full])
  have hbits : (split.foldl add (start code.length)).table =
      ⟨(split.flatMap Item.bits).toArray⟩ := by
    rw [JumpTable.mk.injEq]
    exact Array.toList_inj.mp htable
  rw [analysis, instructions_foldl_add, jumps_foldl_add, calls_foldl_add, hbits]
  rfl

end Scan

/-! ## The analysis of a section -/

theorem Item.isWhole_of_fault?_eq_none {size : Nat} {item : Item}
    (hsound : item.fault? size = none) : item.IsWhole := by
  unfold fault? at hsound
  cases hop : item.opcode? with
  | none => simp [hop] at hsound
  | some op =>
    refine ⟨by rw [hop]; rfl, ?_⟩
    cases htruncated : item.isTruncated with
    | false => rfl
    | true => simp [hop, htruncated] at hsound

/-- **The analysis in terms of items.** The first faulty item decides; sound items still have to end
the flow. -/
theorem analyze_eq (code : Bytes) :
    analyze code =
      match (items code).findSome? (Item.fault? code.length) with
      | some fault => .error fault
      | none =>
        if (items code).getLast?.any Item.isEnding then .ok (Analysis.ofItems (items code))
        else .error .unterminated := by
  simp only [analyze, Scan.foldlM_meet]
  cases hfault : (items code).findSome? (Item.fault? code.length) with
  | some fault => rfl
  | none =>
    have htiled : Tiled 0 code (items code) := tiled_items fun item hmem =>
      Item.isWhole_of_fault?_eq_none (List.findSome?_eq_none_iff.mp hfault item hmem)
    have hended : ((items code).foldl Scan.add (Scan.start code.length)).isEnded =
        (items code).getLast?.any Item.isEnding := by
      rw [Scan.isEnded_foldl_add]
      cases (items code).getLast? <;> rfl
    simp only [bind, Except.bind, hended, Scan.analysis_foldl_add htiled]
    split <;> rfl

/-- **The split behind an analysis.** An accepted section is split into sound instructions, the last
of which ends the flow, and its analysis is what they amount to. -/
theorem analyze_eq_ok_iff_split {code : Bytes} {analysis : Analysis} :
    analyze code = .ok analysis ↔
      ∃ split, Tiled 0 code split ∧ (∀ item ∈ split, item.fault? code.length = none) ∧
        split.getLast?.any Item.isEnding = true ∧ analysis = Analysis.ofItems split := by
  rw [analyze_eq]
  constructor
  · intro hok
    cases hfault : (items code).findSome? (Item.fault? code.length) with
    | some fault => simp [hfault] at hok
    | none =>
      have hsound := List.findSome?_eq_none_iff.mp hfault
      simp only [hfault] at hok
      split at hok
      · next hended =>
        exact ⟨items code,
          tiled_items fun item hmem => Item.isWhole_of_fault?_eq_none (hsound item hmem),
          hsound, hended, (Except.ok.inj hok).symm⟩
      · cases hok
  · rintro ⟨split, htiled, hsound, hended, rfl⟩
    obtain rfl : items code = split := htiled.items_eq
    simp [List.findSome?_eq_none_iff.mpr hsound, hended]

end EvmObject.Code
