import EvmObject.Proofs.Code.Scan
import EvmObject.Proofs.Container.Checked
import EvmObject.Proofs.Container.Layout
import EvmObject.Proofs.Validation.Stages

/-!
# Validation, checked

Validation with everything asked for that it takes for granted, and the proof that none of it is
ever missing, whatever the bytes and the settings. The scan of a section slices the operand of every
item and clears its range of the table, and reads the operands of jumps and calls; the stages around
it compare two sizes and slice the code. Each of these holds because of what an earlier part has
found: the walk stays inside the section, an item that is not cut off has its operand, and a body
that was read has consistent ends.

`validation_never_lapses` is the statement for all inputs.
-/

namespace EvmObject

/-! ## The scan of a section -/

namespace Code

/-- Where an item ends and what is left behind it, in sum, is where the code ends. -/
theorem Cursor.end_behind (pc : Nat) (byte : UInt8) (rest : Bytes) :
    (Item.read pc byte rest).next + (behind pc byte rest).rest.length =
      pc + (byte :: rest).length := by
  simp only [behind, Item.read, Item.next, List.length_take, List.length_drop, List.length_cons]
  omega

namespace JumpTable

/-- Takes a range of offsets away, if the table has it. -/
def clearRange? (table : JumpTable) (start stop : Nat) : Option JumpTable :=
  if start ≤ stop ∧ stop ≤ table.size then some (table.clear start (stop - start)) else none

theorem size_clear (table : JumpTable) (start count : Nat) :
    (table.clear start count).size = table.size := by
  induction count generalizing table start with
  | zero => rfl
  | succ count ih =>
    rw [clear, ih]
    exact Array.size_setIfInBounds

end JumpTable

namespace Scan

/-- Notes where the item leads or which section it names. -/
def referChecked (size : Nat) (scan : Scan) (op : Opcode) (item : Item) : Checked Fault Scan :=
  if op.isRelativeJump then do
    let offset ← Checked.get .operand (Bytes.readI16? item.immediate)
    let target := (item.next : Int) + offset
    if target < 0 then .refuse (.below op item.pc target)
    else if (size : Int) ≤ target then .refuse (.above op item.pc target)
    else return { scan with jumps := scan.jumps.push ⟨item.pc, target.toNat⟩ }
  else if op.isCall then do
    let callee ← Checked.get .operand (Bytes.readU16? item.immediate)
    return { scan with calls := scan.calls.push ⟨item.pc, callee⟩ }
  else return scan

/-- Meets the next item: clears the range of its operand, then looks at what it refers to. -/
def meetChecked (size : Nat) (scan : Scan) (item : Item) : Checked Fault Scan :=
  match item.opcode? with
  | none => .refuse (.undefined item.byte item.pc)
  | some op =>
    if item.isTruncated then .refuse (.truncated op item.pc)
    else do
      let table ← Checked.get .tableRange (scan.table.clearRange? (item.pc + 1) item.next)
      let scan ← referChecked size { scan with table } op item
      return { scan with
        instructions := scan.instructions.push item.instruction
        isEnded := op.info.isEnding }

section
variable {size : Nat} {scan : Scan} {op : Opcode} {item : Item}

/-- An operand that is not cut off is there. -/
theorem referChecked_eq (hop : item.opcode? = some op) (hwhole : item.isTruncated = false) :
    referChecked size scan op item = .ofExcept (refer size scan op item) := by
  unfold referChecked refer
  by_cases hjump : op.isRelativeJump = true
  · rw [if_pos hjump, if_pos hjump, Item.readI16?_eq_offset hop hwhole hjump]
    simp only [Checked.get, ok_bind]
    split
    · rfl
    · split <;> rfl
  · rw [if_neg hjump, if_neg hjump]
    by_cases hcall : op.isCall = true
    · obtain ⟨callee, hread⟩ :=
        Item.exists_readU16? hop hwhole (Opcode.immediateSize_of_isCall hcall)
      rw [if_pos hcall, if_pos hcall, hread]
      rfl
    · rw [if_neg hcall, if_neg hcall]
      rfl

/-- What an item refers to has nothing to do with the table. -/
theorem refer_table (table : JumpTable) :
    refer size { scan with table } op item =
      (refer size scan op item).map fun scan => { scan with table } := by
  unfold refer
  by_cases hjump : op.isRelativeJump = true
  · rw [if_pos hjump, if_pos hjump]
    cases Bytes.readI16? item.immediate with
    | none => rfl
    | some offset =>
      simp only
      split
      · rfl
      · split <;> rfl
  · rw [if_neg hjump, if_neg hjump]
    by_cases hcall : op.isCall = true
    · rw [if_pos hcall, if_pos hcall]
      cases Bytes.readU16? item.immediate <;> rfl
    · rw [if_neg hcall, if_neg hcall]
      rfl

theorem table_of_refer {noted : Scan} (hrefer : refer size scan op item = .ok noted) :
    noted.table = scan.table := by
  have hsame : refer size scan op item =
      (refer size scan op item).map fun noted => { noted with table := scan.table } :=
    refer_table scan.table
  rw [hrefer] at hsame
  have hnoted : noted = { noted with table := scan.table } := Except.ok.inj hsame
  have htable := congrArg Scan.table hnoted
  exact htable

/-- **An item inside the table is met without looking.** -/
theorem meetChecked_eq (hinside : item.next ≤ scan.table.size) :
    scan.meetChecked size item = .ofExcept (scan.meet size item) := by
  unfold meetChecked meet
  cases hop : item.opcode? with
  | none => rfl
  | some op =>
    cases hwhole : item.isTruncated with
    | true => rfl
    | false =>
      have hrange : scan.table.clearRange? (item.pc + 1) item.next =
          some (scan.table.clear (item.pc + 1) item.immediate.length) := by
        unfold JumpTable.clearRange?
        rw [if_pos ⟨Nat.le_add_right _ _, hinside⟩, Item.next, Nat.add_sub_cancel_left]
      simp only [Bool.false_eq_true, if_false, hrange]
      -- the table may be cleared before or after the references are noted
      show (referChecked size { scan with table := _ } op item >>= _) = _
      rw [referChecked_eq hop hwhole, refer_table]
      cases hrefer : scan.refer size op item with
      | error fault => rfl
      | ok noted =>
        have htable : noted.table = scan.table := table_of_refer hrefer
        simp only [Except.map, Checked.ofExcept, mapError_ok, ok_bind, htable]
        rfl

/-- The table keeps its size. -/
theorem size_table_of_meet {after : Scan} (hmeet : scan.meet size item = .ok after) :
    after.table.size = scan.table.size := by
  rw [meet_eq] at hmeet
  cases hfault : item.fault? size with
  | some fault =>
    rw [hfault] at hmeet
    cases hmeet
  | none =>
    rw [hfault] at hmeet
    rw [← Except.ok.inj hmeet]
    exact JumpTable.size_clear _ _ _

end

/-- Meets the items from the cursor to the end. The operand of each is a slice of what is left. -/
def walkChecked (size : Nat) (scan : Scan) (cursor : Cursor) : Checked Fault Scan :=
  match cursor with
  | ⟨_, []⟩ => return scan
  | ⟨pc, byte :: rest⟩ => do
    let immediate ← Checked.slice rest 0 (min (Item.immediateSize byte) rest.length)
    let after ← scan.meetChecked size ⟨pc, byte, immediate⟩
    after.walkChecked size (.behind pc byte rest)
termination_by cursor.rest.length
decreasing_by exact Nat.lt_succ_of_le (Cursor.length_behind_le ..)

/-- **A walk that ends with the table is met without looking,** since the table keeps its size. -/
theorem walkChecked_eq {size : Nat} {scan : Scan} {cursor : Cursor}
    (hinside : cursor.pc + cursor.rest.length ≤ scan.table.size) :
    scan.walkChecked size cursor = .ofExcept (cursor.items.foldlM (meet size) scan) := by
  match cursor with
  | ⟨pc, []⟩ =>
    rw [walkChecked, Cursor.items_nil]
    rfl
  | ⟨pc, byte :: rest⟩ =>
    have hend := Cursor.end_behind pc byte rest
    have hslice : (Checked.slice rest 0 (min (Item.immediateSize byte) rest.length) :
        Checked Fault Bytes) = .ok (rest.take (Item.immediateSize byte)) := by
      rw [Checked.slice_of_le (Nat.zero_le _) (Nat.min_le_right ..), Nat.sub_zero, List.drop_zero,
        ← List.take_eq_take_min]
    have hitem : (Item.read pc byte rest).next ≤ scan.table.size :=
      Nat.le_trans (Nat.le_of_add_right_le (Nat.le_of_eq hend)) hinside
    rw [walkChecked, hslice, Cursor.items_cons, List.foldlM_cons, Checked.ofExcept_bind, ok_bind]
    show (scan.meetChecked size (Item.read pc byte rest) >>= _) = _
    rw [meetChecked_eq hitem]
    cases hmeet : scan.meet size (Item.read pc byte rest) with
    | error fault => rfl
    | ok after =>
      refine walkChecked_eq ?_
      rw [size_table_of_meet hmeet]
      exact Nat.le_trans (Nat.le_of_eq hend) hinside
termination_by cursor.rest.length
decreasing_by exact Nat.lt_succ_of_le (Cursor.length_behind_le ..)

end Scan

/-- Analyses a section. -/
def analyzeChecked (code : Bytes) : Checked Fault Analysis := do
  let size := code.length
  let scan ← (Scan.start size).walkChecked size (.start code)
  if scan.isEnded then return scan.analysis else .refuse .unterminated

/-- **The analysis takes nothing for granted that is not there,** whatever the code. -/
theorem analyzeChecked_eq (code : Bytes) : analyzeChecked code = .ofExcept (analyze code) := by
  have hinside : (Cursor.start code).pc + (Cursor.start code).rest.length ≤
      (Scan.start code.length).table.size := by
    have hsize : (Scan.start code.length).table.size = code.length := Array.size_replicate
    exact Nat.le_of_eq ((Nat.zero_add _).trans hsize.symm)
  unfold analyzeChecked analyze
  simp only
  rw [Scan.walkChecked_eq hinside, Checked.ofExcept_bind]
  congr 1
  funext scan
  split <;> rfl

end Code

/-! ## The stages -/

namespace Validation

/-- Slices a section out of the code of a body and analyses it. -/
def analyzeSectionChecked (body : Container.Body) (index : Nat) :
    Checked CodeRejection Code.Analysis := do
  let section? ← Checked.ofAttempt .slice (body.read index)
  let code ← Checked.get .codeSection section?
  (Code.analyzeChecked code).mapCause (.section index)

/-- Analyses every section by its index, then checks the references between them. -/
def validateCodeChecked (body : Container.Body) : Checked CodeRejection (List Code.Analysis) := do
  let analyses ← (List.range body.codeCount).mapM (analyzeSectionChecked body)
  Checked.ofExcept ((Code.checkReferences analyses).mapError .reference)
  return analyses

/-- Reads a container and validates it. -/
def validateChecked (config : Config) (raw : Bytes) : Checked Rejection Validated := do
  let size := raw.length
  if !config.allowsSize size then throw (.refused (.tooLarge size))
  let preamble ← (Container.Preamble.readChecked raw).mapCause .header
  if !config.allowsVersion preamble.version then throw (.refused (.version preamble.version))
  let header ← Checked.ofExcept
    ((Container.Header.ofDescriptors preamble.version preamble.descriptors).mapError .layout)
  if preamble.size ≠ header.size then throw (.lapsed .preambleSize)
  let body ← (Container.Body.decodeChecked raw header).mapCause .body
  let analyses ← (validateCodeChecked body).mapCause .code
  return ⟨⟨header, body, raw⟩, analyses⟩

section
variable {body : Container.Body} (hconsistent : body.Consistent)
include hconsistent

theorem keeps_analyzeSectionChecked {index : Nat} (hindex : index < body.codeCount) :
    Keeps (analyzeSectionChecked body index) (analyzeSection (body.slice? index) index) := by
  have hbound : index < body.codes.length := body.length_codes.symm ▸ hindex
  unfold analyzeSectionChecked analyzeSection
  rw [hconsistent.read_eq, hconsistent.slice?_eq, List.getElem?_eq_getElem hbound]
  show Keeps ((Code.analyzeChecked body.codes[index]).mapCause (CodeRejection.section index)) _
  rw [Code.analyzeChecked_eq, Checked.mapCause_ofExcept]
  exact .mapError _ _

omit hconsistent in
/-- Counting the sections is going through them. -/
theorem zipIdx_sections :
    body.sections.zipIdx =
      (List.range body.codeCount).map fun index => (body.slice? index, index) := by
  apply List.ext_getElem?
  intro index
  rw [List.getElem?_zipIdx, List.getElem?_map]
  rcases Nat.lt_or_ge index body.codeCount with hindex | hpast
  · rw [Container.Body.getElem?_sections hindex, List.getElem?_range hindex]
    simp
  · rw [List.getElem?_eq_none (Container.Body.length_sections body ▸ hpast),
      List.getElem?_eq_none (List.length_range ▸ hpast)]
    rfl

theorem keeps_validateCodeChecked : Keeps (validateCodeChecked body) (validateCode body) := by
  have hsections : Keeps ((List.range body.codeCount).mapM (analyzeSectionChecked body))
      (analyzeSections body) := by
    unfold analyzeSections
    rw [zipIdx_sections, List.mapM_map]
    exact .mapM fun index hmem =>
      keeps_analyzeSectionChecked hconsistent (List.mem_range.mp hmem)
  unfold validateCodeChecked validateCode
  refine hsections.bind fun analyses _ => ?_
  exact (Keeps.mapError _ _).bind fun _ _ => .ok _

end

theorem keeps_validateChecked (config : Config) (raw : Bytes) :
    Keeps (validateChecked config raw) (validate config raw) := by
  unfold validateChecked validate
  simp only [throw_eq_error, error_bind]
  refine .ite (fun _ => .refuse _) fun _ => ?_
  rw [← Attempt.mapCause_ofExcept]
  refine ((Container.Preamble.keeps_readChecked raw).mapCause _).bind fun preamble hpreamble => ?_
  refine .ite (fun _ => .refuse _) fun _ => ?_
  refine (Keeps.mapError _ _).bind fun header hheader => ?_
  -- the preamble and the header were read together, so the two sizes are one
  have hdecode : Container.Header.decode raw = .ok (header, preamble.size) := by
    have hread := Attempt.ofExcept_eq_ok_iff.mp (Attempt.mapCause_eq_ok_iff.mp hpreamble)
    have hlayout := mapError_eq_ok_iff.mp hheader
    exact bind_eq_ok_iff.mpr ⟨preamble, hread, bind_eq_ok_iff.mpr ⟨header, hlayout, rfl⟩⟩
  obtain ⟨hproper, hsize, _⟩ := Container.Header.decode_eq_ok_iff.mp hdecode
  rw [if_neg (not_not_intro hsize), if_neg (not_not_intro hsize)]
  refine ((Container.Body.keeps_decodeChecked hproper raw).mapCause _).bind fun body hbody => ?_
  have hcontainer : Container.decode raw = .ok ⟨header, body, raw⟩ :=
    Container.decode_eq_ok_iff.mpr ⟨⟨_, hdecode⟩, Attempt.mapCause_eq_ok_iff.mp hbody, rfl⟩
  have hconsistent := Container.consistent_of_decode hcontainer
  exact ((keeps_validateCodeChecked hconsistent).mapCause _).bind fun analyses _ => .ok _

/-- **Reading and validating never take anything that is not there.** Let every step that takes
something ask for it first: for the slices of the bytes and of the code, for the first signature,
for the ranges of the jump table, for the operands of jumps and calls, for the sections, for whole
signatures, and for a header as long as its preamble. Whatever the bytes and the settings, nothing
of this is ever missing, and the answer is the one that is given without asking. So there always is
an answer. -/
theorem validation_never_lapses (config : Config) (raw : Bytes) :
    (Keeps (Container.decodeChecked raw) (Container.decode raw) ∧
        Container.decode raw ≠ .error .crashed) ∧
      Keeps (validateChecked config raw) (validate config raw) ∧
        validate config raw ≠ .error .crashed := by
  have hdecode := Container.keeps_decodeChecked raw
  have hvalidate := keeps_validateChecked config raw
  exact ⟨⟨hdecode, hdecode.ne_crashed⟩, hvalidate, hvalidate.ne_crashed⟩

end Validation

end EvmObject
