import EvmObject.Proofs.Logged
import EvmObject.Proofs.Validation.Checked

/-!
# The trail of a refusal

Validation once more, with its words where they are said: before each stop, or on the way out of a
stage that has failed. Three of its stops come without a word. An operand may be missing where a
jump is resolved or a called section is read, and a section may be missing where it is analysed.
None of them is ever taken, since an item that is not cut off has its operand and a body that was
read has its sections. So each stage comes to what the stage without words comes to, and the words
are the records of its refusal: `validateLogged_eq`.
-/

namespace EvmObject

open Logged (told told_bind)

/-! ## The scan of a section -/

namespace Code

namespace Fault

/-- Stops, with a record of the fault. -/
def raise {α : Type} (fault : Fault) : Logged Error α :=
  Logged.refuse fault.record fault.error

/-- The records that a fault leaves. -/
def records (fault : Fault) : List Log.Record := [fault.record]

end Fault

namespace Scan

/-- Notes where the item leads or which section it names. There is no word on a missing operand. -/
def referLogged (size : Nat) (scan : Scan) (op : Opcode) (item : Item) : Logged Error Scan :=
  if op.isRelativeJump then do
    let offset ← .get .truncatedImmediate (Bytes.readI16? item.immediate)
    let target := (item.next : Int) + offset
    if target < 0 then Fault.raise (.below op item.pc target)
    else if (size : Int) ≤ target then Fault.raise (.above op item.pc target)
    else return { scan with jumps := scan.jumps.push ⟨item.pc, target.toNat⟩ }
  else if op.isCall then do
    let callee ← .get .truncatedImmediate (Bytes.readU16? item.immediate)
    return { scan with calls := scan.calls.push ⟨item.pc, callee⟩ }
  else return scan

/-- Meets the next item. -/
def meetLogged (size : Nat) (scan : Scan) (item : Item) : Logged Error Scan :=
  match item.opcode? with
  | none => Fault.raise (.undefined item.byte item.pc)
  | some op =>
    if item.isTruncated then Fault.raise (.truncated op item.pc)
    else do
      let scan ← scan.referLogged size op item
      return { scan with
        table := scan.table.clear (item.pc + 1) item.immediate.length
        instructions := scan.instructions.push item.instruction
        isEnded := op.info.isEnding }

section
variable {size : Nat} {scan : Scan} {op : Opcode} {item : Item}

/-- **An operand that is not cut off is there,** so the stops without a word are not taken. -/
theorem referLogged_eq (hop : item.opcode? = some op) (hwhole : item.isTruncated = false) :
    scan.referLogged size op item =
      told Fault.error Fault.records (.ofExcept (scan.refer size op item)) := by
  unfold referLogged refer
  by_cases hjump : op.isRelativeJump = true
  · rw [if_pos hjump, if_pos hjump, Item.readI16?_eq_offset hop hwhole hjump, Logged.get,
      pure_bind]
    dsimp only
    split
    · rfl
    · split <;> rfl
  · rw [if_neg hjump, if_neg hjump]
    by_cases hcall : op.isCall = true
    · obtain ⟨callee, hread⟩ :=
        Item.exists_readU16? hop hwhole (Opcode.immediateSize_of_isCall hcall)
      rw [if_pos hcall, if_pos hcall, hread]
      rfl
    · rw [if_neg hcall, if_neg hcall]
      rfl

theorem meetLogged_eq (size : Nat) (scan : Scan) (item : Item) :
    scan.meetLogged size item =
      told Fault.error Fault.records (.ofExcept (scan.meet size item)) := by
  unfold meetLogged meet
  cases hop : item.opcode? with
  | none => rfl
  | some op =>
    cases hwhole : item.isTruncated with
    | true => rfl
    | false =>
      simp only [Bool.false_eq_true, if_false]
      rw [referLogged_eq hop hwhole]
      cases scan.refer size op item <;> rfl

end

end Scan

/-- Analyses a section. -/
def analyzeLogged (code : Bytes) : Logged Error Analysis := do
  let size := code.length
  let scan ← (items code).foldlM (Scan.meetLogged size) (Scan.start size)
  if scan.isEnded then return scan.analysis else Fault.raise .unterminated

/-- **The analysis leaves one record of its fault,** and none if the section is accepted. -/
theorem analyzeLogged_eq (code : Bytes) :
    analyzeLogged code = told Fault.error Fault.records (.ofExcept (analyze code)) := by
  unfold analyzeLogged analyze
  simp only
  rw [Logged.told_foldlM (Scan.meetLogged_eq code.length), Attempt.ofExcept_bind,
    Attempt.ofExcept_foldlM]
  refine told_bind fun scan _ => ?_
  split <;> rfl

/-! ## References -/

/-- Stops, with a record of the fault. -/
def ReferenceFault.raise {α : Type} (fault : ReferenceFault) : Logged Error α :=
  Logged.refuse fault.record fault.error

/-- The records that a fault leaves. -/
def ReferenceFault.records (fault : ReferenceFault) : List Log.Record := [fault.record]

/-- Checks the calls of a section and then its jumps. -/
def Analysis.checkLogged (count index : Nat) (analysis : Analysis) : Logged Error PUnit := do
  forM analysis.calls fun call =>
    if count ≤ call.callee.toNat then
      ReferenceFault.raise (.missingCallee index call.pc call.callee)
    else return
  forM analysis.jumps fun jump =>
    if analysis.jumpTable.isValid jump.target then return
    else ReferenceFault.raise <|
      .insideInstruction index jump.pc jump.target (analysis.callAt? jump.target).isSome

/-- Checks the references of all sections. -/
def checkReferencesLogged (analyses : List Analysis) : Logged Error PUnit :=
  forM analyses.zipIdx fun (analysis, index) => analysis.checkLogged analyses.length index

/-- The first member that is bad is the first for which there is a cause. -/
theorem findSome?_eq_map_find? {α β : Type} {isBad : α → Bool} {cause : α → β} (xs : List α) :
    xs.findSome? (fun x => if isBad x then some (cause x) else none) =
      (xs.find? isBad).map cause := by
  rw [List.find?_eq_findSome?_guard, List.map_findSome?]
  refine congrArg (List.findSome? · xs) (funext fun x => ?_)
  cases hbad : isBad x <;> simp [Option.guard, hbad]

theorem Analysis.checkLogged_eq (count index : Nat) (analysis : Analysis) :
    analysis.checkLogged count index =
      told ReferenceFault.error ReferenceFault.records
        (Logged.refuseFor (analysis.referenceFault? count index)) := by
  have hcalls : (forM analysis.calls fun call =>
      if count ≤ call.callee.toNat then
        ReferenceFault.raise (.missingCallee index call.pc call.callee)
      else return) = told ReferenceFault.error ReferenceFault.records (Logged.refuseFor <|
        (analysis.calls.find? fun call => count ≤ call.callee.toNat).map fun call =>
          .missingCallee index call.pc call.callee) := by
    rw [← findSome?_eq_map_find?]
    refine Logged.told_forM fun call _ => ?_
    by_cases hmissing : count ≤ call.callee.toNat
    · rw [if_pos hmissing, if_pos (decide_eq_true hmissing)]
      rfl
    · rw [if_neg hmissing, decide_eq_false hmissing]
      rfl
  have hjumps : (forM analysis.jumps fun jump =>
      if analysis.jumpTable.isValid jump.target then return
      else ReferenceFault.raise <| .insideInstruction index jump.pc jump.target
        (analysis.callAt? jump.target).isSome) =
      told ReferenceFault.error ReferenceFault.records (Logged.refuseFor <|
        (analysis.jumps.find? fun jump => !analysis.jumpTable.isValid jump.target).map fun jump =>
          .insideInstruction index jump.pc jump.target
            (analysis.callAt? jump.target).isSome) := by
    rw [← findSome?_eq_map_find?]
    refine Logged.told_forM fun jump _ => ?_
    cases analysis.jumpTable.isValid jump.target <;> rfl
  unfold checkLogged referenceFault?
  rw [hcalls, hjumps]
  -- the jumps are checked only if all calls are sound
  dsimp only
  split
  · next call hfound => rw [hfound]; rfl
  · next hnone => rw [hnone]; rfl

theorem checkReferencesLogged_eq (analyses : List Analysis) :
    checkReferencesLogged analyses =
      told ReferenceFault.error ReferenceFault.records
        (.ofExcept (checkReferences analyses)) := by
  have hmembers : checkReferencesLogged analyses = told ReferenceFault.error ReferenceFault.records
      (Logged.refuseFor (analyses.zipIdx.findSome? fun (analysis, index) =>
        analysis.referenceFault? analyses.length index)) :=
    Logged.told_forM fun (analysis, index) _ => analysis.checkLogged_eq analyses.length index
  rw [hmembers, checkReferences]
  dsimp only
  split
  · next fault hfound => rw [hfound]; rfl
  · next hnone => rw [hnone]; rfl

end Code

/-! ## The stages -/

namespace Validation

open Container (Body Header Preamble)

/-- Analyses a section. There is no word on a missing one. -/
def analyzeSectionLogged (body : Body) (index : Nat) : Logged Code.Error Code.Analysis := do
  let code ← .get .invalidSectionId (body.slice? index)
  (Code.analyzeLogged code).note fun error =>
    .debug s!"code section {index} is invalid: {error.message}"

/-- Analyses every section by its index, then checks the references between them. -/
def validateCodeLogged (body : Body) : Logged Code.Error (List Code.Analysis) := do
  let analyses ← (List.range body.codeCount).mapM (analyzeSectionLogged body)
  Code.checkReferencesLogged analyses
  return analyses

/-- A stage that reads the container, with a word on the way out if it fails. -/
def readLogged {α : Type} (part : String) (attempt : Attempt Container.Error α) : Logged Error α :=
  ((Logged.silent attempt).note fun error => .debug s!"invalid {part}: {error.message}").mapError
    .container

/-- Reads a container and validates it. -/
def validateLogged (config : Config) (raw : Bytes) : Logged Error Validated := do
  let size := raw.length
  if !config.allowsSize size then
    Logged.refuse (.debug s!"container of {size} bytes is over the size limit")
      (.container .containerTooLarge)
  let preamble ← readLogged "header" (.ofExcept (Preamble.read raw))
  if !config.allowsVersion preamble.version then
    Logged.refuse (.debug s!"version {preamble.version} is not accepted")
      (.container .invalidVersion)
  let header ← readLogged "section layout"
    (.ofExcept (Header.ofDescriptors preamble.version preamble.descriptors))
  if preamble.size ≠ header.size then Logged.silent (.error .crashed)
  let body ← readLogged "body" (Body.decode raw header)
  let analyses ← (validateCodeLogged body).mapError .code
  return ⟨⟨header, body, raw⟩, analyses⟩

section
variable {body : Body} (hconsistent : body.Consistent)
include hconsistent

/-- **A section of a body that was read is there,** so the stop without a word is not taken. -/
theorem analyzeSectionLogged_eq {index : Nat} (hindex : index < body.codeCount) :
    analyzeSectionLogged body index = told CodeRejection.error CodeRejection.records
      (analyzeSection (body.slice? index) index) := by
  have hbound : index < body.codes.length := body.length_codes.symm ▸ hindex
  unfold analyzeSectionLogged analyzeSection
  rw [hconsistent.slice?_eq, List.getElem?_eq_getElem hbound, Logged.get, pure_bind,
    Code.analyzeLogged_eq, Logged.note_told]
  -- the word on the way out stands behind the one of the scan
  show _ = told CodeRejection.error CodeRejection.records
    ((Code.analyze _).mapError (.refused ∘ CodeRejection.section index))
  rw [← Attempt.mapCause_ofExcept, Logged.told_mapCause]
  rfl

theorem validateCodeLogged_eq :
    validateCodeLogged body =
      told CodeRejection.error CodeRejection.records (validateCode body) := by
  have hsections : (List.range body.codeCount).mapM (analyzeSectionLogged body) =
      told CodeRejection.error CodeRejection.records (analyzeSections body) := by
    unfold analyzeSections
    rw [zipIdx_sections, List.mapM_map]
    exact Logged.told_mapM fun index hmem =>
      analyzeSectionLogged_eq hconsistent (List.mem_range.mp hmem)
  unfold validateCodeLogged validateCode
  rw [hsections]
  refine told_bind fun analyses _ => ?_
  have hreferences : Code.checkReferencesLogged analyses =
      told CodeRejection.error CodeRejection.records
        ((Code.checkReferences analyses).mapError (.refused ∘ CodeRejection.reference)) := by
    rw [Code.checkReferencesLogged_eq, ← Attempt.mapCause_ofExcept, Logged.told_mapCause]
    rfl
  rw [hreferences]
  exact told_bind fun _ _ => rfl

end

/-- A stage that reads the container is told with the word on its way out. -/
theorem readLogged_eq {α : Type} {part : String} {attempt : Attempt Container.Error α}
    (cause : Container.Error → Rejection) (herror : Rejection.error ∘ cause = Error.container)
    (hrecords : Rejection.records ∘ cause =
      fun error => [.debug s!"invalid {part}: {error.message}"]) :
    readLogged part attempt = told Rejection.error Rejection.records (attempt.mapCause cause) := by
  rw [readLogged, Logged.silent_eq_told, Logged.note_told, Logged.mapError_told,
    Logged.told_mapCause, herror, hrecords]
  rfl

/-- **Validation leaves the records of its refusal,** whatever the bytes and the settings. -/
theorem validateLogged_eq (config : Config) (raw : Bytes) :
    validateLogged config raw =
      told Rejection.error Rejection.records (validate config raw) := by
  unfold validateLogged validate
  simp only [throw_eq_error, error_bind]
  split
  · rfl
  rw [← Attempt.mapCause_ofExcept, readLogged_eq .header rfl rfl]
  refine told_bind fun preamble hpreamble => ?_
  split
  · rfl
  rw [← Attempt.mapCause_ofExcept, readLogged_eq .layout rfl rfl]
  refine told_bind fun header hheader => ?_
  split
  · rfl
  rw [readLogged_eq .body rfl rfl]
  refine told_bind fun body hbody => ?_
  -- the body was read, and so it has its sections
  have hcontainer : Container.decode raw = .ok ⟨header, body, raw⟩ := by
    have hread := Attempt.ofExcept_eq_ok_iff.mp (Attempt.mapCause_eq_ok_iff.mp hpreamble)
    have hlayout := Attempt.ofExcept_eq_ok_iff.mp (Attempt.mapCause_eq_ok_iff.mp hheader)
    have hheader : Header.decode raw = .ok (header, preamble.size) :=
      bind_eq_ok_iff.mpr ⟨preamble, hread, bind_eq_ok_iff.mpr ⟨header, hlayout, rfl⟩⟩
    exact Container.decode_eq_ok_iff.mpr ⟨⟨_, hheader⟩, Attempt.mapCause_eq_ok_iff.mp hbody, rfl⟩
  have hcode : (validateCodeLogged body).mapError Error.code =
      told Rejection.error Rejection.records ((validateCode body).mapCause .code) := by
    rw [validateCodeLogged_eq (Container.consistent_of_decode hcontainer), Logged.mapError_told,
      Logged.told_mapCause]
    rfl
  rw [hcode]
  exact told_bind fun analyses _ => rfl

/-! ## What refusals leave -/

theorem Rejection.records_ne_nil (rejection : Rejection) : rejection.records ≠ [] := by
  cases rejection with
  | code cause => cases cause <;> exact List.cons_ne_nil _ _
  | _ => exact List.cons_ne_nil _ _

/-- No refusal leaves a record about the course of an execution. -/
theorem Rejection.level_eq_debug (rejection : Rejection) :
    ∀ record ∈ rejection.records, record.level = .debug := by
  intro record hmem
  cases rejection with
  | code cause =>
    cases cause with
    | «section» index fault =>
      rcases List.mem_cons.mp hmem with rfl | hmem
      · cases fault <;> rfl
      · obtain rfl := List.mem_singleton.mp hmem
        rfl
    | reference fault =>
      obtain rfl := List.mem_singleton.mp hmem
      cases fault <;> rfl
  | _ =>
    obtain rfl := List.mem_singleton.mp hmem
    rfl

end Validation

end EvmObject
