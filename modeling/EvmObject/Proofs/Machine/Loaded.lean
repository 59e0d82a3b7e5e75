import EvmObject.Machine.Program
import EvmObject.Proofs.Code.Acceptance
import EvmObject.Proofs.Machine.StepCases
import EvmObject.Proofs.Validation.Stages

/-!
# Programs of valid containers

The machine is given bytes, signatures and tables, and does not know that they were validated.
`Loaded` carries over what validation found out: for a code section it keeps the split of its bytes,
where its calls and jumps lead, and the function that the program has for it. `exists_loaded` says
that every section of a valid container is loaded, and below it stand the things that the machine
reads at an instruction of the split, none of which can fail.
-/

namespace EvmObject.Machine

open Code (Item Tiled)

/-! ## Reading a function whose code is split -/

namespace Function

variable {function : Function} {split : List Item} {item : Item}

/-- **At an instruction of the split the machine reads that instruction.** -/
theorem fetch_of_tiled (htiled : Tiled 0 function.code.toList split) (hmem : item ∈ split) :
    ∃ op, op.byte = item.byte ∧ item.opcode? = some op ∧
      function.fetch item.pc = .ok ⟨op, item.immediate, item.next⟩ := by
  obtain ⟨op, hop, hbyte, hsize⟩ := htiled.exists_opcode hmem
  obtain ⟨before, after, hcode, hpc⟩ := htiled.code_eq hmem
  rw [Nat.zero_add] at hpc
  have hget : function.code[item.pc]? = some item.byte := by
    rw [← Array.getElem?_toList, hcode, ← hpc, Item.bytes]
    simp
  have hlength : item.next ≤ function.code.size := by
    have hbounds := (htiled.bounds hmem).2
    rwa [Nat.zero_add, Array.length_toList] at hbounds
  -- in front of the operand stand the code before the item and its opcode byte
  have hoperand : (function.code.extract (item.pc + 1) item.next).toList = item.immediate := by
    have hsplit : function.code.toList =
        (before ++ [item.byte]) ++ (item.immediate ++ after) := by
      rw [hcode, Item.bytes]
      simp
    have hfront : (before ++ [item.byte]).length = item.pc + 1 := by
      rw [List.length_append, List.length_singleton, hpc]
    rw [Array.toList_extract, List.extract_eq_take_drop, hsplit, List.drop_left' hfront, Item.next,
      Nat.add_sub_cancel_left]
    exact List.take_left' rfl
  have henabled : Opcode.enabled? item.byte = some op := hop
  have hnext : item.pc + 1 + op.info.immediateSize = item.next := by rw [← hsize, Item.next]
  refine ⟨op, hbyte, hop, ?_⟩
  simp only [fetch, hget, henabled, hnext]
  rw [if_neg (Nat.not_lt.mpr hlength), hoperand]

end Function

theorem Fetched.callee_of_length {fetched : Fetched} (htwo : fetched.immediate.length = 2) :
    fetched.callee = Bytes.toNat fetched.immediate := by
  rw [callee, Code.readU16?_of_length htwo, Option.getD_some, UInt16.toNat_ofNat']
  exact Nat.mod_eq_of_lt (Code.toNat_lt_of_length htwo)

/-! ## The functions of a program -/

namespace Program

theorem function?_ofSections {sections : List Bytes} {signatures : List Container.Signature}
    {analyses : List Code.Analysis} {index : Nat} {code : Bytes}
    {signature : Container.Signature} {analysis : Code.Analysis}
    (hcode : sections[index]? = some code) (hsignature : signatures[index]? = some signature)
    (hanalysis : analyses[index]? = some analysis) :
    (ofSections sections signatures analyses).function? index =
      some ⟨code.toArray, signature, analysis.jumpTable⟩ := by
  have hzip : (sections.zip (signatures.zip analyses))[index]? =
      some (code, signature, analysis) := by
    rw [List.getElem?_zip_eq_some]
    exact ⟨hcode, List.getElem?_zip_eq_some.mpr ⟨hsignature, hanalysis⟩⟩
  rw [function?, ofSections, List.getElem?_toArray, List.getElem?_map, hzip]
  rfl

end Program

/-! ## Loaded sections -/

/-- What is known of a code section of a valid container and of the function made from it. -/
structure Loaded (valid : Validation.Validated) (index : Nat) (function : Function)
    (split : List Item) : Prop where
  function_eq : (Program.ofValidated valid).function? index = some function
  slice_eq : valid.container.body.slice? index = some function.code.toList
  wellFormed : Code.WellFormed function.code.toList split
  analysis : ∃ analysis, valid.analysis? index = some analysis ∧
    analysis.Describes function.code.toList split ∧ analysis.jumpTable = function.jumpTable
  signature_eq : valid.container.signature? index = some function.signature
  /-- Calls name sections of the container. -/
  callee_lt : ∀ item ∈ split, item.byte = Opcode.callf →
    Bytes.toNat item.immediate < valid.codeCount
  /-- Jumps lead to instructions of the section. -/
  landing : ∀ item ∈ split, item.HasJumpByte → ∃ reached ∈ split, reached.pc = item.landing.toNat

/-- A valid container has a code section. -/
theorem codeCount_pos {config : Validation.Config} {raw : Bytes} {valid : Validation.Validated}
    (hvalid : Validation.validate config raw = .ok valid) : 0 < valid.codeCount := by
  obtain ⟨_, _, hdecode, hcode⟩ := Validation.validate_eq_ok_iff.mp hvalid
  obtain ⟨hlength, _, _⟩ := Validation.validateCode_eq_ok_iff.mp hcode
  have hread := Container.readFrom_of_decode hdecode
  obtain ⟨⟨hsome, _⟩, _⟩ := Container.Header.checkCounts_eq_ok_iff.mp hread.isProper.counts
  rw [← hread.header_eq, Container.Body.size_codeSizes_header, ← hlength] at hsome
  exact hsome

/-- **Every section of a valid container is loaded.** -/
theorem exists_loaded {config : Validation.Config} {raw : Bytes} {valid : Validation.Validated}
    (hvalid : Validation.validate config raw = .ok valid) {index : Nat}
    (hindex : index < valid.codeCount) : ∃ function split, Loaded valid index function split := by
  obtain ⟨_, _, hdecode, hcode⟩ := Validation.validate_eq_ok_iff.mp hvalid
  obtain ⟨hlength, hsections, hreferences⟩ := Validation.validateCode_eq_ok_iff.mp hcode
  have hsignatures := (Container.readFrom_of_decode hdecode).signatures_size
  have hcount : index < valid.container.body.codeCount := hlength ▸ hindex
  -- the section is well-formed, and its analysis says where its calls and jumps lead
  obtain ⟨code, analysis, hslice, hanalysis, haccepted⟩ := hsections index hcount
  obtain ⟨split, hwell, hdescribes⟩ := Code.analyze_eq_ok_iff.mp haccepted
  obtain ⟨hcalls, hjumps⟩ := (Code.checkReferences_eq_ok_iff.mp hreferences) analysis
    (List.mem_of_getElem? hanalysis)
  -- the program has the section under the same index
  have hsection : (valid.container.body.sections.map (·.getD []))[index]? = some code := by
    rw [List.getElem?_map, Container.Body.getElem?_sections hcount, hslice]
    rfl
  have hbound : index < valid.container.body.signatures.size := hsignatures ▸ hcount
  have hsignature : valid.container.body.signatures.toList[index]? =
      some valid.container.body.signatures[index] := by
    rw [Array.getElem?_toList]
    exact Array.getElem?_eq_getElem hbound
  refine ⟨⟨code.toArray, valid.container.body.signatures[index], analysis.jumpTable⟩, split,
    Program.function?_ofSections hsection hsignature hanalysis, hslice, hwell,
    ⟨analysis, hanalysis, hdescribes, rfl⟩, ?_, ?_, ?_⟩
  · exact Array.getElem?_eq_getElem hbound
  · intro item hmem hcall
    have htwo := hwell.tiled.length_of_callf hmem hcall
    have hcallee := hcalls ⟨item.pc, UInt16.ofNat (Bytes.toNat item.immediate)⟩ (by
      rw [hdescribes.calls, List.mem_map]
      exact ⟨item, List.mem_filter.mpr ⟨hmem, decide_eq_true hcall⟩, rfl⟩)
    rw [UInt16.toNat_ofNat', Nat.mod_eq_of_lt (Code.toNat_lt_of_length htwo)] at hcallee
    exact hcallee
  · intro item hmem hjump
    have hvalidTarget := hjumps ⟨item.pc, item.landing.toNat⟩ (by
      rw [hdescribes.jumps, List.mem_map]
      exact ⟨item, List.mem_filter.mpr ⟨hmem, decide_eq_true hjump⟩, rfl⟩)
    exact (hdescribes.isValid _).mp hvalidTarget

/-! ## What the machine reads in a loaded section -/

namespace Loaded

variable {valid : Validation.Validated} {index : Nat} {function : Function} {split : List Item}
  {item : Item} (hloaded : Loaded valid index function split) (hmem : item ∈ split)
include hloaded hmem

/-- A call reads the section that its operand writes. -/
theorem callee_eq (hcall : item.byte = Opcode.callf) (op : Opcode) (next : Nat) :
    Fetched.callee ⟨op, item.immediate, next⟩ = Bytes.toNat item.immediate :=
  Fetched.callee_of_length (hloaded.wellFormed.tiled.length_of_callf hmem hcall)

/-- A jump finds its target. -/
theorem target?_eq (hjump : item.HasJumpByte) (op : Opcode) :
    function.target? ⟨op, item.immediate, item.next⟩ = some item.landing.toNat := by
  have htwo := hloaded.wellFormed.tiled.length_of_hasJumpByte hmem hjump
  have htarget : (item.next : Int) + (Bytes.readI16? item.immediate).getD 0 = item.landing :=
    Item.target_eq_landing htwo
  have hinside := (hloaded.wellFormed.inside item hmem hjump).1
  obtain ⟨analysis, _, hdescribes, htable⟩ := hloaded.analysis
  have hisValid : function.jumpTable.isValid item.landing.toNat = true := by
    rw [← htable, hdescribes.isValid]
    exact hloaded.landing item hmem hjump
  rw [Function.target?]
  simp only [htarget, hinside, hisValid, decide_true, Bool.and_self, if_true]

end Loaded

end EvmObject.Machine
