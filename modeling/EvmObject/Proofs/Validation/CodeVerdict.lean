import EvmObject.Proofs.Code.References
import EvmObject.Proofs.Container.Encodable
import EvmObject.Proofs.Validation.Stages

/-!
# What the code of a container is accepted or refused for

`IsAnalysed` says that a section passes its analysis and what its instructions are, and
`CodeRefusal` lists the grounds for a refusal in the order in which they count: an analysis that
fails comes before every reference, whatever the sections, and among the references the section
comes before the kind. `validateCode_exact` says that the check accepts and refuses on these grounds
and no others.
-/

namespace EvmObject.Validation

open Code (Item ReferenceError Resolved)

/-! ## The statement -/

/-- The section passes its analysis, and `split` are its instructions. -/
def IsAnalysed (body : Container.Body) (index : Nat) (split : List Item) : Prop :=
  ∃ code analysis, body.slice? index = some code ∧ Code.analyze code = .ok analysis ∧
    Code.Tiled 0 code split

/-- What the code of a body is refused for. -/
inductive CodeRefusal (body : Container.Body) : Code.Error → Prop where
  /-- The first section that fails its analysis; references do not matter then. -/
  | analysis (index : Nat) (code : Bytes) (fault : Code.Fault)
      (hcode : body.slice? index = some code) (hfault : Code.analyze code = .error fault)
      (hbefore : ∀ earlier < index, ∃ split, IsAnalysed body earlier split) :
      CodeRefusal body fault.error
  /-- The first section with an unsound reference, once all sections are analysed. -/
  | reference (index : Nat) (split : List Item) (error : Code.Error)
      (hall : ∀ other < body.codeCount, ∃ split, IsAnalysed body other split)
      (hsplit : IsAnalysed body index split)
      (herror : ReferenceError body.codeCount split error)
      (hbefore : ∀ earlier < index, ∀ split, IsAnalysed body earlier split →
        Resolved body.codeCount split) :
      CodeRefusal body error

/-! ## Analysed sections -/

variable {body : Container.Body} {index : Nat}

theorem lt_codeCount_of_slice? {code : Bytes} (hcode : body.slice? index = some code) :
    index < body.codeCount := by
  rw [Container.Body.slice?, Option.bind_eq_bind, Option.bind_eq_some_iff] at hcode
  obtain ⟨⟨start, stop⟩, hbounds, _⟩ := hcode
  rw [Container.Body.bounds?, Option.bind_eq_bind, Option.bind_eq_some_iff] at hbounds
  obtain ⟨stop, hstop, _⟩ := hbounds
  exact (Array.getElem?_eq_some_iff.mp hstop).1

theorem exists_isAnalysed {code : Bytes} {analysis : Code.Analysis}
    (hcode : body.slice? index = some code) (hok : Code.analyze code = .ok analysis) :
    ∃ split, IsAnalysed body index split := by
  obtain ⟨split, hwell, _⟩ := Code.analyze_eq_ok_iff.mp hok
  exact ⟨split, code, analysis, hcode, hok, hwell.tiled⟩

/-- The one split that a section has is the one that its analysis describes. -/
theorem IsAnalysed.describes {split : List Item} (hsplit : IsAnalysed body index split)
    {code : Bytes} {analysis : Code.Analysis} (hcode : body.slice? index = some code)
    (hok : Code.analyze code = .ok analysis) :
    Code.WellFormed code split ∧ analysis.Describes code split := by
  obtain ⟨_, _, hcode', _, htiled⟩ := hsplit
  obtain rfl := Option.some.inj (hcode.symm.trans hcode')
  obtain ⟨split', hwell, hdescribes⟩ := Code.analyze_eq_ok_iff.mp hok
  obtain rfl : split' = split := hwell.tiled.items_eq.symm.trans htiled.items_eq
  exact ⟨hwell, hdescribes⟩

/-! ## All sections, then all references -/

theorem analyzeSection_eq_error_iff {code : Bytes} {failure : Failure CodeRejection} :
    analyzeSection (some code) index = .error failure ↔
      ∃ fault, Code.analyze code = .error fault ∧ failure = .refused (.section index fault) := by
  rw [analyzeSection, mapError_eq_error_iff]
  exact exists_congr fun fault => and_congr_right fun _ => eq_comm

theorem getElem?_zipIdx_sections (hindex : index < body.codeCount) :
    body.sections.zipIdx[index]? = some (body.slice? index, index) := by
  rw [List.getElem?_zipIdx, Container.Body.getElem?_sections hindex, Option.map_some, Nat.zero_add]

theorem lt_of_getElem?_zipIdx_sections {pair : Option Bytes × Nat}
    (hpair : body.sections.zipIdx[index]? = some pair) : index < body.codeCount := by
  rw [← Container.Body.length_sections, ← List.length_zipIdx]
  exact (List.getElem?_eq_some_iff.mp hpair).1

theorem validateCode_eq_error_iff {failure : Failure CodeRejection} :
    validateCode body = .error failure ↔
      analyzeSections body = .error failure ∨
        ∃ analyses, analyzeSections body = .ok analyses ∧
          ∃ fault, Code.checkReferences analyses = .error fault ∧
            failure = .refused (.reference fault) := by
  simp only [validateCode, bind_eq_error_iff, mapError_eq_error_iff]
  refine or_congr_right (exists_congr fun analyses => and_congr_right fun _ => ?_)
  constructor
  · rintro (⟨fault, hfault, rfl⟩ | ⟨_, _, hpure⟩)
    · exact ⟨fault, hfault, rfl⟩
    · cases hpure
  · rintro ⟨fault, hfault, rfl⟩
    exact .inl ⟨fault, hfault, rfl⟩

section
variable (hslices : ∀ index < body.codeCount, ∃ code, body.slice? index = some code)
include hslices

/-- **The first section that fails its analysis decides.** -/
theorem analyzeSections_eq_error_iff {failure : Failure CodeRejection} :
    analyzeSections body = .error failure ↔
      ∃ index code fault, body.slice? index = some code ∧ Code.analyze code = .error fault ∧
        (∀ earlier < index, ∃ split, IsAnalysed body earlier split) ∧
        failure = .refused (.section index fault) := by
  rw [analyzeSections, mapM_eq_error_iff]
  constructor
  · rintro ⟨index, ⟨code?, place⟩, hpair, hfails, hbefore⟩
    have hindex := lt_of_getElem?_zipIdx_sections hpair
    obtain ⟨code, hcode⟩ := hslices index hindex
    rw [getElem?_zipIdx_sections hindex, hcode] at hpair
    obtain ⟨rfl, rfl⟩ := Prod.mk.inj (Option.some.inj hpair)
    obtain ⟨fault, hfault, rfl⟩ := analyzeSection_eq_error_iff.mp hfails
    refine ⟨index, code, fault, hcode, hfault, fun earlier hearlier => ?_, rfl⟩
    obtain ⟨analysis, hok⟩ :=
      hbefore earlier _ hearlier (getElem?_zipIdx_sections (Nat.lt_trans hearlier hindex))
    obtain ⟨code, hcode, hok⟩ := analyzeSection_eq_ok_iff.mp hok
    exact exists_isAnalysed hcode hok
  · rintro ⟨index, code, fault, hcode, hfault, hbefore, rfl⟩
    have hindex := lt_codeCount_of_slice? hcode
    refine ⟨index, _, getElem?_zipIdx_sections hindex, ?_, fun earlier pair hearlier hpair => ?_⟩
    · rw [hcode]
      exact analyzeSection_eq_error_iff.mpr ⟨fault, hfault, rfl⟩
    · obtain ⟨split, code, analysis, hcode, hok, _⟩ := hbefore earlier hearlier
      rw [getElem?_zipIdx_sections (Nat.lt_trans hearlier hindex)] at hpair
      obtain rfl := Option.some.inj hpair
      exact ⟨analysis, analyzeSection_eq_ok_iff.mpr ⟨code, hcode, hok⟩⟩

/-- All sections are analysed exactly if each of them is. -/
theorem exists_analyzeSections_iff :
    (∃ analyses, analyzeSections body = .ok analyses) ↔
      ∀ index < body.codeCount, ∃ split, IsAnalysed body index split := by
  constructor
  · rintro ⟨analyses, hok⟩ index hindex
    obtain ⟨code, analysis, hcode, _, haccepted⟩ :=
      (analyzeSections_eq_ok_iff.mp hok).2 index hindex
    exact exists_isAnalysed hcode haccepted
  · intro hall
    cases hsections : analyzeSections body with
    | ok analyses => exact ⟨analyses, rfl⟩
    | error failure =>
      obtain ⟨index, code, fault, hcode, hfault, _⟩ :=
        (analyzeSections_eq_error_iff hslices).mp hsections
      obtain ⟨_, code', _, hcode', hok, _⟩ := hall index (lt_codeCount_of_slice? hcode)
      obtain rfl := Option.some.inj (hcode.symm.trans hcode')
      rw [hfault] at hok
      cases hok

end

/-! ## References of analysed sections -/

section
variable {analyses : List Code.Analysis} (hanalyses : analyzeSections body = .ok analyses)
include hanalyses

/-- Each analysis describes its section. -/
theorem describes_of_analyzeSections {analysis : Code.Analysis}
    (hget : analyses[index]? = some analysis) :
    ∃ split code, IsAnalysed body index split ∧ Code.WellFormed code split ∧
      analysis.Describes code split := by
  obtain ⟨hlength, hsections⟩ := analyzeSections_eq_ok_iff.mp hanalyses
  have hindex : index < body.codeCount := hlength ▸ (List.getElem?_eq_some_iff.mp hget).1
  obtain ⟨code, analysis', hcode, hget', hok⟩ := hsections index hindex
  obtain rfl := Option.some.inj (hget.symm.trans hget')
  obtain ⟨split, hsplit⟩ := exists_isAnalysed hcode hok
  exact ⟨split, code, hsplit, hsplit.describes hcode hok⟩

theorem exists_analysis {split : List Item} (hsplit : IsAnalysed body index split) :
    ∃ analysis code, analyses[index]? = some analysis ∧ Code.WellFormed code split ∧
      analysis.Describes code split := by
  obtain ⟨code, _, hcode, _, _⟩ := id hsplit
  obtain ⟨code', analysis, hcode', hget, hok⟩ :=
    (analyzeSections_eq_ok_iff.mp hanalyses).2 index (lt_codeCount_of_slice? hcode)
  exact ⟨analysis, code', hget, hsplit.describes hcode' hok⟩

/-- The references are sound exactly if those of each section are. -/
theorem checkReferences_eq_ok_iff_resolved :
    Code.checkReferences analyses = .ok () ↔
      ∀ index split, IsAnalysed body index split → Resolved body.codeCount split := by
  have hlength := (analyzeSections_eq_ok_iff.mp hanalyses).1
  have hmembers : (∀ analysis ∈ analyses, (∀ call ∈ analysis.calls,
      call.callee.toNat < analyses.length) ∧ ∀ jump ∈ analysis.jumps,
        analysis.jumpTable.isValid jump.target = true) ↔
      ∀ (index : Nat) (analysis : Code.Analysis), analyses[index]? = some analysis →
        analysis.referenceFault? analyses.length index = none := by
    simp only [Code.Analysis.referenceFault?_eq_none_iff, List.mem_iff_getElem?]
    exact ⟨fun hsound index analysis hget => hsound analysis ⟨index, hget⟩,
      fun hsound analysis ⟨index, hget⟩ => hsound index analysis hget⟩
  rw [Code.checkReferences_eq_ok_iff, hmembers, hlength]
  constructor
  · intro hclear index split hsplit
    obtain ⟨analysis, code, hget, hwell, hdescribes⟩ := exists_analysis hanalyses hsplit
    exact (hdescribes.referenceFault?_eq_none_iff_resolved hwell).mp (hclear index analysis hget)
  · intro hresolved index analysis hget
    obtain ⟨split, code, hsplit, hwell, hdescribes⟩ := describes_of_analyzeSections hanalyses hget
    exact (hdescribes.referenceFault?_eq_none_iff_resolved hwell).mpr
      (hresolved index split hsplit)

/-- **The first section with an unsound reference decides.** -/
theorem exists_checkReferences_iff {error : Code.Error} :
    (∃ fault, Code.checkReferences analyses = .error fault ∧ fault.error = error) ↔
      ∃ index split, IsAnalysed body index split ∧ ReferenceError body.codeCount split error ∧
        ∀ earlier < index, ∀ split, IsAnalysed body earlier split →
          Resolved body.codeCount split := by
  have hlength := (analyzeSections_eq_ok_iff.mp hanalyses).1
  simp only [Code.checkReferences_eq_error_iff, hlength]
  constructor
  · rintro ⟨fault, ⟨index, analysis, hget, hfault, hclear⟩, herror⟩
    obtain ⟨split, code, hsplit, hwell, hdescribes⟩ := describes_of_analyzeSections hanalyses hget
    refine ⟨index, split, hsplit,
      (hdescribes.exists_referenceFault?_iff hwell).mp ⟨fault, hfault, herror⟩, ?_⟩
    intro earlier hearlier other hother
    obtain ⟨analysis, code, hget, hwell, hdescribes⟩ := exists_analysis hanalyses hother
    exact (hdescribes.referenceFault?_eq_none_iff_resolved hwell).mp
      (hclear earlier analysis hearlier hget)
  · rintro ⟨index, split, hsplit, herror, hresolved⟩
    obtain ⟨analysis, code, hget, hwell, hdescribes⟩ := exists_analysis hanalyses hsplit
    obtain ⟨fault, hfault, herror⟩ := (hdescribes.exists_referenceFault?_iff hwell).mpr herror
    refine ⟨fault, ⟨index, analysis, hget, hfault, fun earlier other hearlier hother => ?_⟩, herror⟩
    obtain ⟨split, code, hsplit, hwell, hdescribes⟩ :=
      describes_of_analyzeSections hanalyses hother
    exact (hdescribes.referenceFault?_eq_none_iff_resolved hwell).mpr
      (hresolved earlier hearlier split hsplit)

end

/-! ## The verdict -/

section
variable (hslices : ∀ index < body.codeCount, ∃ code, body.slice? index = some code)
include hslices

theorem exists_validateCode_iff :
    (∃ analyses, validateCode body = .ok analyses) ↔
      ∀ index < body.codeCount, ∃ split, IsAnalysed body index split ∧
        Resolved body.codeCount split := by
  constructor
  · rintro ⟨analyses, hok⟩ index hindex
    obtain ⟨hlength, hsections, hreferences⟩ := validateCode_eq_ok_iff.mp hok
    have hanalyses := analyzeSections_eq_ok_iff.mpr ⟨hlength, hsections⟩
    obtain ⟨split, hsplit⟩ := (exists_analyzeSections_iff hslices).mp ⟨_, hanalyses⟩ index hindex
    exact ⟨split, hsplit, (checkReferences_eq_ok_iff_resolved hanalyses).mp hreferences
      index split hsplit⟩
  · intro hall
    obtain ⟨analyses, hanalyses⟩ := (exists_analyzeSections_iff hslices).mpr fun index hindex =>
      (hall index hindex).imp fun _ hsplit => hsplit.1
    obtain ⟨hlength, hsections⟩ := analyzeSections_eq_ok_iff.mp hanalyses
    refine ⟨analyses, validateCode_eq_ok_iff.mpr ⟨hlength, hsections,
      (checkReferences_eq_ok_iff_resolved hanalyses).mpr fun index split hsplit => ?_⟩⟩
    obtain ⟨code, _, hcode, hok, _⟩ := id hsplit
    obtain ⟨split', hsplit', hresolved⟩ := hall index (lt_codeCount_of_slice? hcode)
    -- a section has one split only
    have hwell := (hsplit.describes hcode hok).1
    have hwell' := (hsplit'.describes hcode hok).1
    rwa [← hwell.tiled.items_eq, hwell'.tiled.items_eq]

theorem exists_validateCode_refused_iff {error : Code.Error} :
    (∃ cause, validateCode body = .error (.refused cause) ∧ cause.error = error) ↔
      CodeRefusal body error := by
  constructor
  · rintro ⟨cause, hrefused, rfl⟩
    rcases validateCode_eq_error_iff.mp hrefused with
      hsections | ⟨analyses, hanalyses, fault, hfault, hcause⟩
    · obtain ⟨index, code, fault, hcode, hfault, hbefore, hcause⟩ :=
        (analyzeSections_eq_error_iff hslices).mp hsections
      obtain rfl := Failure.refused.inj hcause
      exact .analysis index code fault hcode hfault hbefore
    · obtain rfl := Failure.refused.inj hcause
      obtain ⟨index, split, hsplit, herror, hbefore⟩ :=
        (exists_checkReferences_iff hanalyses).mp ⟨fault, hfault, rfl⟩
      exact .reference index split _ ((exists_analyzeSections_iff hslices).mp ⟨_, hanalyses⟩)
        hsplit herror hbefore
  · rintro (⟨index, code, fault, hcode, hfault, hbefore⟩ |
      ⟨index, split, _, hall, hsplit, herror, hbefore⟩)
    · have hsections := (analyzeSections_eq_error_iff hslices).mpr
        ⟨index, code, fault, hcode, hfault, hbefore, rfl⟩
      exact ⟨_, validateCode_eq_error_iff.mpr (.inl hsections), rfl⟩
    · obtain ⟨analyses, hanalyses⟩ := (exists_analyzeSections_iff hslices).mpr hall
      obtain ⟨fault, hfault, herror⟩ :=
        (exists_checkReferences_iff hanalyses).mpr ⟨index, split, hsplit, herror, hbefore⟩
      exact ⟨_, validateCode_eq_error_iff.mpr (.inr ⟨analyses, hanalyses, fault, hfault, rfl⟩),
        herror⟩

theorem validateCode_ne_crashed : validateCode body ≠ .error .crashed := by
  intro hcrashed
  rcases validateCode_eq_error_iff.mp hcrashed with hsections | ⟨_, _, _, _, hcause⟩
  · obtain ⟨_, _, _, _, _, _, hcause⟩ := (analyzeSections_eq_error_iff hslices).mp hsections
    cases hcause
  · cases hcause

end

/-- **The verdict on the code of a container is exact.** The code of a container that is read is
valid if and only if every section passes its analysis, every call names one of the sections and
every relative jump leads to an instruction of its own section. Otherwise it is refused, for the
first section that fails its analysis if there is one, whatever the references, and else for the
first section with an unsound reference: for a call before any jump, and for the first jump that
leads into an operand, with an error of its own if that is the operand of a call. -/
theorem validateCode_exact {raw : Bytes} {container : Container}
    (hdecode : Container.decode raw = .ok container) :
    ((∃ analyses, validateCode container.body = .ok analyses) ↔
      ∀ index < container.body.codeCount, ∃ split, IsAnalysed container.body index split ∧
        Resolved container.body.codeCount split) ∧
      (∀ error, (∃ cause, validateCode container.body = .error (.refused cause) ∧
        cause.error = error) ↔ CodeRefusal container.body error) ∧
      validateCode container.body ≠ .error .crashed := by
  have hslices : ∀ index < container.body.codeCount, ∃ code,
      container.body.slice? index = some code :=
    fun index hindex => (Container.consistent_of_decode hdecode).exists_slice? hindex
  exact ⟨exists_validateCode_iff hslices, fun error => exists_validateCode_refused_iff hslices,
    validateCode_ne_crashed hslices⟩

/-- Two sections, of which the first jumps into the operand of its call and the second calls a
section that is not there. The first decides, although calls come before jumps in one section. -/
theorem validateCode_exact_jump_before_call :
    let body : Container.Body := ⟨1, #[.entry, .entry], #[7, 11],
      [0x5C, 0, 1, 0xB0, 0, 1, 0x00, 0xB0, 0, 2, 0xB1], [], false⟩
    Container.decode (Container.ofBody body).raw = .ok (Container.ofBody body) ∧
      CodeRefusal body .jumpToCallOperand ∧ ¬ ∃ analyses, validateCode body = .ok analyses := by
  intro body
  have hdecode : Container.decode (Container.ofBody body).raw = .ok (Container.ofBody body) :=
    eq_ok_of_toOption (by decide +kernel)
  have hrefused : validateCode body =
      .error (.refused (.reference (.insideInstruction 0 0 4 true))) :=
    eq_error_of_match (by decide +kernel)
  refine ⟨hdecode, ((validateCode_exact hdecode).2.1 _).mp ⟨_, hrefused, rfl⟩, ?_⟩
  rintro ⟨analyses, hok⟩
  rw [hrefused] at hok
  cases hok

end EvmObject.Validation
