import EvmObject.Proofs.Container.Body
import EvmObject.Proofs.Container.Sections
import EvmObject.Validation.Basic

/-!
# What a valid container went through

Validation is a chain of stages. Seen from its end, a container is valid exactly if it is read, its
size and version are allowed, every code section is accepted by its analysis, and the references
between sections are sound:

* `validateCode_eq_ok_iff`: the code, section by section.
* `validate_eq_ok_iff`: the container.
-/

namespace EvmObject.Validation

theorem analyzeSection_eq_ok_iff {code? : Option Bytes} {index : Nat} {analysis : Code.Analysis} :
    analyzeSection code? index = .ok analysis ↔
      ∃ code, code? = some code ∧ Code.analyze code = .ok analysis := by
  cases code? with
  | none => simp [analyzeSection]
  | some code => simp [analyzeSection, mapError_eq_ok_iff]

/-- Every section is analysed exactly if each can be sliced out and is accepted; the analyses stand
in the order of the sections. -/
theorem analyzeSections_eq_ok_iff {body : Container.Body} {analyses : List Code.Analysis} :
    analyzeSections body = .ok analyses ↔
      analyses.length = body.codeCount ∧
        ∀ index < body.codeCount, ∃ code analysis, body.slice? index = some code ∧
          analyses[index]? = some analysis ∧ Code.analyze code = .ok analysis := by
  rw [analyzeSections, mapM_eq_ok_iff, List.length_zipIdx, Container.Body.length_sections]
  refine and_congr_right fun _ => ⟨fun hmembers index hindex => ?_, fun hmembers index => ?_⟩
  · have hget := Container.Body.getElem?_sections hindex
    obtain ⟨analysis, hanalysis, hok⟩ := hmembers index (body.slice? index, index) (by
      rw [List.getElem?_zipIdx, hget]
      simp)
    obtain ⟨code, hcode, haccepted⟩ := analyzeSection_eq_ok_iff.mp hok
    exact ⟨code, analysis, hcode, hanalysis, haccepted⟩
  · rintro ⟨code?, place⟩ hget
    rw [List.getElem?_zipIdx, Option.map_eq_some_iff] at hget
    obtain ⟨_, hsection, hpair⟩ := hget
    obtain ⟨rfl, rfl⟩ := Prod.mk.inj hpair
    have hindex : index < body.codeCount := by
      rw [← Container.Body.length_sections]
      exact (List.getElem?_eq_some_iff.mp hsection).1
    rw [Container.Body.getElem?_sections hindex] at hsection
    obtain ⟨code, analysis, hcode, hanalysis, haccepted⟩ := hmembers index hindex
    refine ⟨analysis, hanalysis, analyzeSection_eq_ok_iff.mpr ⟨code, ?_, haccepted⟩⟩
    rw [← hcode, Option.some.inj hsection]

/-- **The code is valid** exactly if every section is analysed and the references are sound. -/
theorem validateCode_eq_ok_iff {body : Container.Body} {analyses : List Code.Analysis} :
    validateCode body = .ok analyses ↔
      analyses.length = body.codeCount ∧
        (∀ index < body.codeCount, ∃ code analysis, body.slice? index = some code ∧
          analyses[index]? = some analysis ∧ Code.analyze code = .ok analysis) ∧
        Code.checkReferences analyses = .ok () := by
  simp only [validateCode, bind_eq_ok_iff, pure_eq_ok_iff, mapError_eq_ok_iff]
  constructor
  · rintro ⟨_, hanalyses, _, hreferences, rfl⟩
    obtain ⟨hlength, hmembers⟩ := analyzeSections_eq_ok_iff.mp hanalyses
    exact ⟨hlength, hmembers, hreferences⟩
  · rintro ⟨hlength, hmembers, hreferences⟩
    exact ⟨analyses, analyzeSections_eq_ok_iff.mpr ⟨hlength, hmembers⟩, (), hreferences, rfl⟩

/-- **A container is valid** exactly if its size and version are allowed, it can be read, and its
code is valid. The check that the preamble is as long as the header never fails. -/
theorem validate_eq_ok_iff {config : Config} {raw : Bytes} {valid : Validated} :
    validate config raw = .ok valid ↔
      config.allowsSize raw.length = true ∧
        config.allowsVersion valid.container.header.version = true ∧
        Container.decode raw = .ok valid.container ∧
        validateCode valid.container.body = .ok valid.analyses := by
  simp only [validate, ite_throw_eq_ok_iff, bind_eq_ok_iff, pure_eq_ok_iff, mapError_eq_ok_iff,
    Attempt.mapCause_eq_ok_iff, Container.decode_eq_ok_iff, Bool.not_eq_true', Bool.not_eq_false,
    ne_eq, Decidable.not_not]
  constructor
  · rintro ⟨hsize, preamble, hread, hversion, header, hheader, hlength, body, hbody, analyses,
      hcode, rfl⟩
    have hdecode : Container.Header.decode raw = .ok (header, preamble.size) :=
      bind_eq_ok_iff.mpr ⟨preamble, hread, bind_eq_ok_iff.mpr ⟨header, hheader, rfl⟩⟩
    -- the version that was allowed is that of the preamble, and the header has the same
    have heq := Container.Header.version_eq_of_read hread hheader
    exact ⟨hsize, heq ▸ hversion, ⟨⟨_, hdecode⟩, hbody, rfl⟩, hcode⟩
  · rintro ⟨hsize, hversion, ⟨⟨read, hdecode⟩, hbody, rfl⟩, hcode⟩
    have hlength := (Container.Header.decode_eq_ok_iff.mp hdecode).2.1
    obtain ⟨preamble, hread, hrest⟩ := bind_eq_ok_iff.mp hdecode
    obtain ⟨header, hheader, hpair⟩ := bind_eq_ok_iff.mp hrest
    obtain ⟨rfl, rfl⟩ := Prod.mk.inj (pure_eq_ok_iff.mp hpair)
    have heq := Container.Header.version_eq_of_read hread hheader
    exact ⟨hsize, preamble, hread, heq ▸ hversion, _, hheader, hlength, _, hbody, _, hcode, rfl⟩

/-- Three code sections with their signatures, and data. The first calls the second, the second adds
its arguments and calls on, and the third loops until its argument is zero. -/
def relayBody (callee : UInt8) : Container.Body where
  version := 1
  signatures := #[.entry, ⟨2, 1⟩, ⟨1, 1⟩]
  sectionEnds := #[8, 13, 18]
  code :=
    [0x60, 2, 0x60, 3, 0xB0, 0, 1, 0, 0x01, 0xB0, 0, callee, 0xB1, 0x80, 0x5D, 0xFF, 0xFC, 0xB1]
  data := [7, 7, 7]
  isTypesImplicit := false

/-- The container of that body with its analyses, where the second section calls the third. -/
def relayValid : Validated where
  container := Container.ofBody (relayBody 2)
  analyses :=
    [⟨[⟨0, 0x60, 1⟩, ⟨2, 0x60, 1⟩, ⟨4, 0xB0, 2⟩, ⟨7, 0x00, 0⟩],
        ⟨#[true, false, true, false, true, false, false, true]⟩, [], [⟨4, 1⟩]⟩,
      ⟨[⟨0, 0x01, 0⟩, ⟨1, 0xB0, 2⟩, ⟨4, 0xB1, 0⟩], ⟨#[true, true, false, false, true]⟩, [],
        [⟨1, 2⟩]⟩,
      ⟨[⟨0, 0x80, 0⟩, ⟨1, 0x5D, 2⟩, ⟨4, 0xB1, 0⟩], ⟨#[true, true, false, false, true]⟩,
        [⟨1, 0⟩], []⟩]

end EvmObject.Validation
