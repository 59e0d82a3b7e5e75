import EvmObject.Proofs.Validation.CodeVerdict

/-!
# Code sections of a body that was put together by hand

The ends of a decoded body lie within its code, but nothing keeps a body that is put together by
hand from naming an end behind it. Of the two ways to get at a section one is checked
(`Body.slice?`), and the other takes the bounds on trust (`Body.read`). They differ on exactly the
sections of which `EndsPast` holds. The check of a body's code goes the trusting way, so it crashes
on such a section, although it has an answer for one that is not there.
-/

namespace EvmObject

namespace Container.Body

variable {body : Body} {index start stop : Nat}

/-- The section ends behind the end of the code. -/
def EndsPast (body : Body) (index : Nat) : Prop :=
  ∃ stop, body.sectionEnds[index]? = some stop ∧ body.code.length < stop

theorem EndsPast.lt (hpast : body.EndsPast index) : index < body.codeCount := by
  obtain ⟨stop, hstop, _⟩ := hpast
  exact (Array.getElem?_eq_some_iff.mp hstop).1

/-! ## The bounds of a section -/

theorem getElem?_sectionEnds_of_bounds? (hbounds : body.bounds? index = some (start, stop)) :
    body.sectionEnds[index]? = some stop := by
  rw [bounds?, Option.bind_eq_bind, Option.bind_eq_some_iff] at hbounds
  obtain ⟨stop', hstop, hstart⟩ := hbounds
  rw [Option.bind_eq_some_iff] at hstart
  obtain ⟨_, _, hpair⟩ := hstart
  obtain ⟨_, rfl⟩ := Prod.mk.inj (Option.some.inj hpair)
  exact hstop

theorem endsPast_iff_of_bounds? (hbounds : body.bounds? index = some (start, stop)) :
    body.EndsPast index ↔ body.code.length < stop := by
  unfold EndsPast
  rw [getElem?_sectionEnds_of_bounds? hbounds]
  constructor
  · rintro ⟨_, hstop, hpast⟩
    rwa [Option.some.inj hstop]
  · exact fun hpast => ⟨stop, rfl, hpast⟩

theorem exists_bounds?_of_lt (hindex : index < body.codeCount) :
    ∃ start stop, body.bounds? index = some (start, stop) := by
  have hlength : index < (spans 0 body.sectionEnds.toList).length := by
    rw [length_spans, Array.length_toList]
    exact hindex
  rw [← getElem?_spans, List.getElem?_eq_getElem hlength]
  exact ⟨_, _, rfl⟩

/-- The bounds of a section are not reversed if the ends ascend. -/
theorem le_of_bounds? (hsorted : body.sectionEnds.toList.Pairwise (· ≤ ·))
    (hbounds : body.bounds? index = some (start, stop)) : start ≤ stop := by
  rw [← getElem?_spans] at hbounds
  have hascend : (0 :: body.sectionEnds.toList).Pairwise (· ≤ ·) :=
    List.pairwise_cons.mpr ⟨fun _ _ => Nat.zero_le _, hsorted⟩
  exact (le_of_mem_spans hascend (List.mem_of_getElem? hbounds)).1

/-! ## The two ways to get at a section -/

theorem slice?_of_bounds? (hbounds : body.bounds? index = some (start, stop)) :
    body.slice? index = Bytes.slice? body.code start stop := by
  unfold slice?
  rw [hbounds]
  rfl

theorem read_of_none {ε : Type} (hbounds : body.bounds? index = some (start, stop))
    (hnone : body.slice? index = none) : (body.read index : Attempt ε _) = .error .crashed := by
  rw [slice?_of_bounds? hbounds] at hnone
  simp only [read, hbounds, hnone]

theorem read_of_some {ε : Type} (hbounds : body.bounds? index = some (start, stop)) {code : Bytes}
    (hcode : body.slice? index = some code) :
    (body.read index : Attempt ε _) = .ok (some code) := by
  rw [slice?_of_bounds? hbounds] at hcode
  simp only [read, hbounds, hcode]

/-- A section with an end is missing exactly if that end is behind the code. -/
theorem slice?_eq_none_iff_endsPast (hsorted : body.sectionEnds.toList.Pairwise (· ≤ ·))
    (hindex : index < body.codeCount) : body.slice? index = none ↔ body.EndsPast index := by
  obtain ⟨start, stop, hbounds⟩ := exists_bounds?_of_lt hindex
  have hle := le_of_bounds? hsorted hbounds
  rw [endsPast_iff_of_bounds? hbounds, slice?_of_bounds? hbounds]
  unfold Bytes.slice?
  constructor
  · intro hnone
    split at hnone
    · cases hnone
    · omega
  · intro hpast
    exact if_neg fun hinside => absurd hinside.2 (Nat.not_le_of_lt hpast)

/-- **The two ways agree on every section that ends within the code,** and where there is none. -/
theorem read_of_not_endsPast {ε : Type} (hsorted : body.sectionEnds.toList.Pairwise (· ≤ ·))
    (hinside : ¬ body.EndsPast index) :
    (body.read index : Attempt ε _) = .ok (body.slice? index) := by
  by_cases hindex : index < body.codeCount
  · obtain ⟨start, stop, hbounds⟩ := exists_bounds?_of_lt hindex
    have hsome := mt (slice?_eq_none_iff_endsPast hsorted hindex).mp hinside
    obtain ⟨code, hcode⟩ := Option.ne_none_iff_exists'.mp hsome
    rw [read_of_some hbounds hcode, hcode]
  · have hnone : body.bounds? index = none := by
      rw [← getElem?_spans, List.getElem?_eq_none_iff, length_spans, Array.length_toList]
      exact Nat.le_of_not_lt hindex
    unfold slice?
    simp only [read, hnone]
    rfl

/-- **They differ on every other section.** -/
theorem read_of_endsPast {ε : Type} (hsorted : body.sectionEnds.toList.Pairwise (· ≤ ·))
    (hpast : body.EndsPast index) :
    (body.read index : Attempt ε _) = .error .crashed ∧ body.slice? index = none := by
  have hindex := hpast.lt
  obtain ⟨start, stop, hbounds⟩ := exists_bounds?_of_lt hindex
  have hnone := (slice?_eq_none_iff_endsPast hsorted hindex).mpr hpast
  exact ⟨read_of_none hbounds hnone, hnone⟩

end Container.Body

namespace Validation

variable {body : Container.Body}

/-! ## The check of the code -/

theorem analyzeSection_eq_crashed_iff {section? : Option Bytes} {index : Nat} :
    analyzeSection section? index = .error .crashed ↔ section? = none := by
  cases section? with
  | none => exact ⟨fun _ => rfl, fun _ => rfl⟩
  | some code =>
    rw [analyzeSection_eq_error_iff]
    constructor
    · rintro ⟨_, _, hcrashed⟩
      cases hcrashed
    · exact nofun

theorem analyzeSections_eq_crashed_iff :
    analyzeSections body = .error .crashed ↔
      ∃ index < body.codeCount, body.slice? index = none ∧
        ∀ earlier < index, ∃ split, IsAnalysed body earlier split := by
  rw [analyzeSections, mapM_eq_error_iff]
  constructor
  · rintro ⟨index, pair, hpair, hcrashed, hbefore⟩
    have hindex := lt_of_getElem?_zipIdx_sections hpair
    obtain rfl := Option.some.inj ((getElem?_zipIdx_sections hindex).symm.trans hpair)
    refine ⟨index, hindex, analyzeSection_eq_crashed_iff.mp hcrashed, fun earlier hearlier => ?_⟩
    obtain ⟨analysis, hok⟩ := hbefore earlier _ hearlier
      (getElem?_zipIdx_sections (Nat.lt_trans hearlier hindex))
    obtain ⟨code, hcode, hok⟩ := analyzeSection_eq_ok_iff.mp hok
    exact exists_isAnalysed hcode hok
  · rintro ⟨index, hindex, hnone, hbefore⟩
    refine ⟨index, _, getElem?_zipIdx_sections hindex,
      analyzeSection_eq_crashed_iff.mpr hnone, fun earlier pair hearlier hpair => ?_⟩
    obtain ⟨split, code, analysis, hcode, hok, _⟩ := hbefore earlier hearlier
    rw [getElem?_zipIdx_sections (Nat.lt_trans hearlier hindex)] at hpair
    obtain rfl := Option.some.inj hpair
    exact ⟨analysis, analyzeSection_eq_ok_iff.mpr ⟨code, hcode, hok⟩⟩

/-- **The check crashes on the first section that is missing,** if all before it are analysed. -/
theorem validateCode_eq_crashed_iff :
    validateCode body = .error .crashed ↔
      ∃ index < body.codeCount, body.slice? index = none ∧
        ∀ earlier < index, ∃ split, IsAnalysed body earlier split := by
  rw [validateCode_eq_error_iff, analyzeSections_eq_crashed_iff, or_iff_left]
  rintro ⟨_, _, _, _, hcrashed⟩
  cases hcrashed

/-- The error for a missing section is about a call, and calls are looked at once all sections of
the body are analysed. -/
theorem slice?_ne_none_of_invalidSectionId {cause : CodeRejection}
    (hrefused : validateCode body = .error (.refused cause))
    (hcause : cause.error = .invalidSectionId) {index : Nat} (hindex : index < body.codeCount) :
    body.slice? index ≠ none := by
  rcases validateCode_eq_error_iff.mp hrefused with hsections | ⟨analyses, hanalyses, _⟩
  · exfalso
    rw [analyzeSections, mapM_eq_error_iff] at hsections
    obtain ⟨_, ⟨code?, _⟩, _, hfails, _⟩ := hsections
    cases code? with
    | none => cases hfails
    | some code =>
      obtain ⟨fault, _, hfault⟩ := analyzeSection_eq_error_iff.mp hfails
      obtain rfl := Failure.refused.inj hfault
      cases fault <;> cases hcause
  · obtain ⟨code, _, hcode, _⟩ := (analyzeSections_eq_ok_iff.mp hanalyses).2 index hindex
    rw [hcode]
    exact Option.some_ne_none code

/-- **When the check of a body's code has an answer.** Take any body with ascending ends, which may
lie behind its code. Where a section ends within the code, and where there is no section, the two
ways to read it agree; where one ends behind the code, the checked one finds nothing and the other
crashes. So does the check of the container that is made of the body, exactly if all sections in
front of such a section are analysed. The error for a missing section is never its answer to one. -/
theorem section_access_exact (body : Container.Body)
    (hsorted : body.sectionEnds.toList.Pairwise (· ≤ ·)) :
    (∀ {ε : Type} (index : Nat),
      (¬ body.EndsPast index → (body.read index : Attempt ε _) = .ok (body.slice? index)) ∧
        (body.EndsPast index →
          (body.read index : Attempt ε _) = .error .crashed ∧ body.slice? index = none)) ∧
      (validateCode (Container.ofBody body).body = .error .crashed ↔
        ∃ index, body.EndsPast index ∧ ∀ earlier < index, ∃ split, IsAnalysed body earlier split) ∧
      ∀ cause, validateCode (Container.ofBody body).body = .error (.refused cause) →
        cause.error = .invalidSectionId → ∀ index, ¬ body.EndsPast index := by
  refine ⟨fun index => ⟨Container.Body.read_of_not_endsPast hsorted,
    Container.Body.read_of_endsPast hsorted⟩, ?_, ?_⟩
  · show validateCode body = _ ↔ _
    rw [validateCode_eq_crashed_iff]
    apply exists_congr
    intro index
    constructor
    · rintro ⟨hindex, hnone, hbefore⟩
      exact ⟨(Container.Body.slice?_eq_none_iff_endsPast hsorted hindex).mp hnone, hbefore⟩
    · rintro ⟨hpast, hbefore⟩
      exact ⟨hpast.lt, (Container.Body.slice?_eq_none_iff_endsPast hsorted hpast.lt).mpr hpast,
        hbefore⟩
  · intro cause hrefused hcause index hpast
    exact slice?_ne_none_of_invalidSectionId hrefused hcause hpast.lt
      ((Container.Body.slice?_eq_none_iff_endsPast hsorted hpast.lt).mpr hpast)

/-- A body of two sections, of which the second ends one byte behind the code. -/
def overrunBody : Container.Body :=
  ⟨1, #[.entry, .entry], #[1, 3], [0x00, 0xB1], [], false⟩

/-- The first section is read either way, and the second is not. -/
theorem section_access_exact_overrun :
    overrunBody.sectionEnds.toList.Pairwise (· ≤ ·) ∧
      (overrunBody.read 0 : Attempt CodeRejection _) = .ok (some [0x00]) ∧
      (overrunBody.read 1 : Attempt CodeRejection _) = .error .crashed ∧
      overrunBody.slice? 1 = none := by
  have hsorted : overrunBody.sectionEnds.toList.Pairwise (· ≤ ·) := by decide
  obtain ⟨haccess, _⟩ := section_access_exact overrunBody hsorted
  have hinside : ¬ overrunBody.EndsPast 0 := by
    rintro ⟨stop, hstop, hpast⟩
    obtain rfl := Option.some.inj hstop
    exact absurd hpast (by decide)
  have hpast : overrunBody.EndsPast 1 := ⟨3, rfl, by decide⟩
  exact ⟨hsorted, (haccess 0).1 hinside, (haccess 1).2 hpast⟩

/-- A body of a single section of one byte that is said to end after two. Nothing is found there,
and the check crashes instead of saying so. -/
theorem validateCode_crashes_past_end :
    let body : Container.Body := ⟨1, #[.entry], #[2], [0x00], [], false⟩
    body.sectionEnds.toList.Pairwise (· ≤ ·) ∧ body.slice? 0 = none ∧
      (body.read 0 : Attempt CodeRejection _) = .error .crashed ∧
      validateCode (Container.ofBody body).body = .error .crashed := by
  intro body
  exact ⟨by decide, by decide +kernel, eq_error_of_match (by decide +kernel),
    eq_error_of_match (by decide +kernel)⟩

end Validation

end EvmObject
