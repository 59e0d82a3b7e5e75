import EvmObject.Proofs.Container.Header

/-!
# The layout of sections as a grammar

A header takes its descriptors one by one, and its fields are all that it knows of those before: no
code sizes means that no code was met, a size of zero that a section was not met. Here the same is
said without that state. A `Plan` is what the grammar `TYPE? CODE* DATA?` reads, descriptors are
`InOrder` as long as some continuation of them reads `TYPE? CODE+ DATA?`, and `offence?` names the
error of the first one behind which there is no such continuation.

* `exists_foldlM_take_iff`: descriptors are taken as long as they are in order.
* `Header.take_eq_error_iff`: the error for the next one is read off the kinds in front of it.
* `ofDescriptors_exact`: what is accepted, and what everything else is refused for.
-/

namespace EvmObject.Container

/-! ## The statement -/

/-- The sizes of sections, in the order in which they may stand. -/
structure Plan where
  types? : Option UInt16
  codes : List UInt16
  data? : Option UInt16

namespace Plan

/-- The descriptors that the grammar reads as these sizes. -/
def descriptors (plan : Plan) : List Descriptor :=
  plan.types?.toList.map (⟨SectionKind.types.byte, ·⟩) ++
    plan.codes.map (⟨SectionKind.code.byte, ·⟩) ++
    plan.data?.toList.map (⟨SectionKind.data.byte, ·⟩)

/-- The header of these sizes; the size of an absent section is zero. -/
def header (plan : Plan) (version : UInt8) : Header where
  version := version
  typesSize := plan.types?.getD 0
  codeSizes := plan.codes.toArray
  dataSize := plan.data?.getD 0
  codeTotal := total (plan.codes.map UInt16.toNat)

/-- There are code sections but not too many, with two bytes of types for each; a single one can do
without types. -/
structure IsBalanced (plan : Plan) : Prop where
  count : 1 ≤ plan.codes.length ∧ plan.codes.length ≤ Limits.codeSections
  types : (∃ size, plan.types? = some size ∧ size.toNat = 2 * plan.codes.length) ∨
    plan.types? = none ∧ plan.codes.length = 1

/-- What is wrong with the number of sections. Each ground counts only if those above do not. -/
inductive Miscount (plan : Plan) : Error → Prop where
  | noCode (hnone : plan.codes = []) : Miscount plan .noCodeSection
  | tooMany (hmany : Limits.codeSections < plan.codes.length) :
      Miscount plan .tooManyCodeSections
  | typesSize (size : UInt16) (hsome : plan.codes ≠ [])
      (hfew : plan.codes.length ≤ Limits.codeSections) (htypes : plan.types? = some size)
      (hsize : size.toNat ≠ 2 * plan.codes.length) : Miscount plan .invalidTypeSectionSize
  | noTypes (hseveral : 1 < plan.codes.length)
      (hfew : plan.codes.length ≤ Limits.codeSections) (htypes : plan.types? = none) :
      Miscount plan .missingTypeSection

end Plan

/-- Some continuation of the descriptors reads `TYPE? CODE+ DATA?`. -/
def InOrder (ds : List Descriptor) : Prop :=
  ∃ plan more, plan.codes ≠ [] ∧ ds ++ more = Plan.descriptors plan

/-- A section of the kind is declared. -/
def Declares (ds : List Descriptor) (kind : SectionKind) : Prop :=
  ∃ d ∈ ds, d.kind = kind.byte

instance (ds : List Descriptor) (kind : SectionKind) : Decidable (Declares ds kind) :=
  inferInstanceAs (Decidable (∃ d ∈ ds, d.kind = kind.byte))

/-- The error for a descriptor that may not stand behind others: the first ground that applies. -/
def offence? (before : List Descriptor) (next : Descriptor) : Option Error :=
  if SectionKind.ofByte? next.kind = none then some .unknownSectionKind
  else if next.kind = SectionKind.data.byte ∧ ¬ Declares before .code then
    some .dataBeforeCode
  else if next.kind = SectionKind.types.byte ∧ (Declares before .code ∨ Declares before .data) then
    some .codeOrDataBeforeType
  else if next.kind = SectionKind.types.byte ∧ Declares before .types then
    some .multipleTypeSections
  else if next.kind = SectionKind.data.byte ∧ Declares before .data then
    some .multipleDataSections
  else if next.kind = SectionKind.code.byte ∧ Declares before .data then some .codeAfterData
  else none

/-- What descriptors are refused for. -/
inductive LayoutRefusal (ds : List Descriptor) : Error → Prop where
  /-- The first descriptor that is out of order, whatever follows it. -/
  | order (before after : List Descriptor) (next : Descriptor) (error : Error)
      (hsplit : ds = before ++ next :: after) (hbefore : InOrder before)
      (hnext : ¬ InOrder (before ++ [next])) (hoffence : offence? before next = some error) :
      LayoutRefusal ds error
  /-- The number of sections, if all descriptors are in order. -/
  | counts (plan : Plan) (error : Error) (hplan : ds = plan.descriptors) (horder : InOrder ds)
      (hcounts : plan.Miscount error) : LayoutRefusal ds error

/-! ## Plans and headers -/

theorem Plan.foldlM_take (plan : Plan) (version : UInt8) :
    plan.descriptors.foldlM Header.take (.bare version) =
      if plan.data?.isSome && plan.codes.isEmpty then .error .dataBeforeCode
      else .ok (plan.header version) := by
  obtain ⟨types?, codes, data?⟩ := plan
  have htypes : (types?.toList.map fun size => (⟨SectionKind.types.byte, size⟩ : Descriptor)).foldlM
      Header.take (.bare version) = .ok ⟨version, types?.getD 0, #[], 0, 0⟩ := by
    cases types? <;> rfl
  have hcodes := Header.foldlM_take_code codes ⟨version, types?.getD 0, #[], 0, 0⟩ rfl
  unfold descriptors
  rw [List.foldlM_append, List.foldlM_append, htypes, ok_bind, hcodes, ok_bind]
  -- what is left is the data descriptor, if there is one
  cases data? with
  | none => simp [header, pure, Except.pure]
  | some size => cases codes <;> simp [header, Header.take, Header.hasData]

/-- The plan that a header writes. -/
def Header.plan (header : Header) : Plan where
  types? := if header.hasTypes then some header.typesSize else none
  codes := header.codeSizes.toList
  data? := if header.hasData then some header.dataSize else none

namespace Header

theorem descriptors_plan (header : Header) : header.plan.descriptors = header.descriptors := by
  unfold plan Plan.descriptors descriptors
  cases header.hasTypes <;> cases header.hasData <;> rfl

theorem header_plan {header : Header} (htotal : header.codeTotal = header.declaredTotal) :
    header.plan.header header.version = header := by
  have htypes : (if header.hasTypes then some header.typesSize else none).getD 0 =
      header.typesSize := by
    by_cases hzero : header.typesSize = 0 <;> simp [hasTypes, hzero]
  have hdata : (if header.hasData then some header.dataSize else none).getD 0 =
      header.dataSize := by
    by_cases hzero : header.dataSize = 0 <;> simp [hasData, hzero]
  unfold plan Plan.header
  simp only [htypes, hdata, Array.toArray_toList]
  rw [declaredTotal] at htotal
  rw [← htotal]

/-! ## What a header knows of the descriptors before -/

theorem declares_types_iff (header : Header) :
    Declares header.descriptors .types ↔ header.hasTypes = true := by
  cases htypes : header.hasTypes <;> cases hdata : header.hasData <;>
    simp [Declares, descriptors, htypes, hdata, SectionKind.byte]

theorem declares_code_iff (header : Header) :
    Declares header.descriptors .code ↔ header.codeSizes.isEmpty = false := by
  rw [← Array.isEmpty_toList]
  cases htypes : header.hasTypes <;> cases hdata : header.hasData <;>
    cases hsizes : header.codeSizes.toList <;>
      simp [Declares, descriptors, htypes, hdata, hsizes, SectionKind.byte, or_and_right,
        exists_or]

theorem declares_data_iff (header : Header) :
    Declares header.descriptors .data ↔ header.hasData = true := by
  cases htypes : header.hasTypes <;> cases hdata : header.hasData <;>
    simp [Declares, descriptors, htypes, hdata, SectionKind.byte]

/-- **The error for the next descriptor** is read off the kinds in front of it. -/
theorem take_eq_error_iff {header : Header} {next : Descriptor} {error : Error} :
    header.take next = .error error ↔ offence? header.descriptors next = some error := by
  unfold take offence?
  simp only [declares_types_iff, declares_code_iff, declares_data_iff]
  cases hkind : SectionKind.ofByte? next.kind with
  | none => simp
  | some kind =>
    rw [← SectionKind.byte_of_ofByte? hkind]
    cases kind <;> cases header.codeSizes.isEmpty <;> cases header.hasTypes <;>
      cases header.hasData <;> simp [SectionKind.byte]

end Header

/-! ## Descriptors in order -/

section
variable {ds : List Descriptor}

theorem reads_of_foldlM_take {version : UInt8} {header : Header} (hsizes : ∀ d ∈ ds, d.size ≠ 0)
    (hfold : ds.foldlM Header.take (.bare version) = .ok header) :
    header.version = version ∧ header.descriptors = ds ∧
      header.codeTotal = header.declaredTotal := by
  have hreads := (Header.Reads.bare version).foldlM_take hsizes hfold
  exact ⟨hreads.version_eq, hreads.descriptors_eq, hreads.codeTotal_eq⟩

/-- Behind a header that was taken there is room for what is missing: code, if there is none. -/
theorem inOrder_descriptors {header : Header}
    (hdata : header.hasData = true → header.codeSizes.toList ≠ []) :
    InOrder header.descriptors := by
  by_cases hcodes : header.codeSizes.toList = []
  · have hnone : header.hasData = false := by
      cases hhas : header.hasData with
      | false => rfl
      | true => exact absurd hcodes (hdata hhas)
    refine ⟨{ header.plan with codes := [1] }, [⟨SectionKind.code.byte, 1⟩], by simp, ?_⟩
    rw [← header.descriptors_plan]
    simp [Plan.descriptors, Header.plan, hcodes, hnone]
  · exact ⟨header.plan, [], hcodes, by rw [List.append_nil, header.descriptors_plan]⟩

/-- **Descriptors are taken as long as they are in order.** -/
theorem exists_foldlM_take_iff (version : UInt8) (hsizes : ∀ d ∈ ds, d.size ≠ 0) :
    (∃ header, ds.foldlM Header.take (.bare version) = .ok header) ↔ InOrder ds := by
  constructor
  · rintro ⟨header, hfold⟩
    obtain ⟨rfl, rfl, _⟩ := reads_of_foldlM_take hsizes hfold
    apply inOrder_descriptors
    intro hhas hcodes
    -- the header's own descriptors are not taken back if there is data and no code
    rw [Header.foldlM_take_descriptors, if_pos] at hfold
    · cases hfold
    · rw [hhas, ← Array.isEmpty_toList, hcodes]
      rfl
  · rintro ⟨plan, more, hcodes, hplan⟩
    have hfold := plan.foldlM_take version
    rw [← hplan, List.foldlM_append, if_neg (by simp [hcodes])] at hfold
    obtain ⟨header, hheader, _⟩ := bind_eq_ok_iff.mp hfold
    exact ⟨header, hheader⟩

/-- The first descriptor that is not taken is the first that is out of order. -/
theorem foldlM_take_eq_error_iff {version : UInt8} {error : Error} (hsizes : ∀ d ∈ ds, d.size ≠ 0) :
    ds.foldlM Header.take (.bare version) = .error error ↔
      ∃ before after next, ds = before ++ next :: after ∧ InOrder before ∧
        ¬ InOrder (before ++ [next]) ∧ offence? before next = some error := by
  rw [foldlM_eq_error_iff]
  constructor
  · rintro ⟨before, next, after, header, rfl, hbefore, hnext⟩
    have hfront : ∀ d ∈ before, d.size ≠ 0 := fun d hmem => hsizes d (by simp [hmem])
    have hupTo : ∀ d ∈ before ++ [next], d.size ≠ 0 := fun d hmem => hsizes d (by
      rw [List.append_cons]
      exact List.mem_append_left _ hmem)
    obtain ⟨_, rfl, _⟩ := reads_of_foldlM_take hfront hbefore
    refine ⟨_, after, next, rfl, (exists_foldlM_take_iff version hfront).mp ⟨header, hbefore⟩, ?_,
      Header.take_eq_error_iff.mp hnext⟩
    intro horder
    obtain ⟨result, hresult⟩ := (exists_foldlM_take_iff version hupTo).mpr horder
    rw [List.foldlM_append, hbefore, ok_bind, List.foldlM_cons, hnext] at hresult
    cases hresult
  · rintro ⟨before, after, next, rfl, hbefore, _, hoffence⟩
    have hfront : ∀ d ∈ before, d.size ≠ 0 := fun d hmem => hsizes d (by simp [hmem])
    obtain ⟨header, hheader⟩ := (exists_foldlM_take_iff version hfront).mpr hbefore
    obtain ⟨_, rfl, _⟩ := reads_of_foldlM_take hfront hheader
    exact ⟨_, next, after, header, rfl, hheader, Header.take_eq_error_iff.mpr hoffence⟩

end

/-! ## Counts -/

namespace Plan

variable {plan : Plan}

theorem checkCounts_eq_ok_iff (version : UInt8) (htypes : plan.types? ≠ some 0) :
    (plan.header version).checkCounts = .ok () ↔ plan.IsBalanced := by
  obtain ⟨types?, codes, data?⟩ := plan
  rw [Header.checkCounts_eq_ok_iff]
  simp only [header, List.size_toArray]
  cases types? with
  | none =>
    simp only [Option.getD_none, UInt16.toNat_zero, true_and]
    constructor
    · rintro ⟨hcount, htypes | hone⟩
      · omega
      · exact ⟨hcount, .inr ⟨rfl, hone⟩⟩
    · rintro ⟨hcount, ⟨_, hsome, _⟩ | ⟨_, hone⟩⟩
      · cases hsome
      · exact ⟨hcount, .inr hone⟩
  | some size =>
    have hne : size ≠ 0 := fun hzero => htypes (by rw [hzero])
    simp only [Option.getD_some, hne, false_and, or_false]
    constructor
    · rintro ⟨hcount, hsize⟩
      exact ⟨hcount, .inl ⟨size, rfl, hsize⟩⟩
    · rintro ⟨hcount, ⟨_, hsome, hsize⟩ | ⟨hnone, _⟩⟩
      · rw [Option.some.inj hsome]
        exact ⟨hcount, hsize⟩
      · cases hnone

/-- The grounds are all that can be wrong. -/
theorem isBalanced_or_miscount (plan : Plan) :
    plan.IsBalanced ∨ ∃ error, plan.Miscount error := by
  by_cases hnone : plan.codes = []
  · exact .inr ⟨_, .noCode hnone⟩
  have hpos : plan.codes.length ≠ 0 := fun hzero => hnone (List.length_eq_zero_iff.mp hzero)
  by_cases hmany : Limits.codeSections < plan.codes.length
  · exact .inr ⟨_, .tooMany hmany⟩
  have hfew := Nat.le_of_not_lt hmany
  have hcount : 1 ≤ plan.codes.length ∧ plan.codes.length ≤ Limits.codeSections := by omega
  cases htypes : plan.types? with
  | some size =>
    by_cases hsize : size.toNat = 2 * plan.codes.length
    · exact .inl ⟨hcount, .inl ⟨size, htypes, hsize⟩⟩
    · exact .inr ⟨_, .typesSize size hnone hfew htypes hsize⟩
  | none =>
    by_cases hone : plan.codes.length = 1
    · exact .inl ⟨hcount, .inr ⟨htypes, hone⟩⟩
    · exact .inr ⟨_, .noTypes (by omega) hfew htypes⟩

theorem checkCounts_of_miscount (version : UInt8) {error : Error} (htypes : plan.types? ≠ some 0)
    (hcounts : plan.Miscount error) : (plan.header version).checkCounts = .error error := by
  have hsize : (plan.header version).codeSizes.size = plan.codes.length := rfl
  unfold Header.checkCounts
  simp only [hsize]
  cases hcounts with
  | noCode hnone => rw [if_pos (List.length_eq_zero_iff.mpr hnone)]
  | tooMany hmany => rw [if_neg (by omega), if_pos hmany]
  | typesSize size hsome hfew hsome? hwrong =>
    have hdeclared : (plan.header version).typesSize = size := by simp [header, hsome?]
    have hhas : (plan.header version).hasTypes = true := by
      rw [Header.hasTypes, hdeclared, bne_iff_ne]
      rintro rfl
      exact htypes hsome?
    have hpos : plan.codes.length ≠ 0 := fun hzero => hsome (List.length_eq_zero_iff.mp hzero)
    rw [if_neg hpos, if_neg (Nat.not_lt.mpr hfew), if_pos hhas, hdeclared, if_neg hwrong]
  | noTypes hseveral hfew hnone =>
    have hhas : (plan.header version).hasTypes = false := by
      simp [Header.hasTypes, header, hnone]
    rw [if_neg (by omega), if_neg (Nat.not_lt.mpr hfew), hhas, if_neg Bool.false_ne_true,
      if_neg (by omega)]

theorem checkCounts_eq_error_iff (version : UInt8) {error : Error} (htypes : plan.types? ≠ some 0) :
    (plan.header version).checkCounts = .error error ↔ plan.Miscount error := by
  constructor
  · intro hfails
    rcases plan.isBalanced_or_miscount with hbalanced | ⟨ground, hground⟩
    · rw [(checkCounts_eq_ok_iff version htypes).mpr hbalanced] at hfails
      cases hfails
    · rw [checkCounts_of_miscount version htypes hground] at hfails
      rwa [← Except.error.inj hfails]
  · exact checkCounts_of_miscount version htypes

/-- A size that is declared is not zero, so it is told from an absent section. -/
theorem types_ne_zero (hsizes : ∀ d ∈ plan.descriptors, d.size ≠ 0) : plan.types? ≠ some 0 := by
  intro hzero
  apply hsizes ⟨SectionKind.types.byte, 0⟩
  · simp [descriptors, hzero]
  · rfl

theorem foldlM_take_of_inOrder (version : UInt8) (horder : InOrder plan.descriptors)
    (hsizes : ∀ d ∈ plan.descriptors, d.size ≠ 0) :
    plan.descriptors.foldlM Header.take (.bare version) = .ok (plan.header version) := by
  obtain ⟨header, hheader⟩ := (exists_foldlM_take_iff version hsizes).mpr horder
  have hfold := plan.foldlM_take version
  split at hfold
  · rw [hfold] at hheader
    cases hheader
  · exact hfold

end Plan

/-! ## The verdict -/

namespace Header

variable {ds : List Descriptor} {version : UInt8}

theorem ofDescriptors_eq_ok_iff_plan {header : Header} (hsizes : ∀ d ∈ ds, d.size ≠ 0) :
    ofDescriptors version ds = .ok header ↔
      ∃ plan : Plan, ds = plan.descriptors ∧ plan.IsBalanced ∧ header = plan.header version := by
  constructor
  · intro hok
    obtain ⟨⟨rfl, rfl, htotal⟩, hcounts⟩ := reads_of_ofDescriptors hsizes hok
    rw [← descriptors_plan] at hsizes
    rw [← header_plan htotal, Plan.checkCounts_eq_ok_iff _ (Plan.types_ne_zero hsizes)] at hcounts
    exact ⟨header.plan, header.descriptors_plan.symm, hcounts, (header_plan htotal).symm⟩
  · rintro ⟨plan, rfl, hbalanced, rfl⟩
    have hcodes : plan.codes ≠ [] := by
      rintro hnone
      have hcount := hbalanced.count.1
      rw [hnone] at hcount
      exact absurd hcount (by decide)
    have hfold := Plan.foldlM_take_of_inOrder version ⟨plan, [], hcodes, List.append_nil _⟩ hsizes
    have hcounts := (Plan.checkCounts_eq_ok_iff version (Plan.types_ne_zero hsizes)).mpr hbalanced
    rw [ofDescriptors, hfold, ok_bind, hcounts]
    rfl

theorem ofDescriptors_eq_error_iff {error : Error} (hsizes : ∀ d ∈ ds, d.size ≠ 0) :
    ofDescriptors version ds = .error error ↔ LayoutRefusal ds error := by
  rw [ofDescriptors, bind_eq_error_iff, foldlM_take_eq_error_iff hsizes]
  constructor
  · rintro (⟨before, after, next, hsplit, hbefore, hnext, hoffence⟩ | ⟨header, hfold, hrest⟩)
    · exact .order before after next error hsplit hbefore hnext hoffence
    · have horder := (exists_foldlM_take_iff version hsizes).mp ⟨header, hfold⟩
      obtain ⟨rfl, rfl, htotal⟩ := reads_of_foldlM_take hsizes hfold
      rcases bind_eq_error_iff.mp hrest with hcounts | ⟨_, _, hpure⟩
      · rw [← descriptors_plan] at hsizes
        rw [← header_plan htotal, Plan.checkCounts_eq_error_iff _ (Plan.types_ne_zero hsizes)]
          at hcounts
        exact .counts header.plan error header.descriptors_plan.symm horder hcounts
      · cases hpure
  · rintro (⟨before, after, next, _, hsplit, hbefore, hnext, hoffence⟩ |
      ⟨plan, _, rfl, horder, hcounts⟩)
    · exact .inl ⟨before, after, next, hsplit, hbefore, hnext, hoffence⟩
    · refine .inr ⟨plan.header version, Plan.foldlM_take_of_inOrder version horder hsizes, ?_⟩
      rw [(Plan.checkCounts_eq_error_iff _ (Plan.types_ne_zero hsizes)).mpr hcounts, error_bind]

/-- **The layout of sections is a grammar, and the first violation is reported.** Descriptors whose
sizes are not zero are accepted exactly if they read `TYPE? CODE+ DATA?` with a balanced number of
sections, and then the header has the declared sizes in order and the total of the code. All others
are refused. If one of them is the first out of order, then the error is the one for it, whatever
follows; otherwise it is the one for the number of sections. -/
theorem ofDescriptors_exact (version : UInt8) {ds : List Descriptor}
    (hsizes : ∀ d ∈ ds, d.size ≠ 0) :
    (∀ header, ofDescriptors version ds = .ok header ↔
      ∃ plan : Plan, ds = plan.descriptors ∧ plan.IsBalanced ∧ header = plan.header version) ∧
    ∀ error, ofDescriptors version ds = .error error ↔ LayoutRefusal ds error :=
  ⟨fun _ => ofDescriptors_eq_ok_iff_plan hsizes, fun _ => ofDescriptors_eq_error_iff hsizes⟩

/-- Types behind code are reported, though an unknown kind follows and no count would fit; without
these two and with as many types as needed in front, the code is accepted. -/
theorem ofDescriptors_exact_types_behind_code :
    let good : List Descriptor := [⟨3, 4⟩, ⟨1, 1⟩, ⟨1, 7⟩, ⟨2, 3⟩]
    let bad : List Descriptor := [⟨1, 1⟩, ⟨1, 7⟩, ⟨3, 9⟩, ⟨9, 1⟩]
    (∀ d ∈ good, d.size ≠ 0) ∧ ofDescriptors 1 good = .ok ⟨1, 4, #[1, 7], 3, 8⟩ ∧
      (∀ d ∈ bad, d.size ≠ 0) ∧ ofDescriptors 1 bad = .error .codeOrDataBeforeType := by
  intro good bad
  have hgood : ∀ d ∈ good, d.size ≠ 0 := by decide
  have hbad : ∀ d ∈ bad, d.size ≠ 0 := by decide
  have hfront : InOrder [⟨1, 1⟩, ⟨1, 7⟩] := ⟨⟨none, [1, 7], none⟩, [], by decide, rfl⟩
  have hbehind : ¬ InOrder [⟨1, 1⟩, ⟨1, 7⟩, ⟨3, 9⟩] := by
    intro horder
    obtain ⟨header, hheader⟩ := (exists_foldlM_take_iff 1 (by decide)).mpr horder
    cases hheader
  refine ⟨hgood, ((ofDescriptors_exact 1 hgood).1 _).mpr ?_, hbad,
    ((ofDescriptors_exact 1 hbad).2 _).mpr ?_⟩
  · exact ⟨⟨some 4, [1, 7], some 3⟩, rfl, ⟨by decide, .inl ⟨4, rfl, by decide⟩⟩, rfl⟩
  · exact .order [⟨1, 1⟩, ⟨1, 7⟩] [⟨9, 1⟩] ⟨3, 9⟩ _ rfl hfront hbehind (by decide)

end Header

end EvmObject.Container
