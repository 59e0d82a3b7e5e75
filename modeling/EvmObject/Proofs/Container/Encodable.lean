import EvmObject.Proofs.Container.Body
import EvmObject.Proofs.Container.Sections

/-!
# Bodies that survive being written

A body put together by hand is written without being asked whether its sizes can be declared: each
is cut to sixteen bits, and a size that is cut to zero is not declared at all. What is written is
then not a container, and the reader notices, because cut sizes add up to less than the bytes that
follow the header. `Body.Consistent` and `Body.Encodable` state what is asked, and
`Container.decode_ofBody` is the main result.
-/

namespace EvmObject.Container

/-! ## The statement -/

namespace Body

/-- The fields of the body fit together: the ends ascend up to the end of the code, and signatures
that need not be written are the one that is meant then. -/
structure Consistent (body : Body) : Prop where
  sorted : body.sectionEnds.toList.Pairwise (· ≤ ·)
  /-- The last section ends where the code does; without sections there is no code. -/
  last : body.sectionEnds.back?.getD 0 = body.code.length
  signatures : if body.isTypesImplicit then body.signatures = #[.entry] else body.signatures ≠ #[]

/-- A header can declare all sections of the body. -/
structure Encodable (body : Body) : Prop where
  version_ne : body.version ≠ 0
  count : 1 ≤ body.codeCount ∧ body.codeCount ≤ Limits.codeSections
  sizes : ∀ section? ∈ body.sections, ∃ code, section? = some code ∧
    1 ≤ code.length ∧ code.length < 0x10000
  data : body.data.length < 0x10000
  signatures : body.isTypesImplicit = true ∧ body.codeCount = 1 ∨
    body.isTypesImplicit = false ∧ body.signatures.size = body.codeCount ∧
      body.signatures[0]? = some .entry

/-! ## Sizes of a consistent body -/

/-- The sizes of the code sections, not cut. -/
def sizes (body : Body) : List Nat :=
  (spans 0 body.sectionEnds.toList).map fun span => span.2 - span.1

theorem length_writtenTypes (body : Body) :
    body.writtenTypes.length = if body.isTypesImplicit then 0 else 2 * body.signatures.size := by
  rw [writtenTypes]
  cases body.isTypesImplicit with
  | true => rfl
  | false => exact Signature.length_flatMap_encode body.signatures.toList

/-- The declared size of the signatures is the real one, cut. -/
theorem toNat_typesSize_header (body : Body) :
    body.header.typesSize.toNat = body.writtenTypes.length % 0x10000 := by
  rw [length_writtenTypes, header]
  cases body.isTypesImplicit with
  | true => rfl
  | false => exact UInt16.toNat_ofNat'

theorem codeSizes_header (body : Body) :
    body.header.codeSizes.toList = body.sizes.map UInt16.ofNat := by
  rw [header, List.toList_toArray, sizesFrom_eq, sizes, List.map_map]
  rfl

theorem declaredTotal_header (body : Body) :
    body.header.declaredTotal = total (body.sizes.map fun size => (UInt16.ofNat size).toNat) := by
  rw [Header.declaredTotal, codeSizes_header, List.map_map]
  rfl

/-- Uncut sizes are declared as they are, so none is declared as zero unless it is. -/
theorem codeSizes_ne_zero_iff {body : Body} (hsizes : ∀ size ∈ body.sizes, size < 0x10000) :
    (∀ size ∈ body.header.codeSizes, size ≠ 0) ↔ ∀ size ∈ body.sizes, 1 ≤ size := by
  have hlist : (∀ size ∈ body.header.codeSizes, size ≠ 0) ↔
      ∀ size ∈ body.sizes, UInt16.ofNat size ≠ 0 := by
    simp only [← Array.mem_toList_iff, codeSizes_header, List.forall_mem_map]
  rw [hlist]
  refine forall_congr' fun size => forall_congr' fun hmem => ?_
  have hsmall := hsizes size hmem
  rw [ne_eq, ← UInt16.toNat_inj, UInt16.toNat_ofNat', Nat.mod_eq_of_lt hsmall, UInt16.toNat_zero]
  omega

section
variable {body : Body} (hconsistent : body.Consistent)
include hconsistent

theorem Consistent.pairwise : (0 :: body.sectionEnds.toList).Pairwise (· ≤ ·) :=
  List.pairwise_cons.mpr ⟨fun stop _ => Nat.zero_le stop, hconsistent.sorted⟩

theorem Consistent.getLast? : body.sectionEnds.toList.getLast?.getD 0 = body.code.length := by
  rw [Array.getLast?_toList]
  exact hconsistent.last

theorem Consistent.total_sizes : total body.sizes = body.code.length := by
  have hsum := total_spans hconsistent.pairwise
  rw [hconsistent.getLast?, Nat.zero_add] at hsum
  exact hsum

/-- What holds of the size of every section can be read off the ends. -/
theorem Consistent.forall_sections_iff (P : Nat → Prop) :
    (∀ section? ∈ body.sections, ∃ code, section? = some code ∧ P code.length) ↔
      ∀ size ∈ body.sizes, P size := by
  have hslice : ∀ span ∈ spans 0 body.sectionEnds.toList, ∃ code,
      Bytes.slice? body.code span.1 span.2 = some code ∧ code.length = span.2 - span.1 := by
    intro span hmem
    have hbounds := le_of_mem_spans hconsistent.pairwise hmem
    rw [hconsistent.getLast?] at hbounds
    have hcode : Bytes.slice? body.code span.1 span.2 =
        some ((body.code.drop span.1).take (span.2 - span.1)) := by
      rw [Bytes.slice?, if_pos hbounds]
    exact ⟨_, hcode, Bytes.length_slice? hcode⟩
  rw [sections_eq, sizes, List.forall_mem_map, List.forall_mem_map]
  refine forall_congr' fun span => forall_congr' fun hmem => ?_
  obtain ⟨code, hcode, hlength⟩ := hslice span hmem
  rw [← hlength]
  constructor
  · rintro ⟨_, hget, hP⟩
    rw [hcode] at hget
    rwa [Option.some.inj hget]
  · intro hP
    exact ⟨code, hcode, hP⟩

theorem Consistent.exists_slice? {index : Nat} (hindex : index < body.codeCount) :
    ∃ code, body.slice? index = some code := by
  have hall := (hconsistent.forall_sections_iff fun _ => True).mpr fun _ _ => trivial
  obtain ⟨code, hcode, _⟩ := hall _ (List.mem_of_getElem? (getElem?_sections hindex))
  exact ⟨code, hcode⟩

/-- A header whose sizes are not cut fits the body. -/
theorem Consistent.fits_header (hsizes : ∀ size ∈ body.sizes, size < 0x10000)
    (htypes : body.writtenTypes.length < 0x10000) (hdata : body.data.length < 0x10000) :
    body.header.Fits body := by
  have htypesSize : body.header.typesSize.toNat = body.writtenTypes.length := by
    rw [toNat_typesSize_header]
    exact Nat.mod_eq_of_lt htypes
  have hhasTypes : body.header.hasTypes = !body.isTypesImplicit := by
    have hlength := htypesSize
    have hsignatures := hconsistent.signatures
    rw [length_writtenTypes] at hlength
    cases himplicit : body.isTypesImplicit with
    | true =>
      rw [Header.hasTypes, header, himplicit]
      rfl
    | false =>
      -- there is a signature, so the size that is declared is not zero
      rw [himplicit, if_neg Bool.false_ne_true] at hlength hsignatures
      have hsome : 0 < body.signatures.size := Array.size_pos_iff.mpr hsignatures
      rw [Header.hasTypes, Bool.not_false, bne_iff_ne]
      intro hzero
      rw [hzero, UInt16.toNat_zero] at hlength
      omega
  have hends : endsFrom 0 body.header.codeSizes.toList = body.sectionEnds.toList := by
    rw [header, List.toList_toArray]
    exact endsFrom_sizesFrom hconsistent.pairwise fun span hmem =>
      hsizes _ (List.mem_map_of_mem hmem)
  have hdataSize : body.header.dataSize.toNat = body.data.length := by
    rw [header, UInt16.toNat_ofNat']
    exact Nat.mod_eq_of_lt hdata
  exact ⟨rfl, hhasTypes, htypesSize, hends, rfl, hdataSize⟩

/-- **The reader notices a cut.** If the declared sizes, cut or not, add up to what the body takes,
none of them is cut. -/
theorem Consistent.not_cut
    (hlength : body.encode.length =
      body.header.typesSize.toNat + body.header.declaredTotal + body.header.dataSize.toNat) :
    (∀ size ∈ body.sizes, size < 0x10000) ∧ body.writtenTypes.length < 0x10000 ∧
      body.data.length < 0x10000 := by
  obtain ⟨hle, heq⟩ := total_cut_le body.sizes
  have hdata : body.header.dataSize.toNat = body.data.length % 0x10000 := UInt16.toNat_ofNat'
  rw [encode_eq, List.length_append, List.length_append, toNat_typesSize_header,
    declaredTotal_header, hdata] at hlength
  rw [hconsistent.total_sizes] at hle heq
  refine ⟨heq (by omega), by omega, by omega⟩

/-- The counts of the declared sections are right exactly if those of the body are. -/
theorem Consistent.checkCounts_iff (htypes : body.writtenTypes.length < 0x10000) :
    body.header.checkCounts = .ok () ↔
      (1 ≤ body.codeCount ∧ body.codeCount ≤ Limits.codeSections) ∧
        (body.isTypesImplicit = true ∧ body.codeCount = 1 ∨
          body.isTypesImplicit = false ∧ body.signatures.size = body.codeCount) := by
  have hsize : body.header.typesSize.toNat = body.writtenTypes.length := by
    rw [toNat_typesSize_header]
    exact Nat.mod_eq_of_lt htypes
  have hzero : body.header.typesSize = 0 ↔ body.writtenTypes.length = 0 := by
    rw [← hsize, ← UInt16.toNat_inj, UInt16.toNat_zero]
  have hsignatures := hconsistent.signatures
  rw [Header.checkCounts_eq_ok_iff, size_codeSizes_header, hzero, hsize, length_writtenTypes]
  refine and_congr_right fun hbounds => ?_
  cases himplicit : body.isTypesImplicit with
  | true =>
    simp only [if_true, Bool.true_eq_false, false_and, or_false, true_and]
    omega
  | false =>
    rw [himplicit, if_neg Bool.false_ne_true] at hsignatures
    have hsome : 0 < body.signatures.size := Array.size_pos_iff.mpr hsignatures
    simp only [Bool.false_eq_true, if_false, false_and, false_or, true_and]
    omega

theorem Consistent.declaredTotal_eq (hsizes : ∀ size ∈ body.sizes, size < 0x10000) :
    body.header.declaredTotal = body.code.length := by
  rw [declaredTotal_header, map_cut_eq hsizes, hconsistent.total_sizes]

theorem Consistent.signatures_of_implicit (himplicit : body.isTypesImplicit = true) :
    body.signatures = #[.entry] := by
  have hsignatures := hconsistent.signatures
  rwa [himplicit, if_pos rfl] at hsignatures

/-- **A body is encodable** exactly if its header can be read and fits it and the entry is first. -/
theorem Consistent.encodable_iff :
    body.Encodable ↔
      body.header.IsProper ∧ body.header.Fits body ∧ body.signatures[0]? = some .entry := by
  constructor
  · intro hencodable
    have hsizes := (hconsistent.forall_sections_iff fun size => 1 ≤ size ∧ size < 0x10000).mp
      hencodable.sizes
    have hsmall : ∀ size ∈ body.sizes, size < 0x10000 := fun size hmem => (hsizes size hmem).2
    -- two bytes for each of at most 1024 sections
    have htypes : body.writtenTypes.length < 0x10000 := by
      have hcount := hencodable.count.2
      rw [length_writtenTypes]
      rcases hencodable.signatures with ⟨himplicit, _⟩ | ⟨himplicit, hsize, _⟩
      · rw [himplicit, if_pos rfl]
        decide
      · rw [himplicit, if_neg Bool.false_ne_true, hsize]
        rw [Limits.codeSections] at hcount
        omega
    have hfits := hconsistent.fits_header hsmall htypes hencodable.data
    have hne := (codeSizes_ne_zero_iff hsmall).mpr fun size hmem => (hsizes size hmem).1
    have hcounts := (hconsistent.checkCounts_iff htypes).mpr
      ⟨hencodable.count, hencodable.signatures.imp id fun hexplicit => ⟨hexplicit.1, hexplicit.2.1⟩⟩
    have htotal := hconsistent.declaredTotal_eq hsmall
    refine ⟨⟨hencodable.version_ne, hne, hcounts, htotal.symm⟩, hfits, ?_⟩
    rcases hencodable.signatures with ⟨himplicit, _⟩ | ⟨_, _, hentry⟩
    · rw [hconsistent.signatures_of_implicit himplicit]
      rfl
    · exact hentry
  · rintro ⟨hproper, hfits, hentry⟩
    have hlength : body.encode.length = body.header.typesSize.toNat + body.header.declaredTotal +
        body.header.dataSize.toNat := by
      rw [encode_eq, List.length_append, List.length_append, hfits.typesSize_eq,
        hfits.dataSize_eq, ← hproper.codeTotal_eq, hfits.codeTotal_eq]
    -- the sections that fit take as many bytes as the header says, so no size is cut
    obtain ⟨hsmall, htypes, hdata⟩ := hconsistent.not_cut hlength
    obtain ⟨hcount, hsignatures⟩ := (hconsistent.checkCounts_iff htypes).mp hproper.counts
    have hpositive := (codeSizes_ne_zero_iff hsmall).mp hproper.sizes_ne
    refine ⟨hproper.version_ne, hcount, ?_, hdata, ?_⟩
    · exact (hconsistent.forall_sections_iff fun size => 1 ≤ size ∧ size < 0x10000).mpr
        fun size hmem => ⟨hpositive size hmem, hsmall size hmem⟩
    · exact hsignatures.imp id fun hexplicit => ⟨hexplicit.1, hexplicit.2, hentry⟩

end

end Body

/-! ## Reading -/

namespace Body

theorem pairwise_endsFrom (start : Nat) (sizes : List UInt16) :
    (start :: endsFrom start sizes).Pairwise (· ≤ ·) := by
  induction sizes generalizing start with
  | nil => exact List.pairwise_singleton _ _
  | cons size rest ih =>
    have htail := ih (start + size.toNat)
    obtain ⟨hbehind, _⟩ := List.pairwise_cons.mp htail
    rw [endsFrom, List.pairwise_cons]
    refine ⟨fun stop hmem => ?_, htail⟩
    rcases List.mem_cons.mp hmem with rfl | hmem
    · exact Nat.le_add_right _ _
    · exact Nat.le_trans (Nat.le_add_right _ _) (hbehind stop hmem)

theorem getLast?_endsFrom (start : Nat) (sizes : List UInt16) :
    (endsFrom start sizes).getLast?.getD start = start + total (sizes.map UInt16.toNat) := by
  induction sizes generalizing start with
  | nil => rfl
  | cons size rest ih =>
    rw [endsFrom, List.getLast?_cons, Option.getD_some, ih, List.map_cons, total_cons,
      Nat.add_assoc]

end Body

/-- The fields of a body that is read fit together. -/
theorem consistent_of_decode {raw : Bytes} {container : Container}
    (hdecode : decode raw = .ok container) : container.body.Consistent := by
  obtain ⟨⟨read, hheader⟩, hbody, _⟩ := decode_eq_ok_iff.mp hdecode
  have hproper := (Header.decode_eq_ok_iff.mp hheader).1
  have hcode : container.header.codeTotal = container.body.code.length := by
    rw [← (readFrom_of_decode hdecode).header_eq]
    rfl
  obtain ⟨signatures, heq, hhead, hsignatures⟩ := Body.eq_of_decode hbody
  have hends : container.body.sectionEnds.toList =
      Body.endsFrom 0 container.header.codeSizes.toList := by
    rw [heq]
  refine ⟨?_, ?_, ?_⟩
  · rw [hends]
    exact (List.pairwise_cons.mp (Body.pairwise_endsFrom 0 _)).2
  · rw [← Array.getLast?_toList, hends, Body.getLast?_endsFrom, Nat.zero_add, ← hcode]
    exact hproper.codeTotal_eq.symm
  · rw [heq]
    cases hhas : container.header.hasTypes with
    | true =>
      rw [Bool.not_true, if_neg Bool.false_ne_true]
      intro hnone
      obtain rfl : signatures = [] := by simpa using hnone
      cases hhead
    | false =>
      rw [hhas, if_neg Bool.false_ne_true] at hsignatures
      rw [Bool.not_false, if_pos rfl, hsignatures]

/-! ## Writing, then reading -/

/-- What is read from a written body is the container of that body, and only an encodable body is
read. -/
theorem decode_ofBody_eq_ok_iff {body : Body} {container : Container}
    (hconsistent : body.Consistent) :
    decode (ofBody body).raw = .ok container ↔ container = ofBody body ∧ body.Encodable := by
  have hlength : body.header.encode.length = body.header.size := body.header.length_encode
  rw [decode_eq_ok_iff, hconsistent.encodable_iff]
  constructor
  · rintro ⟨⟨read, hheader⟩, hbody, hraw⟩
    obtain ⟨_, hfound⟩ := Header.decode_encode_inv hheader
    obtain ⟨hproper, _⟩ := Header.decode_eq_ok_iff.mp hheader
    -- the reader computed the total from the declared sizes and compared it with what there is
    have htotal := Body.length_of_decode hbody
    rw [hfound, ofBody, List.length_append, hlength] at htotal
    obtain ⟨hsmall, htypes, hdata⟩ := hconsistent.not_cut (Nat.add_left_cancel htotal)
    have hfits := hconsistent.fits_header hsmall htypes hdata
    -- nothing was cut, so the total that the reader computes is that of the body
    have heq : container.header = body.header := by
      rw [hfound, hconsistent.declaredTotal_eq hsmall]
      rfl
    rw [heq] at hbody hproper
    obtain ⟨hsame, hentry⟩ :=
      (Body.decode_of_fits hfits hlength hconsistent.signatures_of_implicit).mp hbody
    refine ⟨?_, hproper, hfits, hentry⟩
    obtain ⟨_, _, _⟩ := container
    rw [ofBody, Container.mk.injEq]
    exact ⟨heq, hsame, hraw⟩
  · rintro ⟨rfl, hproper, hfits, hentry⟩
    have hheader : Header.decode (ofBody body).raw = .ok (body.header, body.header.size) :=
      Header.decode_eq_ok_iff.mpr ⟨hproper, rfl, body.encode, rfl⟩
    have hbody : Body.decode (ofBody body).raw body.header = .ok body :=
      (Body.decode_of_fits hfits hlength hconsistent.signatures_of_implicit).mpr ⟨rfl, hentry⟩
    exact ⟨⟨_, hheader⟩, hbody, rfl⟩

/-- The body of a container that is read can be declared. -/
theorem encodable_of_decode {raw : Bytes} {container : Container}
    (hdecode : decode raw = .ok container) : container.body.Encodable := by
  have hback : decode (ofBody container.body).raw = .ok container := by
    rw [ofBody_of_decode hdecode, (readFrom_of_decode hdecode).raw_eq]
    exact hdecode
  exact ((decode_ofBody_eq_ok_iff (consistent_of_decode hdecode)).mp hback).2

/-- **A written body reads back unchanged or not at all.** Reading refuses it or gives the very
container that was written, and gives one exactly if every section can be declared: no size that was
cut to sixteen bits is ever accepted. -/
theorem decode_ofBody {body : Body} (hconsistent : body.Consistent) :
    ((∃ error, decode (ofBody body).raw = .error (.refused error)) ∨
        decode (ofBody body).raw = .ok (ofBody body)) ∧
      ((∃ container, decode (ofBody body).raw = .ok container) ↔ body.Encodable) := by
  refine ⟨?_, ?_, ?_⟩
  · cases hdecode : decode (ofBody body).raw with
    | error failure =>
      cases failure with
      | refused error => exact .inl ⟨error, rfl⟩
      | crashed => exact absurd hdecode (decode_ne_crashed _)
    | ok container =>
      rw [((decode_ofBody_eq_ok_iff hconsistent).mp hdecode).1]
      exact .inr rfl
  · rintro ⟨container, hdecode⟩
    exact ((decode_ofBody_eq_ok_iff hconsistent).mp hdecode).2
  · intro hencodable
    exact ⟨ofBody body, (decode_ofBody_eq_ok_iff hconsistent).mpr ⟨rfl, hencodable⟩⟩

/-- Two sections and three bytes of data read back; with one byte of data too many for sixteen bits
the same body is refused. -/
theorem decode_ofBody_two_sections :
    let body (size : Nat) : Body := ⟨1, #[.entry, ⟨1, 2⟩], #[4, 6], [0xB0, 0, 1, 0, 0x80, 0xB1],
      List.replicate size 7, false⟩
    (body 3).Encodable ∧ decode (ofBody (body 3)).raw = .ok (ofBody (body 3)) ∧
      ∃ error, decode (ofBody (body 0x10000)).raw = .error (.refused error) := by
  intro body
  have hsorted : [4, 6].Pairwise (· ≤ ·) := by decide
  have hconsistent (size : Nat) : (body size).Consistent := ⟨hsorted, rfl, by simp [body]⟩
  have hdecode : decode (ofBody (body 3)).raw = .ok (ofBody (body 3)) :=
    eq_ok_of_toOption (by decide +kernel)
  obtain ⟨hrefused, hok⟩ := decode_ofBody (hconsistent 0x10000)
  refine ⟨(decode_ofBody (hconsistent 3)).2.mp ⟨_, hdecode⟩, hdecode, hrefused.resolve_right ?_⟩
  intro hread
  have hdata := (hok.mp ⟨_, hread⟩).data
  rw [List.length_replicate] at hdata
  exact Nat.lt_irrefl _ hdata

end EvmObject.Container
