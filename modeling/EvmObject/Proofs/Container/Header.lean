import EvmObject.Container.Header
import EvmObject.Proofs.Container.Preamble

/-!
# Headers and their descriptors

A header keeps the sizes of its sections and forgets the order in which they were declared. That is
no loss, because only one order is accepted:

* `Header.Reads.take`: taking a descriptor appends it to the descriptors of the header, so a header
  built from descriptors writes the very same ones (`Header.reads_of_ofDescriptors`).
* `Header.ofDescriptors_descriptors`: the descriptors of any header lead back to it, with the total
  of its code sizes, if only its counts are right.

`Header.decode_eq_ok_iff` joins both with the reading of preambles.
-/

namespace EvmObject.Container

/-! ## Sizes -/

/-- Sizes together. -/
def total (sizes : List Nat) : Nat := sizes.foldr (· + ·) 0

@[simp] theorem total_nil : total [] = 0 := rfl

@[simp] theorem total_cons (size : Nat) (rest : List Nat) :
    total (size :: rest) = size + total rest := rfl

@[simp] theorem total_append (front rest : List Nat) :
    total (front ++ rest) = total front + total rest := by
  induction front with
  | nil => exact (Nat.zero_add _).symm
  | cons size front ih => rw [List.cons_append, total_cons, total_cons, ih, Nat.add_assoc]

namespace Header

/-- The declared code sizes together. -/
def declaredTotal (header : Header) : Nat :=
  total (header.codeSizes.toList.map UInt16.toNat)

/-- The preamble that a header is written as. -/
def preamble (header : Header) : Preamble :=
  ⟨header.version, header.descriptors, header.size⟩

theorem encode_eq_encode_preamble (header : Header) : header.encode = header.preamble.encode := rfl

theorem length_descriptors (header : Header) :
    header.descriptors.length = header.sectionCount := by
  simp only [descriptors, sectionCount, List.length_append, List.length_map, Array.length_toList]
  cases header.hasTypes <;> cases header.hasData <;> simp <;> omega

/-- A header takes as many bytes as it says. -/
theorem length_encode (header : Header) : header.encode.length = header.size := by
  rw [encode_eq_encode_preamble, Preamble.length_encode, size]
  simp only [preamble, length_descriptors]
  omega

theorem kind_ne_terminator {header : Header} {d : Descriptor} (hmem : d ∈ header.descriptors) :
    d.kind ≠ terminator := by
  simp only [descriptors, List.mem_append, List.mem_map] at hmem
  rcases hmem with (htypes | ⟨size, _, rfl⟩) | hdata
  · split at htypes
    · rw [List.mem_singleton.mp htypes]
      exact (by decide : SectionKind.types.byte ≠ terminator)
    · simp at htypes
  · exact (by decide : SectionKind.code.byte ≠ terminator)
  · split at hdata
    · rw [List.mem_singleton.mp hdata]
      exact (by decide : SectionKind.data.byte ≠ terminator)
    · simp at hdata

/-- The sizes that a header declares are not zero if those of its code sections are not. -/
theorem forall_isProper_iff {header : Header} :
    (∀ d ∈ header.descriptors, d.IsProper) ↔ ∀ size ∈ header.codeSizes, size ≠ 0 := by
  constructor
  · intro hproper size hmem
    exact (hproper ⟨SectionKind.code.byte, size⟩ (by simp [descriptors, hmem])).2
  · intro hsizes d hmem
    refine ⟨kind_ne_terminator hmem, ?_⟩
    simp only [descriptors, List.mem_append, List.mem_map, Array.mem_toList_iff] at hmem
    rcases hmem with (htypes | ⟨size, hsize, rfl⟩) | hdata
    · split at htypes
      · next hhas =>
        rw [List.mem_singleton.mp htypes]
        simpa [hasTypes] using hhas
      · simp at htypes
    · exact hsizes size hsize
    · split at hdata
      · next hhas =>
        rw [List.mem_singleton.mp hdata]
        simpa [hasData] using hhas
      · simp at hdata

/-! ## From descriptors to a header -/

/-- The header is what the descriptors taken so far make up. -/
structure Reads (header : Header) (version : UInt8) (taken : List Descriptor) : Prop where
  version_eq : header.version = version
  descriptors_eq : header.descriptors = taken
  codeTotal_eq : header.codeTotal = header.declaredTotal

theorem Reads.bare (version : UInt8) : (Header.bare version).Reads version [] :=
  ⟨rfl, rfl, rfl⟩

/-- **What a descriptor may be that is taken,** and what becomes of the header. -/
theorem take_cases {header result : Header} {d : Descriptor} (htake : header.take d = .ok result) :
    (d.kind = SectionKind.types.byte ∧
        (header.codeSizes = #[] ∧ header.dataSize = 0 ∧ header.typesSize = 0) ∧
        result = { header with typesSize := d.size }) ∨
      (d.kind = SectionKind.code.byte ∧ header.dataSize = 0 ∧
        result = { header with
          codeSizes := header.codeSizes.push d.size
          codeTotal := header.codeTotal + d.size.toNat }) ∨
      (d.kind = SectionKind.data.byte ∧ (header.codeSizes ≠ #[] ∧ header.dataSize = 0) ∧
        result = { header with dataSize := d.size }) := by
  unfold Header.take at htake
  cases hkind : SectionKind.ofByte? d.kind with
  | none => simp [hkind] at htake
  | some kind =>
    have hbyte := SectionKind.byte_of_ofByte? hkind
    cases kind with
    | types =>
      simp only [hkind] at htake
      split at htake
      · cases htake
      · next hfirst =>
        split at htake
        · cases htake
        · next htypes =>
          obtain rfl := Except.ok.inj htake
          simp only [hasTypes, hasData, Bool.or_eq_true, not_or, Bool.not_eq_true', bne_iff_ne,
            Bool.not_eq_false, ne_eq, Decidable.not_not, Array.isEmpty_iff] at hfirst htypes
          exact .inl ⟨hbyte.symm, ⟨hfirst.1, hfirst.2, htypes⟩, rfl⟩
    | code =>
      simp only [hkind] at htake
      split at htake
      · cases htake
      · next hdata =>
        obtain rfl := Except.ok.inj htake
        simp only [hasData, bne_iff_ne, ne_eq, Decidable.not_not] at hdata
        exact .inr (.inl ⟨hbyte.symm, hdata, rfl⟩)
    | data =>
      simp only [hkind] at htake
      split at htake
      · cases htake
      · next hsome =>
        split at htake
        · cases htake
        · next hdata =>
          obtain rfl := Except.ok.inj htake
          simp only [hasData, bne_iff_ne, ne_eq, Decidable.not_not,
            Array.isEmpty_iff] at hsome hdata
          exact .inr (.inr ⟨hbyte.symm, ⟨hsome, hdata⟩, rfl⟩)

/-- **Taking a descriptor appends it.** The order that is enforced is the order in which the header
writes its descriptors; a size of zero would not be written. -/
theorem Reads.take {header result : Header} {version : UInt8} {taken : List Descriptor}
    {d : Descriptor} (hreads : header.Reads version taken) (hsize : d.size ≠ 0)
    (htake : header.take d = .ok result) : result.Reads version (taken ++ [d]) := by
  obtain ⟨rfl, rfl, htotal⟩ := hreads
  obtain ⟨kind, size⟩ := d
  rcases take_cases htake with ⟨rfl, ⟨hcode, hdata, htypes⟩, rfl⟩ | ⟨rfl, hdata, rfl⟩ |
    ⟨rfl, ⟨_, hdata⟩, rfl⟩
  · refine ⟨rfl, ?_, htotal⟩
    simp [descriptors, hasTypes, hasData, hcode, hdata, htypes, hsize]
  · refine ⟨rfl, ?_, ?_⟩
    · simp [descriptors, hasTypes, hasData, hdata]
    · simp [declaredTotal, htotal]
  · refine ⟨rfl, ?_, htotal⟩
    simp [descriptors, hasTypes, hasData, hdata, hsize]

theorem Reads.foldlM_take {header result : Header} {version : UInt8} {taken ahead : List Descriptor}
    (hreads : header.Reads version taken) (hsizes : ∀ d ∈ ahead, d.size ≠ 0)
    (hfold : ahead.foldlM Header.take header = .ok result) :
    result.Reads version (taken ++ ahead) := by
  induction ahead generalizing header taken with
  | nil =>
    obtain rfl := pure_eq_ok_iff.mp hfold
    simpa using hreads
  | cons d ahead ih =>
    rw [List.foldlM_cons] at hfold
    obtain ⟨next, htake, hrest⟩ := bind_eq_ok_iff.mp hfold
    have hnext := hreads.take (hsizes d List.mem_cons_self) htake
    have hall := ih hnext (fun x hmem => hsizes x (List.mem_cons_of_mem _ hmem)) hrest
    simpa using hall

/-- A header that descriptors make up writes the same descriptors. -/
theorem reads_of_ofDescriptors {version : UInt8} {ds : List Descriptor} {header : Header}
    (hsizes : ∀ d ∈ ds, d.size ≠ 0) (hof : ofDescriptors version ds = .ok header) :
    header.Reads version ds ∧ header.checkCounts = .ok () := by
  obtain ⟨built, hfold, hrest⟩ := bind_eq_ok_iff.mp hof
  obtain ⟨_, hcounts, hbuilt⟩ := bind_eq_ok_iff.mp hrest
  obtain rfl := pure_eq_ok_iff.mp hbuilt
  exact ⟨by simpa using (Reads.bare version).foldlM_take hsizes hfold, hcounts⟩

/-! ## From a header to its descriptors -/

/-- Code descriptors are all taken as long as there is no data. -/
theorem foldlM_take_code (sizes : List UInt16) (header : Header) (hdata : header.hasData = false) :
    (sizes.map fun size => ⟨SectionKind.code.byte, size⟩).foldlM take header =
      .ok { header with
        codeSizes := header.codeSizes ++ sizes.toArray
        codeTotal := header.codeTotal + total (sizes.map UInt16.toNat) } := by
  induction sizes generalizing header with
  | nil => simp [pure, Except.pure]
  | cons size rest ih =>
    have htake : header.take ⟨SectionKind.code.byte, size⟩ = .ok { header with
        codeSizes := header.codeSizes.push size
        codeTotal := header.codeTotal + size.toNat } := by
      simp [take, hdata]
    have hrest := ih { header with
        codeSizes := header.codeSizes.push size
        codeTotal := header.codeTotal + size.toNat } hdata
    rw [List.map_cons, List.foldlM_cons, htake]
    simp only [bind, Except.bind]
    rw [hrest]
    simp [Nat.add_assoc]

/-- The descriptors of a header are all taken, unless there is data and no code. -/
theorem foldlM_take_descriptors (header : Header) :
    header.descriptors.foldlM take (bare header.version) =
      if header.hasData && header.codeSizes.isEmpty then .error .dataBeforeCode
      else .ok { header with codeTotal := header.declaredTotal } := by
  have htypes : (if header.hasTypes then [⟨SectionKind.types.byte, header.typesSize⟩]
      else []).foldlM take (bare header.version) =
        .ok ⟨header.version, header.typesSize, #[], 0, 0⟩ := by
    by_cases hhas : header.hasTypes = true
    · rw [if_pos hhas]
      rfl
    · have hnone : header.typesSize = 0 := by simpa [hasTypes] using hhas
      rw [if_neg hhas, hnone]
      rfl
  have hcode := foldlM_take_code header.codeSizes.toList
    ⟨header.version, header.typesSize, #[], 0, 0⟩ rfl
  rw [descriptors, List.foldlM_append, List.foldlM_append, htypes]
  simp only [bind, Except.bind, hcode]
  by_cases hhas : header.hasData = true
  · have htake : take ⟨header.version, header.typesSize, header.codeSizes, 0, header.declaredTotal⟩
        ⟨SectionKind.data.byte, header.dataSize⟩ =
          if header.codeSizes.isEmpty then .error .dataBeforeCode
          else .ok { header with codeTotal := header.declaredTotal } := by
      simp [take, hasData]
    cases hempty : header.codeSizes.isEmpty with
    | true => simpa [hhas, hempty, declaredTotal] using htake
    | false => simpa [hhas, hempty, declaredTotal] using htake
  · have hnone : header.dataSize = 0 := by simpa [hasData] using hhas
    simp [hhas, hnone, declaredTotal, pure, Except.pure]

theorem checkCounts_eq_ok_iff {header : Header} :
    header.checkCounts = .ok () ↔
      (1 ≤ header.codeSizes.size ∧ header.codeSizes.size ≤ Limits.codeSections) ∧
        (header.typesSize.toNat = 2 * header.codeSizes.size ∨
          header.typesSize = 0 ∧ header.codeSizes.size = 1) := by
  unfold checkCounts
  simp only
  split
  · simp only [reduceCtorEq, false_iff]
    omega
  · split
    · simp only [reduceCtorEq, false_iff]
      omega
    · by_cases htypes : header.typesSize = 0
      · simp only [hasTypes, htypes, bne_self_eq_false, Bool.false_eq_true, if_false,
          UInt16.toNat_zero, true_and]
        split
        · simp only [true_iff]
          omega
        · simp only [reduceCtorEq, false_iff]
          omega
      · simp only [hasTypes, bne_iff_ne, ne_eq, htypes, not_false_eq_true, if_true, false_and,
          or_false]
        split
        · simp only [true_iff]
          omega
        · simp only [reduceCtorEq, false_iff]
          omega

/-- **The descriptors of a header lead back to it** exactly if its counts are right; the total of
the code sizes is computed anew. -/
theorem ofDescriptors_descriptors {header result : Header} :
    ofDescriptors header.version header.descriptors = .ok result ↔
      header.checkCounts = .ok () ∧ result = { header with codeTotal := header.declaredTotal } := by
  rw [ofDescriptors, foldlM_take_descriptors]
  split
  · next hnoCode =>
    have hcount : ¬ header.checkCounts = .ok () := by
      rw [checkCounts_eq_ok_iff]
      have := Array.isEmpty_iff_size_eq_zero.mp (Bool.and_eq_true_iff.mp hnoCode).2
      omega
    simp [hcount, bind, Except.bind]
  · simp only [bind_eq_ok_iff, pure_eq_ok_iff]
    constructor
    · rintro ⟨_, hok, _, hcounts, rfl⟩
      obtain rfl := Except.ok.inj hok
      exact ⟨hcounts, rfl⟩
    · rintro ⟨hcounts, rfl⟩
      exact ⟨_, rfl, (), hcounts, rfl⟩

/-! ## Reading headers -/

/-- A header that reading can give. -/
structure IsProper (header : Header) : Prop where
  version_ne : header.version ≠ 0
  sizes_ne : ∀ size ∈ header.codeSizes, size ≠ 0
  counts : header.checkCounts = .ok ()
  codeTotal_eq : header.codeTotal = header.declaredTotal

/-- A header has the version of the preamble that it is made from. -/
theorem version_eq_of_read {raw : Bytes} {found : Preamble} {header : Header}
    (hread : Preamble.read raw = .ok found)
    (hbuilt : ofDescriptors found.version found.descriptors = .ok header) :
    header.version = found.version := by
  obtain ⟨_, hproper, _⟩ := Preamble.read_eq_ok_iff.mp hread
  exact (reads_of_ofDescriptors (fun d hmem => (hproper d hmem).2) hbuilt).1.version_eq

/-- **Reading a header is the inverse of writing it,** and what is written takes the size that the
header says. -/
theorem decode_eq_ok_iff {raw : Bytes} {header : Header} {read : Nat} :
    decode raw = .ok (header, read) ↔
      header.IsProper ∧ read = header.size ∧ ∃ rest, raw = header.encode ++ rest := by
  constructor
  · intro hdecode
    obtain ⟨found, hfound, hrest⟩ := bind_eq_ok_iff.mp hdecode
    obtain ⟨built, hbuilt, hpair⟩ := bind_eq_ok_iff.mp hrest
    obtain ⟨rfl, rfl⟩ := Prod.mk.inj (pure_eq_ok_iff.mp hpair)
    obtain ⟨hversion, hproper, hsize, rest, rfl⟩ := Preamble.read_eq_ok_iff.mp hfound
    obtain ⟨⟨hver, hds, htotal⟩, hcounts⟩ :=
      reads_of_ofDescriptors (fun d hmem => (hproper d hmem).2) hbuilt
    have hencode : built.encode = found.encode := by
      rw [encode, Preamble.encode, hver, hds]
    refine ⟨⟨hver ▸ hversion, ?_, hcounts, htotal⟩, ?_, rest, by rw [hencode]⟩
    · exact forall_isProper_iff.mp (hds ▸ hproper)
    · rw [hsize, ← hencode, length_encode]
  · rintro ⟨hproper, rfl, rest, rfl⟩
    have hread : Preamble.read (header.encode ++ rest) = .ok header.preamble := by
      refine Preamble.read_eq_ok_iff.mpr ⟨hproper.version_ne,
        forall_isProper_iff.mpr hproper.sizes_ne, ?_, rest, rfl⟩
      rw [← encode_eq_encode_preamble, length_encode]
      rfl
    have hbuilt : ofDescriptors header.version header.descriptors = .ok header := by
      refine ofDescriptors_descriptors.mpr ⟨hproper.counts, ?_⟩
      rw [← hproper.codeTotal_eq]
    exact bind_eq_ok_iff.mpr ⟨_, hread, bind_eq_ok_iff.mpr ⟨_, hbuilt, rfl⟩⟩

/-- **A written header reads back or not at all.** Nothing is asked of the header: whatever sizes
are written, those that are read are the same, and the total is theirs. -/
theorem decode_encode_inv {header found : Header} {read : Nat} {rest : Bytes}
    (hdecode : decode (header.encode ++ rest) = .ok (found, read)) :
    (∀ size ∈ header.codeSizes, size ≠ 0) ∧
      found = { header with codeTotal := header.declaredTotal } := by
  obtain ⟨preamble, hread, hrest⟩ := bind_eq_ok_iff.mp hdecode
  obtain ⟨built, hbuilt, hpair⟩ := bind_eq_ok_iff.mp hrest
  obtain ⟨rfl, rfl⟩ := Prod.mk.inj (pure_eq_ok_iff.mp hpair)
  rw [encode_eq_encode_preamble] at hread
  obtain ⟨_, hproper, rfl⟩ := Preamble.read_encode_inv (fun _ => kind_ne_terminator) hread
  exact ⟨forall_isProper_iff.mp hproper, (ofDescriptors_descriptors.mp hbuilt).2⟩

end Header

end EvmObject.Container
