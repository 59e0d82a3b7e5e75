import EvmObject.Container.Descriptor
import EvmObject.Proofs.Sequencing

/-!
# Reading and writing preambles

A preamble that is read is the one that is written at the front of the input, and one that can be
written reads back whatever follows it. `Preamble.read_eq_ok_iff` says both at once; the bytes
behind the terminator play no part. A written descriptor of size zero is never read back: it is
refused (`readDescriptors_encode_zero`), which is what stops sizes that wrapped around to zero, so a
written preamble reads back as it was or not at all (`Preamble.read_encode_inv`).
-/

namespace EvmObject.Container

/-- A descriptor that can be read: its kind byte is no terminator and its size is not zero. -/
def Descriptor.IsProper (descriptor : Descriptor) : Prop :=
  descriptor.kind ≠ terminator ∧ descriptor.size ≠ 0

@[simp] theorem Descriptor.length_encode (descriptor : Descriptor) :
    descriptor.encode.length = 3 := rfl

theorem length_flatMap_encode (descriptors : List Descriptor) :
    (descriptors.flatMap Descriptor.encode).length = 3 * descriptors.length := by
  induction descriptors with
  | nil => rfl
  | cons d tail ih =>
    rw [List.flatMap_cons, List.length_append, ih, Descriptor.length_encode, List.length_cons]
    omega

/-! ## Descriptors -/

/-- **One turn of the reader** takes a descriptor, or refuses it for its size. -/
theorem readDescriptors_encode_append {d : Descriptor} (hkind : d.kind ≠ terminator) (rest : Bytes)
    (done : List Descriptor) :
    readDescriptors (d.encode ++ rest) done =
      if d.size = 0 then .error .zeroSectionSize else readDescriptors rest (d :: done) := by
  have hback := Bytes.readU16?_ofU16 d.size []
  simp only [Bytes.ofU16, List.append_nil, Bytes.readU16?, Option.some.injEq] at hback
  simp only [Descriptor.encode, Bytes.ofU16, List.cons_append, List.nil_append]
  rw [readDescriptors, if_neg hkind]
  simp only [hback]

/-- **Descriptors that are read were written.** Induction along the reader: each turn takes one
descriptor of three bytes, and all other ways out are errors but the terminator. -/
theorem readDescriptors_sound {bytes rest : Bytes} {done descriptors : List Descriptor}
    (hread : readDescriptors bytes done = .ok (descriptors, rest)) :
    ∃ added, descriptors = done.reverse ++ added ∧
      bytes = added.flatMap Descriptor.encode ++ terminator :: rest ∧
      ∀ d ∈ added, d.IsProper := by
  fun_induction readDescriptors bytes done with
  | case1 => cases hread
  | case2 =>
    obtain ⟨rfl, rfl⟩ := Prod.mk.inj (Except.ok.inj hread)
    exact ⟨[], by simp, by simp, by simp⟩
  | case3 => cases hread
  | case4 kind done hkind hi lo tail size hsize ih =>
    obtain ⟨added, rfl, rfl, hproper⟩ := ih hread
    refine ⟨⟨kind, size⟩ :: added, by simp, ?_, ?_⟩
    · rw [List.flatMap_cons, Descriptor.encode, Bytes.ofU16_readU16]
      simp
    · intro d hmem
      rcases List.mem_cons.mp hmem with rfl | hmem
      · exact ⟨hkind, hsize⟩
      · exact hproper d hmem
  | case5 => cases hread

/-- A descriptor of size zero is refused where it stands, if those before it can be read. -/
theorem readDescriptors_encode_zero (descriptors done : List Descriptor) (rest : Bytes)
    (hkinds : ∀ d ∈ descriptors, d.kind ≠ terminator) (hzero : ∃ d ∈ descriptors, d.size = 0) :
    readDescriptors (descriptors.flatMap Descriptor.encode ++ rest) done =
      .error .zeroSectionSize := by
  induction descriptors generalizing done with
  | nil => simp at hzero
  | cons d tail ih =>
    have hkind := hkinds d List.mem_cons_self
    rw [List.flatMap_cons, List.append_assoc, readDescriptors_encode_append hkind]
    by_cases hsize : d.size = 0
    · exact if_pos hsize
    · have hrest : ∃ d ∈ tail, d.size = 0 := by
        obtain ⟨z, hmem, hz⟩ := hzero
        rcases List.mem_cons.mp hmem with rfl | hmem
        · exact absurd hz hsize
        · exact ⟨z, hmem, hz⟩
      rw [if_neg hsize]
      exact ih _ (fun x hmem => hkinds x (List.mem_cons_of_mem _ hmem)) hrest

/-! ## Preambles -/

namespace Preamble

theorem length_encode (preamble : Preamble) :
    preamble.encode.length = 4 + 3 * preamble.descriptors.length := by
  simp only [encode, magic, List.length_append, List.length_cons, List.length_nil,
    length_flatMap_encode]
  omega

/-- The bytes of a preamble and what follows, as the reader meets them. -/
theorem encode_append (preamble : Preamble) (rest : Bytes) :
    preamble.encode ++ rest =
      0xEF :: 0x00 :: preamble.version ::
        (preamble.descriptors.flatMap Descriptor.encode ++ terminator :: rest) := by
  simp [encode, magic]

/-- What is left of the reader once magic and version are accepted. -/
theorem read_cons (version : UInt8) (declared : Bytes) (hversion : version ≠ 0) :
    read (0xEF :: 0x00 :: version :: declared) =
      (readDescriptors declared []).map fun (descriptors, rest) =>
        ⟨version, descriptors, declared.length + 3 - rest.length⟩ := by
  have hformat : isFormatted (0xEF :: 0x00 :: version :: declared) = true := by
    simp [isFormatted, magic, List.isPrefixOf]
  simp only [read, hformat, Bool.not_true, Bool.false_eq_true, if_false, List.drop_succ_cons,
    List.drop_zero, hversion, List.length_cons]
  cases readDescriptors declared [] <;> rfl

/-- Bytes that are accepted up to the version. -/
theorem exists_of_read {raw : Bytes} {preamble : Preamble} (hread : read raw = .ok preamble) :
    ∃ version declared, raw = 0xEF :: 0x00 :: version :: declared ∧ version ≠ 0 := by
  unfold read at hread
  split at hread
  · cases hread
  · next hformat =>
    rw [Bool.not_eq_true, Bool.not_eq_false'] at hformat
    obtain ⟨behind, rfl⟩ := List.isPrefixOf_iff_prefix.mp hformat
    match behind with
    | [] => simp [magic] at hread
    | version :: declared =>
      by_cases hversion : version = 0
      · simp [magic, hversion] at hread
      · exact ⟨version, declared, rfl, hversion⟩

/-- **Reading a preamble is the inverse of writing it.** -/
theorem read_eq_ok_iff {raw : Bytes} {preamble : Preamble} :
    read raw = .ok preamble ↔
      preamble.version ≠ 0 ∧ (∀ d ∈ preamble.descriptors, d.IsProper) ∧
        preamble.size = preamble.encode.length ∧ ∃ rest, raw = preamble.encode ++ rest := by
  constructor
  · intro hread
    obtain ⟨version, declared, rfl, hversion⟩ := exists_of_read hread
    rw [read_cons version declared hversion] at hread
    cases hdeclared : readDescriptors declared [] with
    | error e => simp [hdeclared, Except.map] at hread
    | ok found =>
      obtain ⟨descriptors, rest⟩ := found
      obtain ⟨added, hadded, rfl, hproper⟩ := readDescriptors_sound hdeclared
      obtain rfl : descriptors = added := by simpa using hadded
      simp only [hdeclared, Except.map, Except.ok.injEq] at hread
      subst hread
      refine ⟨hversion, hproper, ?_, rest, by rw [encode_append]⟩
      simp only [length_encode, List.length_append, List.length_cons, length_flatMap_encode]
      omega
  · rintro ⟨hversion, hproper, hsize, rest, rfl⟩
    rw [encode_append, read_cons _ _ hversion, readDescriptors_encode _ _ _ hproper]
    obtain ⟨version, descriptors, size⟩ := preamble
    simp only [length_encode] at hsize
    simp only [Except.map, List.reverse_nil, List.nil_append, Except.ok.injEq, Preamble.mk.injEq,
      true_and, List.length_append, List.length_cons, length_flatMap_encode]
    omega

/-- **A written preamble reads back or not at all.** The kinds that are written are no terminators,
so what can go wrong is the version or a size of zero. -/
theorem read_encode_inv {preamble found : Preamble} {rest : Bytes}
    (hkinds : ∀ d ∈ preamble.descriptors, d.kind ≠ terminator)
    (hread : read (preamble.encode ++ rest) = .ok found) :
    preamble.version ≠ 0 ∧ (∀ d ∈ preamble.descriptors, d.IsProper) ∧
      found = { preamble with size := preamble.encode.length } := by
  have hversion : preamble.version ≠ 0 := by
    intro hzero
    rw [encode_append] at hread
    simp [read, isFormatted, magic, List.isPrefixOf, hzero] at hread
  have hproper : ∀ d ∈ preamble.descriptors, d.IsProper := by
    intro d hmem
    refine ⟨hkinds d hmem, fun hzero => ?_⟩
    rw [encode_append, read_cons _ _ hversion,
      readDescriptors_encode_zero _ _ _ hkinds ⟨d, hmem, hzero⟩] at hread
    cases hread
  have hback : read (preamble.encode ++ rest) =
      .ok { preamble with size := preamble.encode.length } :=
    read_eq_ok_iff.mpr ⟨hversion, hproper, rfl, rest, rfl⟩
  exact ⟨hversion, hproper, Except.ok.inj (hread.symm.trans hback)⟩

end Preamble

end EvmObject.Container
