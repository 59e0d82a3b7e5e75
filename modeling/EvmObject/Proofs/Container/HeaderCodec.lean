import EvmObject.Proofs.Container.Header

/-!
# Headers, byte by byte

`Preamble.read_eq_ok_iff` and `Header.decode_eq_ok_iff` compare the readers with the writers. Here a
preamble is compared with the bytes that the format prescribes for it (`Preamble.Heads`), and a
header with what may be declared at all (`Header.IsDeclarable`), so that neither side mentions a
reader:

* `Preamble.read_eq_ok_iff_heads`: what is read is what stands in front;
* `Header.decode_eq_ok_iff_take`: a header that is read is one that can be declared, and it writes
  the bytes that were read.

Both look at the front of the input only, so the bytes behind it may be any.
-/

namespace EvmObject.Container

/-! ## The statement -/

/-- The preamble is what a container starts with: the magic, a version, kinds and sizes that are not
zero, each size with its high byte first, and a zero behind the last. -/
structure Preamble.Heads (preamble : Preamble) (raw : Bytes) : Prop where
  version_ne : preamble.version ≠ 0
  proper : ∀ d ∈ preamble.descriptors, d.kind ≠ 0 ∧ d.size ≠ 0
  size_eq : preamble.size = 4 + 3 * preamble.descriptors.length
  take_eq : raw.take preamble.size =
    [0xEF, 0x00, preamble.version] ++
      preamble.descriptors.flatMap (fun d =>
        [d.kind, UInt8.ofNat (d.size.toNat / 256), UInt8.ofNat (d.size.toNat % 256)]) ++ [0x00]

/-- The header can be declared: there are code sections but not too many, none of them is empty, and
there are two bytes of types for each; a single one can do without types. -/
structure Header.IsDeclarable (header : Header) : Prop where
  version_ne : header.version ≠ 0
  count : 1 ≤ header.codeSizes.size ∧ header.codeSizes.size ≤ 1024
  sizes_ne : ∀ size ∈ header.codeSizes, size ≠ 0
  codeTotal_eq : header.codeTotal = total (header.codeSizes.toList.map UInt16.toNat)
  types : header.typesSize.toNat = 2 * header.codeSizes.size ∨
    header.typesSize = 0 ∧ header.codeSizes.size = 1

/-! ## Fronts -/

/-- Bytes start with others exactly if these are what is taken from them. -/
theorem exists_append_iff_take {raw front : Bytes} :
    (∃ rest, raw = front ++ rest) ↔ raw.take front.length = front := by
  constructor
  · rintro ⟨rest, rfl⟩
    exact List.take_left' rfl
  · intro htake
    have hsplit := List.take_append_drop front.length raw
    rw [htake] at hsplit
    exact ⟨raw.drop front.length, hsplit.symm⟩

namespace Preamble

/-- **What is read is what stands in front.** -/
theorem read_eq_ok_iff_heads {raw : Bytes} {preamble : Preamble} :
    read raw = .ok preamble ↔ preamble.Heads raw := by
  rw [read_eq_ok_iff, exists_append_iff_take]
  constructor
  · rintro ⟨hversion, hproper, hsize, htake⟩
    rw [← hsize] at htake
    exact ⟨hversion, hproper, hsize.trans preamble.length_encode, htake⟩
  · rintro ⟨hversion, hproper, hsize, htake⟩
    rw [← length_encode] at hsize
    rw [hsize] at htake
    exact ⟨hversion, hproper, hsize, htake⟩

/-- Nothing behind a preamble is looked at. -/
theorem read_take_append {raw : Bytes} {preamble : Preamble} (hread : read raw = .ok preamble)
    (rest : Bytes) : read (raw.take preamble.size ++ rest) = .ok preamble := by
  obtain ⟨hversion, hproper, hsize, behind, rfl⟩ := read_eq_ok_iff.mp hread
  rw [hsize, List.take_left' rfl]
  exact read_eq_ok_iff.mpr ⟨hversion, hproper, hsize, rest, rfl⟩

end Preamble

/-! ## Headers -/

namespace Header

/-- Reading gives the headers that can be declared, and no others. -/
theorem isProper_iff_isDeclarable {header : Header} : header.IsProper ↔ header.IsDeclarable := by
  constructor
  · rintro ⟨hversion, hsizes, hcounts, htotal⟩
    obtain ⟨hcount, htypes⟩ := checkCounts_eq_ok_iff.mp hcounts
    exact ⟨hversion, hcount, hsizes, htotal, htypes⟩
  · rintro ⟨hversion, hcount, hsizes, htotal, htypes⟩
    exact ⟨hversion, hsizes, checkCounts_eq_ok_iff.mpr ⟨hcount, htypes⟩, htotal⟩

/-- **A header that is read can be declared, and it writes the bytes that were read.** -/
theorem decode_eq_ok_iff_take {raw : Bytes} {header : Header} {read : Nat} :
    decode raw = .ok (header, read) ↔
      header.IsDeclarable ∧ read = header.size ∧ header.encode = raw.take read := by
  rw [decode_eq_ok_iff, isProper_iff_isDeclarable, exists_append_iff_take, length_encode]
  constructor
  · rintro ⟨hdeclarable, rfl, htake⟩
    exact ⟨hdeclarable, rfl, htake.symm⟩
  · rintro ⟨hdeclarable, rfl, htake⟩
    exact ⟨hdeclarable, rfl, htake.symm⟩

end Header

/-- **Reading descriptors and headers is the exact inverse of writing them.** A preamble is read if
and only if it stands in front byte by byte, whatever follows. A header is read if and only if it
can be declared and its own bytes are those in front, as many as its size; and every header that can
be declared is read back from what it writes, whatever follows. -/
theorem header_reading_inverts_writing :
    (∀ raw preamble, Preamble.read raw = .ok preamble ↔ preamble.Heads raw) ∧
      (∀ raw preamble, Preamble.read raw = .ok preamble →
        ∀ rest, Preamble.read (raw.take preamble.size ++ rest) = .ok preamble) ∧
      (∀ raw header read, Header.decode raw = .ok (header, read) ↔
        header.IsDeclarable ∧ read = header.size ∧ header.encode = raw.take read) ∧
      ∀ header : Header, header.IsDeclarable →
        ∀ rest, Header.decode (header.encode ++ rest) = .ok (header, header.size) := by
  refine ⟨fun _ _ => Preamble.read_eq_ok_iff_heads, fun _ _ => Preamble.read_take_append,
    fun _ _ _ => Header.decode_eq_ok_iff_take, fun header hdeclarable rest => ?_⟩
  refine Header.decode_eq_ok_iff_take.mpr ⟨hdeclarable, rfl, ?_⟩
  exact (List.take_left' header.length_encode).symm

/-- Zero bytes inside of sizes end nothing, in front of bytes that would be one more descriptor. The
preamble may declare an unknown kind. -/
theorem header_reading_inverts_writing_zero_bytes :
    let preamble : Preamble := ⟨7, [⟨9, 0x0100⟩, ⟨1, 0x0001⟩], 10⟩
    let front : Bytes := [0xEF, 0, 7, 9, 1, 0, 1, 0, 1, 0]
    let header : Header := ⟨1, 4, #[0x0100, 1], 0x0200, 257⟩
    let written : Bytes := [0xEF, 0, 1, 3, 0, 4, 1, 1, 0, 1, 0, 1, 2, 2, 0, 0]
    preamble.Heads (front ++ [2, 0, 5]) ∧
      Preamble.read (front ++ [2, 0, 5]) = .ok preamble ∧ Preamble.read front = .ok preamble ∧
      header.IsDeclarable ∧ Header.decode (written ++ [2, 0, 5]) = .ok (header, 16) ∧
      (16 = header.size ∧ header.encode = written) := by
  intro preamble front header written
  obtain ⟨hpreamble, hrest, hheader, hback⟩ := header_reading_inverts_writing
  have hheads : preamble.Heads (front ++ [2, 0, 5]) := ⟨by decide, by decide, rfl, rfl⟩
  have hread := (hpreamble _ _).mpr hheads
  have hdeclarable : header.IsDeclarable := ⟨by decide, by decide, by simp [header], rfl, .inl rfl⟩
  have hencode : header.encode = written := by decide
  have hdecode : Header.decode (written ++ [2, 0, 5]) = .ok (header, 16) := by
    rw [← hencode]
    exact hback header hdeclarable [2, 0, 5]
  have htake := ((hheader _ _ _).mp hdecode).2
  exact ⟨hheads, hread, hrest _ _ hread [], hdeclarable, hdecode, htake⟩

end EvmObject.Container
