import EvmObject.Container.Basic
import EvmObject.Proofs.Container.Header

/-!
# Bodies behind their headers

Two ways to look at the same bytes. Seen from the header, `Body.decode_sound` says that a body which
is read writes the bytes it was read from and leads back to the header. Seen from the body,
`Body.decode_of_fits` says what is read if the header fits, that is, if it declares the sizes that
the body really has.

On whole containers, `ReadFrom` gathers what is known of one that was read, and
`Container.decode_ne_crashed` says that the one assumption of the reader, that written signatures
are at least one, holds behind every header that can be read.
-/

namespace EvmObject.Container

/-! ## Signatures in bytes -/

namespace Signature

theorem length_flatMap_encode (signatures : List Signature) :
    (signatures.flatMap encode).length = 2 * signatures.length := by
  induction signatures with
  | nil => rfl
  | cons signature rest ih =>
    rw [List.flatMap_cons, List.length_append, ih, List.length_cons]
    simp only [encode, List.length_cons, List.length_nil]
    omega

theorem length_ofBytes (bytes : Bytes) : (ofBytes bytes).length = bytes.length / 2 := by
  match bytes with
  | [] => rfl
  | [_] => simp [ofBytes, readAll, readOnto]
  | inputs :: outputs :: rest =>
    rw [ofBytes_cons, List.length_cons, length_ofBytes rest]
    simp only [List.length_cons]
    omega

/-- Signatures that are read write the bytes they were read from, unless one byte is left over. -/
theorem flatMap_encode_ofBytes (bytes : Bytes) (heven : bytes.length % 2 = 0) :
    (ofBytes bytes).flatMap encode = bytes := by
  match bytes with
  | [] => rfl
  | [_] => simp at heven
  | inputs :: outputs :: rest =>
    have hrest := flatMap_encode_ofBytes rest (by simp only [List.length_cons] at heven; omega)
    rw [ofBytes_cons, List.flatMap_cons, hrest]
    rfl

theorem isEntry_iff (signature : Signature) : signature.isEntry = true ↔ signature = entry := by
  simp [isEntry]

end Signature

/-! ## Seen from the header -/

namespace Header

/-- The types section of a header that can be read has two bytes for each code section, or there is
none and just one code section. -/
theorem IsProper.types {header : Header} (hproper : header.IsProper) :
    header.hasTypes = true ∧ header.typesSize.toNat = 2 * header.codeSizes.size ∨
      header.hasTypes = false ∧ header.typesSize = 0 ∧ header.codeSizes.size = 1 := by
  obtain ⟨⟨hsome, _⟩, htypes⟩ := checkCounts_eq_ok_iff.mp hproper.counts
  rcases htypes with hsize | ⟨hnone, hone⟩
  · refine .inl ⟨?_, hsize⟩
    rw [hasTypes, bne_iff_ne]
    intro hzero
    rw [hzero, UInt16.toNat_zero] at hsize
    omega
  · exact .inr ⟨by rw [hasTypes, hnone]; rfl, hnone, hone⟩

end Header

namespace Body

@[simp] theorem length_endsFrom (start : Nat) (sizes : List UInt16) :
    (endsFrom start sizes).length = sizes.length := by
  induction sizes generalizing start with
  | nil => rfl
  | cons size rest ih => rw [endsFrom, List.length_cons, ih, List.length_cons]

theorem length_of_decode {raw : Bytes} {header : Header} {body : Body}
    (hdecode : decode raw header = .ok body) : raw.length = header.size + header.bodySize := by
  unfold decode at hdecode
  simp only at hdecode
  split at hdecode
  · cases hdecode
  · split at hdecode
    · cases hdecode
    · omega

/-- What a body is that was read, signatures apart. -/
theorem eq_of_decode {raw : Bytes} {header : Header} {body : Body}
    (hdecode : decode raw header = .ok body) :
    let behindTypes := (raw.drop header.size).drop header.typesSize.toNat
    ∃ signatures : List Signature,
      body = ⟨header.version, signatures.toArray, (endsFrom 0 header.codeSizes.toList).toArray,
        behindTypes.take header.codeTotal, behindTypes.drop header.codeTotal, !header.hasTypes⟩ ∧
      signatures.head? = some .entry ∧
      signatures = if header.hasTypes then
          Signature.ofBytes ((raw.drop header.size).take header.typesSize.toNat)
        else [.entry] := by
  unfold decode at hdecode
  simp only at hdecode
  split at hdecode
  · cases hdecode
  · split at hdecode
    · cases hdecode
    · split at hdecode
      · next hhas =>
        split at hdecode
        · cases hdecode
        · next first others hread =>
          split at hdecode
          · next hentry =>
            obtain rfl := Except.ok.inj hdecode
            refine ⟨first :: others, rfl, ?_, by rw [if_pos hhas, hread]⟩
            rw [List.head?_cons, (first.isEntry_iff).mp hentry]
          · cases hdecode
      · next hhas =>
        obtain rfl := Except.ok.inj hdecode
        exact ⟨[.entry], rfl, rfl, by rw [if_neg hhas]⟩

/-- Signatures that are read are written as the types section, have its declared size, and are one
for each code section. -/
theorem types_of_isProper {header : Header} (hproper : header.IsProper) {rest : Bytes}
    (hrest : header.typesSize.toNat ≤ rest.length) {signatures : List Signature}
    (hsignatures : signatures = if header.hasTypes then
      Signature.ofBytes (rest.take header.typesSize.toNat) else [.entry]) :
    (if !header.hasTypes then [] else signatures.flatMap Signature.encode) =
        rest.take header.typesSize.toNat ∧
      (if !header.hasTypes then 0 else UInt16.ofNat (2 * signatures.length)) = header.typesSize ∧
      signatures.length = header.codeSizes.size := by
  rcases hproper.types with ⟨hhas, hsize⟩ | ⟨hhas, hnone, hone⟩
  · rw [hhas, if_pos rfl] at hsignatures
    have htake : (rest.take header.typesSize.toNat).length = header.typesSize.toNat := by
      rw [List.length_take]
      omega
    have hcount : signatures.length = header.codeSizes.size := by
      rw [hsignatures, Signature.length_ofBytes, htake]
      omega
    refine ⟨?_, ?_, hcount⟩
    · rw [hhas, hsignatures]
      exact Signature.flatMap_encode_ofBytes _ (by rw [htake]; omega)
    · rw [hhas, hcount, ← hsize]
      exact UInt16.ofNat_toNat
  · rw [hhas, if_neg (by decide)] at hsignatures
    refine ⟨?_, ?_, ?_⟩
    · rw [hhas, hnone]
      rfl
    · rw [hhas, hnone]
      rfl
    · rw [hsignatures, hone]
      rfl

/-- **A body that is read leads back to its header and writes what it was read from.** -/
theorem decode_sound {raw : Bytes} {header : Header} {body : Body} (hproper : header.IsProper)
    (hdecode : decode raw header = .ok body) :
    body.header = header ∧ body.encode = raw.drop header.size ∧
      body.signatures.size = body.codeCount := by
  have hlength := length_of_decode hdecode
  obtain ⟨signatures, rfl, _, hsignatures⟩ := eq_of_decode hdecode
  have hrest : (raw.drop header.size).length =
      header.typesSize.toNat + header.codeTotal + header.dataSize.toNat := by
    rw [List.length_drop, hlength, Header.bodySize]
    omega
  generalize raw.drop header.size = rest at hrest hsignatures ⊢
  -- in front stand the signatures, and the code and the data behind them have their declared sizes
  obtain ⟨htypes, htypesSize, hcount⟩ := types_of_isProper hproper (by omega) hsignatures
  have hcode : ((rest.drop header.typesSize.toNat).take header.codeTotal).length =
      header.codeTotal := by
    rw [List.length_take, List.length_drop]
    omega
  have hdata : ((rest.drop header.typesSize.toNat).drop header.codeTotal).length =
      header.dataSize.toNat := by
    rw [List.length_drop, List.length_drop]
    omega
  refine ⟨?_, ?_, ?_⟩
  · simp only [Body.header, List.size_toArray, htypesSize, sizesFrom_endsFrom, hcode, hdata,
      UInt16.ofNat_toNat, Array.toArray_toList]
  · simp only [encode, htypes, List.append_assoc, List.take_append_drop]
  · simp only [codeCount, List.size_toArray, hcount, length_endsFrom, Array.length_toList]

/-- Behind a header that can be read, reading a body refuses or succeeds. -/
theorem decode_ne_crashed {raw : Bytes} {header : Header} (hproper : header.IsProper) :
    decode raw header ≠ .error .crashed := by
  unfold decode
  simp only
  split
  · simp
  · split
    · simp
    · next hshort hlong =>
      split
      · next hhas =>
        split
        · next hnone =>
          -- there are two bytes at least, so there is a signature
          have hcount := congrArg List.length hnone
          rw [Signature.length_ofBytes, List.length_take, List.length_drop,
            List.length_nil] at hcount
          obtain ⟨⟨hsome, _⟩, _⟩ := Header.checkCounts_eq_ok_iff.mp hproper.counts
          rcases hproper.types with ⟨_, hsize⟩ | ⟨hnot, _⟩
          · rw [Header.bodySize] at hshort
            omega
          · rw [hnot] at hhas
            cases hhas
        · split <;> simp
      · simp

end Body

/-! ## Seen from the body -/

/-- The bytes of the signatures that a body writes. -/
def Body.writtenTypes (body : Body) : Bytes :=
  if body.isTypesImplicit then [] else body.signatures.toList.flatMap Signature.encode

theorem Body.encode_eq (body : Body) :
    body.encode = body.writtenTypes ++ body.code ++ body.data := rfl

/-- The header declares what the body really has. -/
structure Header.Fits (header : Header) (body : Body) : Prop where
  version_eq : header.version = body.version
  hasTypes_eq : header.hasTypes = !body.isTypesImplicit
  typesSize_eq : header.typesSize.toNat = body.writtenTypes.length
  ends_eq : Body.endsFrom 0 header.codeSizes.toList = body.sectionEnds.toList
  codeTotal_eq : header.codeTotal = body.code.length
  dataSize_eq : header.dataSize.toNat = body.data.length

/-- **Behind a header that fits a body reads back,** provided that it starts with the entry
signature; signatures that are not written have to be that one. -/
theorem Body.decode_of_fits {header : Header} {body found : Body} {front : Bytes}
    (hfits : header.Fits body) (hfront : front.length = header.size)
    (himplicit : body.isTypesImplicit = true → body.signatures = #[.entry]) :
    decode (front ++ body.encode) header = .ok found ↔
      found = body ∧ body.signatures[0]? = some .entry := by
  have hlength : (front ++ body.encode).length = header.size + header.bodySize := by
    rw [List.length_append, hfront, encode_eq, List.length_append, List.length_append,
      Header.bodySize, hfits.typesSize_eq, hfits.codeTotal_eq, hfits.dataSize_eq]
  have hrest : (front ++ body.encode).drop header.size = body.encode :=
    List.drop_left' hfront
  have htypes : body.encode.take header.typesSize.toNat = body.writtenTypes := by
    rw [encode_eq, List.append_assoc]
    exact List.take_left' hfits.typesSize_eq.symm
  have hbehind : body.encode.drop header.typesSize.toNat = body.code ++ body.data := by
    rw [encode_eq, List.append_assoc]
    exact List.drop_left' hfits.typesSize_eq.symm
  have hcode : (body.code ++ body.data).take header.codeTotal = body.code :=
    List.take_left' hfits.codeTotal_eq.symm
  have hdata : (body.code ++ body.data).drop header.codeTotal = body.data :=
    List.drop_left' hfits.codeTotal_eq.symm
  obtain ⟨version, signatures, sectionEnds, code, data, isTypesImplicit⟩ := body
  simp only at hcode hdata htypes hbehind hrest hlength himplicit
  simp only [decode, hlength, Nat.lt_irrefl, if_false, hrest, htypes, hbehind, hcode, hdata,
    hfits.hasTypes_eq, hfits.version_eq, hfits.ends_eq]
  cases isTypesImplicit with
  | true =>
    obtain rfl := himplicit rfl
    simp [eq_comm]
  | false =>
    simp only [writtenTypes, Bool.not_false, Bool.false_eq_true, if_true, if_false,
      Signature.ofBytes_encode]
    -- whatever signatures are written are read, but the first of them is looked at
    cases hsignatures : signatures.toList with
    | nil =>
      obtain rfl : signatures = #[] := by simpa using hsignatures
      simp
    | cons first others =>
      obtain rfl : signatures = (first :: others).toArray := by rw [← hsignatures]
      by_cases hentry : first = .entry
      · simp [hentry, Signature.isEntry, eq_comm]
      · simp [hentry, Signature.isEntry]

/-! ## Whole containers -/

theorem decode_eq_ok_iff {raw : Bytes} {container : Container} :
    decode raw = .ok container ↔
      (∃ read, Header.decode raw = .ok (container.header, read)) ∧
        Body.decode raw container.header = .ok container.body ∧ container.raw = raw := by
  simp only [decode, bind_eq_ok_iff, Attempt.ofExcept_eq_ok_iff, pure_eq_ok_iff]
  constructor
  · rintro ⟨⟨header, read⟩, hheader, body, hbody, rfl⟩
    exact ⟨⟨read, hheader⟩, hbody, rfl⟩
  · rintro ⟨⟨read, hheader⟩, hbody, rfl⟩
    exact ⟨(container.header, read), hheader, container.body, hbody, rfl⟩

/-- What is known of a container that was read. -/
structure ReadFrom (container : Container) (raw : Bytes) : Prop where
  isProper : container.header.IsProper
  /-- The header is the one that the body would be given. -/
  header_eq : container.body.header = container.header
  signatures_size : container.body.signatures.size = container.body.codeCount
  /-- What was read is written back. -/
  encode_eq : container.encode = raw
  raw_eq : container.raw = raw
  size_eq : container.size = raw.length

theorem readFrom_of_decode {raw : Bytes} {container : Container}
    (hdecode : decode raw = .ok container) : container.ReadFrom raw := by
  obtain ⟨⟨read, hheader⟩, hbody, hraw⟩ := decode_eq_ok_iff.mp hdecode
  obtain ⟨hproper, _, rest, hfront⟩ := Header.decode_eq_ok_iff.mp hheader
  obtain ⟨heq, hencode, hsignatures⟩ := Body.decode_sound hproper hbody
  -- the header that was read is written in front again, so what is behind it is the body
  have hrest : raw.drop container.header.size = rest := by
    rw [hfront]
    exact List.drop_left' container.header.length_encode
  have hwritten : container.encode = raw := by
    rw [encode, hencode, hrest, hfront]
  exact ⟨hproper, heq, hsignatures, hwritten, hraw, (Body.length_of_decode hbody).symm⟩

/-- The body of a container that is read makes up the container. -/
theorem ofBody_of_decode {raw : Bytes} {container : Container}
    (hdecode : decode raw = .ok container) : ofBody container.body = container := by
  have hread := readFrom_of_decode hdecode
  have hraw : container.header.encode ++ container.body.encode = container.raw :=
    hread.encode_eq.trans hread.raw_eq.symm
  rw [ofBody, hread.header_eq, hraw]

/-- **Reading a container refuses or succeeds,** whatever the bytes. -/
theorem decode_ne_crashed (raw : Bytes) : decode raw ≠ .error .crashed := by
  rw [decode]
  cases hheader : Header.decode raw with
  | error error =>
    intro hcrash
    cases hcrash
  | ok found =>
    obtain ⟨header, read⟩ := found
    have hproper := (Header.decode_eq_ok_iff.mp hheader).1
    show (Body.decode raw header >>= fun body => pure (Container.mk header body raw)) ≠
      .error .crashed
    cases hbody : Body.decode raw header with
    | error failure =>
      intro hcrash
      obtain rfl : failure = .crashed := Except.error.inj hcrash
      exact Body.decode_ne_crashed hproper hbody
    | ok body =>
      intro hcrash
      cases hcrash

end EvmObject.Container
