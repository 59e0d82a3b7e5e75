import EvmObject.Proofs.Checked
import EvmObject.Proofs.Container.Body

/-!
# Reading a container, checked

The readers of a container with every slice, every entry and every difference asked for, and the
proof that none of them is ever missing. What a reader relies on was found out further up: the
length of the bytes is compared with what the header declares before anything is sliced, and the
header was only made with two bytes of signature for each code section. So each statement about a
body assumes that its header is one that reading can give.
-/

namespace EvmObject.Container

/-! ## Preambles -/

/-- Reads the preamble. Its size is what is left of the length without the bytes behind it. -/
def Preamble.readChecked (raw : Bytes) : Checked Error Preamble :=
  if !isFormatted raw then .refuse .invalidMagic
  else
    match raw.drop 2 with
    | [] => .refuse .missingVersion
    | version :: declared =>
      if version = 0 then .refuse .invalidVersion
      else do
        let (descriptors, rest) ← Checked.ofExcept (readDescriptors declared [])
        let size ← Checked.get .difference
          (if rest.length ≤ raw.length then some (raw.length - rest.length) else none)
        return ⟨version, descriptors, size⟩

theorem Preamble.keeps_readChecked (raw : Bytes) :
    Keeps (Preamble.readChecked raw) (.ofExcept (Preamble.read raw)) := by
  unfold Preamble.readChecked Preamble.read
  cases isFormatted raw with
  | false => exact .refuse _
  | true =>
    cases hdrop : raw.drop 2 with
    | nil => exact .refuse _
    | cons version declared =>
      simp only [Bool.not_true, Bool.false_eq_true, if_false]
      by_cases hversion : version = 0
      · rw [if_pos hversion, if_pos hversion]
        exact .refuse _
      · rw [if_neg hversion, if_neg hversion]
        cases hread : readDescriptors declared [] with
        | error error => exact .refuse error
        | ok found =>
          obtain ⟨descriptors, rest⟩ := found
          -- what the reader leaves is the end of what it was given
          obtain ⟨added, _, hdeclared, _⟩ := readDescriptors_sound hread
          have hlength : rest.length ≤ raw.length := by
            have hbehind := congrArg List.length hdrop
            rw [List.length_drop, hdeclared, List.length_cons, List.length_append,
              List.length_cons] at hbehind
            omega
          show Keeps
            (Checked.get .difference (if rest.length ≤ raw.length then _ else none) >>= _) _
          rw [if_pos hlength]
          exact .ok _

/-! ## Signatures -/

/-- Reads one signature after the other, and gives the bytes behind them. -/
def Signature.readMany : (count : Nat) → Bytes → Checked Error (List Signature × Bytes)
  | 0, bytes => return ([], bytes)
  | count + 1, bytes => do
    let (first, rest) ← Checked.get .signature (Signature.read bytes).toOption
    let (others, behind) ← readMany count rest
    return (first :: others, behind)

/-- Two bytes for each signature are enough. -/
theorem Signature.readMany_of_le {count : Nat} {bytes : Bytes}
    (henough : 2 * count ≤ bytes.length) :
    Signature.readMany count bytes =
      .ok (ofBytes (bytes.take (2 * count)), bytes.drop (2 * count)) := by
  induction count generalizing bytes with
  | zero => rfl
  | succ count ih =>
    match bytes with
    | [] =>
      rw [List.length_nil] at henough
      omega
    | [_] =>
      rw [List.length_singleton] at henough
      omega
    | inputs :: outputs :: rest =>
      rw [List.length_cons, List.length_cons] at henough
      have hrest := ih (show 2 * count ≤ rest.length by omega)
      have hdouble : 2 * (count + 1) = 2 * count + 1 + 1 := by omega
      rw [hdouble, List.take_succ_cons, List.take_succ_cons, List.drop_succ_cons,
        List.drop_succ_cons, ofBytes_cons]
      show (Signature.readMany count rest >>= _) = _
      rw [hrest]
      rfl

/-! ## Bodies -/

/-- The signatures of a body, of which the first has to be that of the entry. If none are written,
that one is added to them. -/
def Body.signaturesChecked (header : Header) (written : List Signature) :
    Checked Error (List Signature) :=
  if header.hasTypes then do
    let first ← Checked.get .firstSignature written[0]?
    if first.isEntry then return written else .refuse .invalidFirstTypeEntry
  else return written ++ [.entry]

/-- Reads the body behind a header. -/
def Body.decodeChecked (raw : Bytes) (header : Header) : Checked Error Body :=
  let size := header.size + header.bodySize
  if raw.length < size then .refuse .missingBody
  else if size < raw.length then .refuse .danglingData
  else do
    let behind ← Checked.slice raw header.size raw.length
    let (written, _) ← Signature.readMany header.typesCount behind
    let signatures ← Body.signaturesChecked header written
    let start := header.size + header.typesSize.toNat
    let code ← Checked.slice raw start (start + header.codeTotal)
    let data ← Checked.slice raw (start + header.codeTotal) raw.length
    return {
      version := header.version
      signatures := signatures.toArray
      sectionEnds := (Body.endsFrom 0 header.codeSizes.toList).toArray
      code
      data
      isTypesImplicit := !header.hasTypes }

/-- The types section of a header that can be read has two bytes for each signature that it is said
to hold. -/
theorem Header.IsProper.double_typesCount {header : Header} (hproper : header.IsProper) :
    2 * header.typesCount = header.typesSize.toNat := by
  unfold Header.typesCount
  rcases hproper.types with ⟨_, hsize⟩ | ⟨_, hnone, _⟩
  · omega
  · rw [hnone]
    rfl

/-- Behind a header that declares the length of the bytes nothing is missing but, maybe, the entry
signature. -/
theorem Body.decodeChecked_of_length {header : Header} (hproper : header.IsProper) {raw : Bytes}
    (hlength : raw.length = header.size + header.bodySize) :
    let behind := raw.drop header.size
    let behindTypes := behind.drop header.typesSize.toNat
    Body.decodeChecked raw header =
      Body.signaturesChecked header (Signature.ofBytes (behind.take header.typesSize.toNat)) >>=
        fun signatures => .ok ⟨header.version, signatures.toArray,
          (Body.endsFrom 0 header.codeSizes.toList).toArray, behindTypes.take header.codeTotal,
          behindTypes.drop header.codeTotal, !header.hasTypes⟩ := by
  intro behind behindTypes
  have hparts : raw.length =
      header.size + (header.typesSize.toNat + header.codeTotal + header.dataSize.toNat) := hlength
  have hbehind : (Checked.slice raw header.size raw.length : Checked Error Bytes) = .ok behind :=
    Checked.slice_length (by omega)
  have hwritten : Signature.readMany header.typesCount behind =
      .ok (Signature.ofBytes (behind.take header.typesSize.toNat), behindTypes) := by
    have henough : 2 * header.typesCount ≤ behind.length := by
      rw [hproper.double_typesCount, List.length_drop]
      omega
    rw [Signature.readMany_of_le henough, hproper.double_typesCount]
  have hcode : (Checked.slice raw (header.size + header.typesSize.toNat)
      (header.size + header.typesSize.toNat + header.codeTotal) : Checked Error Bytes) =
        .ok (behindTypes.take header.codeTotal) := by
    rw [Checked.slice_of_le (by omega) (by omega), Nat.add_sub_cancel_left, ← List.drop_drop]
  have hdata : (Checked.slice raw (header.size + header.typesSize.toNat + header.codeTotal)
      raw.length : Checked Error Bytes) = .ok (behindTypes.drop header.codeTotal) := by
    rw [Checked.slice_length (by omega), ← List.drop_drop, ← List.drop_drop]
  unfold Body.decodeChecked
  rw [hlength] at hbehind hdata ⊢
  simp only [Nat.lt_irrefl, if_false, hbehind, hwritten, hcode, hdata, ok_bind]
  rfl

/-- **A body is read without looking.** The bytes have the declared length when they are sliced, and
a types section holds one signature at least. -/
theorem Body.keeps_decodeChecked {header : Header} (hproper : header.IsProper) (raw : Bytes) :
    Keeps (Body.decodeChecked raw header) (Body.decode raw header) := by
  by_cases hlength : raw.length = header.size + header.bodySize
  · have hnotCrashed : Body.decode raw header ≠ .error .crashed := Body.decode_ne_crashed hproper
    rw [Body.decodeChecked_of_length hproper hlength]
    unfold Body.decode at hnotCrashed ⊢
    simp only [hlength, Nat.lt_irrefl, if_false] at hnotCrashed ⊢
    unfold Body.signaturesChecked
    cases hhas : header.hasTypes with
    | false =>
      -- no bytes are left for the types section, so no signature was read
      have hnone : header.typesSize = 0 := by
        unfold Header.hasTypes at hhas
        rwa [bne_eq_false_iff_eq] at hhas
      rw [hnone]
      exact .ok _
    | true =>
      rw [hhas, if_pos rfl] at hnotCrashed
      cases hwritten : Signature.ofBytes ((raw.drop header.size).take header.typesSize.toNat) with
      | nil =>
        rw [hwritten] at hnotCrashed
        exact absurd rfl hnotCrashed
      | cons first others =>
        show Keeps ((if first.isEntry = true then _ else .refuse _) >>= _)
          (if first.isEntry = true then _ else _)
        by_cases hentry : first.isEntry = true
        · rw [if_pos hentry, if_pos hentry]
          exact .ok _
        · rw [if_neg hentry, if_neg hentry]
          exact .refuse _
  · -- the bytes are too few or too many
    unfold Body.decodeChecked Body.decode
    refine .ite (fun _ => .refuse _) fun hshort => .ite (fun _ => .refuse _) fun hlong => ?_
    exact absurd (by omega) hlength

/-! ## Whole containers -/

/-- Reads a header and gives its size. -/
def Header.decodeChecked (raw : Bytes) : Checked Error (Header × Nat) := do
  let preamble ← Preamble.readChecked raw
  let header ← Checked.ofExcept (Header.ofDescriptors preamble.version preamble.descriptors)
  return (header, preamble.size)

theorem Header.keeps_decodeChecked (raw : Bytes) :
    Keeps (Header.decodeChecked raw) (.ofExcept (Header.decode raw)) := by
  unfold Header.decodeChecked Header.decode
  rw [Attempt.ofExcept_bind]
  refine (Preamble.keeps_readChecked raw).bind fun preamble _ => ?_
  rw [Attempt.ofExcept_bind]
  exact (Keeps.ofExcept _).bind fun header _ => .ok _

/-- Reads a container. -/
def decodeChecked (raw : Bytes) : Checked Error Container := do
  let (header, _) ← Header.decodeChecked raw
  let body ← Body.decodeChecked raw header
  return ⟨header, body, raw⟩

/-- **Reading a container takes nothing for granted that is not there.** -/
theorem keeps_decodeChecked (raw : Bytes) : Keeps (decodeChecked raw) (decode raw) := by
  unfold decodeChecked decode
  refine (Header.keeps_decodeChecked raw).bind fun found hheader => ?_
  obtain ⟨header, read⟩ := found
  have hproper := (Header.decode_eq_ok_iff.mp (Attempt.ofExcept_eq_ok_iff.mp hheader)).1
  exact (Body.keeps_decodeChecked hproper raw).bind fun body _ => .ok _

end EvmObject.Container
