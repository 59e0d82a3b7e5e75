import EvmObject.Proofs.Container.Body

/-!
# Cut and extended containers

The header says where a container ends, so what can be read is neither the front of anything else
that can be read nor an extension of it. `cutError` says for each cut why it is refused. There are
three parts to it, one for each reader that runs out of bytes:

* `readDescriptors_take`: descriptors are taken three bytes at a time, so the cut shows where in a
  descriptor it is;
* `Preamble.read_take`: the magic and the version in front of them;
* `Body.decode_of_lt`, `Body.decode_of_gt`: behind the header only the number of bytes counts.
-/

namespace EvmObject.Container

/-- Why a container is refused of which only the first `cut` bytes are left, if its header takes
`headerSize` bytes. -/
def cutError (headerSize cut : Nat) : Error :=
  if cut < 2 then .invalidMagic
  else if cut = 2 then .missingVersion
  else if cut < headerSize then
    if (cut - 3) % 3 = 0 then .missingTerminator else .shortInputForSize
  else .missingBody

theorem cutError_of_lt {headerSize cut : Nat} (hcut : cut + 3 < headerSize) :
    cutError headerSize (cut + 3) =
      if cut % 3 = 0 then .missingTerminator else .shortInputForSize := by
  rw [cutError, if_neg (by omega), if_neg (by omega), if_pos hcut, Nat.add_sub_cancel]

theorem cutError_of_le {headerSize cut : Nat} (hsize : 3 ≤ headerSize) (hcut : headerSize ≤ cut) :
    cutError headerSize cut = .missingBody := by
  rw [cutError, if_neg (by omega), if_neg (by omega), if_neg (by omega)]

/-! ## Running out of descriptors -/

/-- **Cut descriptors.** Between two descriptors the reader asks for a terminator, and inside of one
for its size. -/
theorem readDescriptors_take {descriptors : List Descriptor}
    (hproper : ∀ d ∈ descriptors, d.IsProper) {cut : Nat} (hcut : cut ≤ 3 * descriptors.length)
    (done : List Descriptor) :
    readDescriptors ((descriptors.flatMap Descriptor.encode).take cut) done =
      .error (if cut % 3 = 0 then .missingTerminator else .shortInputForSize) := by
  induction descriptors generalizing cut done with
  | nil =>
    obtain rfl : cut = 0 := by simpa using hcut
    rfl
  | cons d tail ih =>
    obtain ⟨hkind, hsize⟩ := hproper d List.mem_cons_self
    rw [List.flatMap_cons]
    -- the cut is in front of the descriptor, behind its kind, inside its size, or further on
    match cut with
    | 0 => rfl
    | 1 | 2 => simp [Descriptor.encode, Bytes.ofU16, readDescriptors, hkind]
    | cut + 3 =>
      have htake : (d.encode ++ tail.flatMap Descriptor.encode).take (cut + 3) =
          d.encode ++ (tail.flatMap Descriptor.encode).take cut := rfl
      rw [List.length_cons] at hcut
      rw [htake, readDescriptors_encode_append hkind, if_neg hsize, Nat.add_mod_right]
      exact ih (fun x hmem => hproper x (List.mem_cons_of_mem _ hmem)) (by omega) _

/-- **Cut preambles.** -/
theorem Preamble.read_take {preamble : Preamble} (hversion : preamble.version ≠ 0)
    (hproper : ∀ d ∈ preamble.descriptors, d.IsProper) {cut : Nat}
    (hcut : cut < preamble.encode.length) :
    read (preamble.encode.take cut) = .error (cutError preamble.encode.length cut) := by
  have hwritten := preamble.encode_append []
  rw [List.append_nil] at hwritten
  match cut with
  | 0 | 1 | 2 => simp [hwritten, read, isFormatted, magic, List.isPrefixOf, cutError]
  | cut + 3 =>
    have hshort : cut ≤ (preamble.descriptors.flatMap Descriptor.encode).length := by
      rw [length_encode] at hcut
      rw [length_flatMap_encode]
      omega
    have htake : preamble.encode.take (cut + 3) = 0xEF :: 0x00 :: preamble.version ::
        (preamble.descriptors.flatMap Descriptor.encode).take cut := by
      rw [hwritten, List.take_succ_cons, List.take_succ_cons, List.take_succ_cons,
        List.take_append_of_le_length hshort]
    rw [length_flatMap_encode] at hshort
    rw [htake, read_cons _ _ hversion, readDescriptors_take hproper hshort, cutError_of_lt hcut]
    rfl

/-! ## Running out of the header -/

/-- A header that is cut is refused for its preamble. -/
theorem Header.decode_take {raw : Bytes} {header : Header} {read cut : Nat}
    (hdecode : decode raw = .ok (header, read)) (hcut : cut < header.size) :
    decode (raw.take cut) = .error (cutError header.size cut) := by
  obtain ⟨hproper, _, rest, rfl⟩ := decode_eq_ok_iff.mp hdecode
  rw [← length_encode] at hcut ⊢
  rw [List.take_append_of_le_length (Nat.le_of_lt hcut), decode]
  rw [encode_eq_encode_preamble] at hcut ⊢
  rw [Preamble.read_take hproper.version_ne (forall_isProper_iff.mpr hproper.sizes_ne) hcut,
    error_bind]

/-- A header is read as before if the cut is behind it. -/
theorem Header.decode_take_of_le {raw : Bytes} {header : Header} {read cut : Nat}
    (hdecode : decode raw = .ok (header, read)) (hcut : header.size ≤ cut) :
    decode (raw.take cut) = .ok (header, read) := by
  obtain ⟨hproper, hread, rest, rfl⟩ := decode_eq_ok_iff.mp hdecode
  rw [← length_encode] at hcut
  refine decode_eq_ok_iff.mpr ⟨hproper, hread, rest.take (cut - header.encode.length), ?_⟩
  rw [List.take_append, List.take_of_length_le hcut]

/-- Nothing behind a header changes it. -/
theorem Header.decode_append {raw : Bytes} {header : Header} {read : Nat}
    (hdecode : decode raw = .ok (header, read)) (extra : Bytes) :
    decode (raw ++ extra) = .ok (header, read) := by
  obtain ⟨hproper, hread, rest, rfl⟩ := decode_eq_ok_iff.mp hdecode
  exact decode_eq_ok_iff.mpr ⟨hproper, hread, rest ++ extra, List.append_assoc ..⟩

/-! ## Running out of the body -/

theorem Body.decode_of_lt {raw : Bytes} {header : Header}
    (hshort : raw.length < header.size + header.bodySize) :
    decode raw header = .error (.refused .missingBody) :=
  if_pos hshort

theorem Body.decode_of_gt {raw : Bytes} {header : Header}
    (hlong : header.size + header.bodySize < raw.length) :
    decode raw header = .error (.refused .danglingData) :=
  (if_neg (Nat.lt_asymm hlong)).trans (if_pos hlong)

/-! ## Whole containers -/

/-- The header decides where it is refused. -/
theorem decode_of_header_error {raw : Bytes} {error : Error}
    (hheader : Header.decode raw = .error error) : decode raw = .error (.refused error) := by
  rw [decode, hheader]
  rfl

/-- The body decides where the header is read. -/
theorem decode_of_body_error {raw : Bytes} {header : Header} {read : Nat} {failure : Failure Error}
    (hheader : Header.decode raw = .ok (header, read))
    (hbody : Body.decode raw header = .error failure) : decode raw = .error failure := by
  have hfirst : Attempt.ofExcept (Header.decode raw) = .ok (header, read) :=
    Attempt.ofExcept_eq_ok_iff.mpr hheader
  rw [decode, hfirst, ok_bind]
  exact bind_eq_error_iff.mpr (.inl hbody)

/-- **Containers end where they say.** Behind a container that is read, one more byte is too many;
and wherever it is cut, the reader tells what is missing at the cut. -/
theorem extensions_and_cuts_refused {raw : Bytes} {container : Container}
    (hdecode : decode raw = .ok container) :
    (∀ extra, extra ≠ [] → decode (raw ++ extra) = .error (.refused .danglingData)) ∧
      ∀ cut < raw.length,
        decode (raw.take cut) = .error (.refused (cutError container.header.size cut)) := by
  obtain ⟨⟨read, hheader⟩, hbody, _⟩ := decode_eq_ok_iff.mp hdecode
  have hlength := Body.length_of_decode hbody
  constructor
  · intro extra hextra
    have hlong : container.header.size + container.header.bodySize < (raw ++ extra).length := by
      rw [← hlength, List.length_append]
      exact Nat.lt_add_of_pos_right (List.length_pos_iff.mpr hextra)
    exact decode_of_body_error (Header.decode_append hheader extra) (Body.decode_of_gt hlong)
  · intro cut hcut
    rcases Nat.lt_or_ge cut container.header.size with hfront | hbehind
    · exact decode_of_header_error (Header.decode_take hheader hfront)
    · have hshort : (raw.take cut).length < container.header.size + container.header.bodySize := by
        rw [← hlength, List.length_take]
        omega
      have hsize : 3 ≤ container.header.size := by
        rw [Header.size]
        omega
      rw [cutError_of_le hsize hbehind]
      exact decode_of_body_error (Header.decode_take_of_le hheader hbehind)
        (Body.decode_of_lt hshort)

/-- Two code sections with data, and a header of sixteen bytes: the cut can be in front of all
descriptors, behind the last of them, or inside of one. -/
theorem extensions_and_cuts_refused_two_sections :
    let body : Body := ⟨1, #[.entry, ⟨1, 2⟩], #[4, 6], [0xB0, 0, 1, 0, 0x80, 0xB1], [7, 7, 7], false⟩
    let raw := (ofBody body).raw
    decode raw = .ok (ofBody body) ∧ (ofBody body).header.size = 16 ∧ raw.length = 29 ∧
      decode (raw ++ [0]) = .error (.refused .danglingData) ∧
      decode (raw.take 1) = .error (.refused .invalidMagic) ∧
      decode (raw.take 2) = .error (.refused .missingVersion) ∧
      decode (raw.take 3) = .error (.refused .missingTerminator) ∧
      decode (raw.take 14) = .error (.refused .shortInputForSize) ∧
      decode (raw.take 15) = .error (.refused .missingTerminator) ∧
      decode (raw.take 16) = .error (.refused .missingBody) ∧
      decode (raw.take 28) = .error (.refused .missingBody) := by
  intro body raw
  have hdecode : decode raw = .ok (ofBody body) := eq_ok_of_toOption (by decide +kernel)
  have hlength : raw.length = 29 := by decide +kernel
  obtain ⟨happend, htake⟩ := extensions_and_cuts_refused hdecode
  rw [hlength] at htake
  exact ⟨hdecode, rfl, hlength, happend [0] (by decide), htake 1 (by decide), htake 2 (by decide),
    htake 3 (by decide), htake 14 (by decide), htake 15 (by decide), htake 16 (by decide),
    htake 28 (by decide)⟩

end EvmObject.Container
