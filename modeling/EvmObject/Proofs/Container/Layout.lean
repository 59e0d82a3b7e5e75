import EvmObject.Proofs.Container.Encodable

/-!
# The sections of a container in its bytes

A container keeps its code in one piece and finds the sections by their ends. `Body.codes` lists the
sections, and `Body.Consistent.flatten_codes` says that they cover the code without gap or overlap.
Around them stand the header, the signatures if they are written, and the data, and
`layout_of_decode` says that this is all there is.
-/

namespace EvmObject.Container

namespace Body

/-! ## Code sections side by side -/

/-- The code sections in order, cut at the ends. -/
def codes (body : Body) : List Bytes :=
  (spans 0 body.sectionEnds.toList).map fun span => Bytes.window body.code span.1 (span.2 - span.1)

theorem length_codes (body : Body) : body.codes.length = body.codeCount := by
  rw [codes, List.length_map, length_spans, Array.length_toList, codeCount]

theorem getElem?_codes (body : Body) (index : Nat) :
    body.codes[index]? = (body.bounds? index).map fun span =>
      Bytes.window body.code span.1 (span.2 - span.1) := by
  rw [codes, List.getElem?_map, getElem?_spans]

/-- Slices between ascending ends make up what lies behind the start. -/
theorem flatten_windows {code : Bytes} {start : Nat} {ends : List Nat}
    (hsorted : (start :: ends).Pairwise (· ≤ ·)) (hlast : ends.getLast?.getD start = code.length) :
    ((spans start ends).map fun span => Bytes.window code span.1 (span.2 - span.1)).flatten =
      code.drop start := by
  induction ends generalizing start with
  | nil =>
    rw [List.getLast?_nil, Option.getD_none] at hlast
    simp [hlast]
  | cons stop rest ih =>
    obtain ⟨hstart, hrest⟩ := List.pairwise_cons.mp hsorted
    have hstop : start ≤ stop := hstart stop List.mem_cons_self
    rw [List.getLast?_cons, Option.getD_some] at hlast
    have hbehind : (code.drop start).drop (stop - start) = code.drop stop := by
      rw [List.drop_drop, Nat.add_sub_cancel' hstop]
    rw [spans_cons, List.map_cons, List.flatten_cons, ih hrest hlast, Bytes.window, ← hbehind,
      List.take_append_drop]

section
variable {body : Body} (hconsistent : body.Consistent)
include hconsistent

/-- **The code sections cover the code** without gap or overlap. -/
theorem Consistent.flatten_codes : body.codes.flatten = body.code :=
  flatten_windows hconsistent.pairwise hconsistent.getLast?

theorem Consistent.slice?_bounds {index start stop : Nat}
    (hbounds : body.bounds? index = some (start, stop)) :
    Bytes.slice? body.code start stop = some (Bytes.window body.code start (stop - start)) := by
  rw [← getElem?_spans] at hbounds
  have hle := le_of_mem_spans hconsistent.pairwise (List.mem_of_getElem? hbounds)
  rw [hconsistent.getLast?] at hle
  rw [Bytes.slice?, if_pos hle, Bytes.window]

/-- A section is read as what it is, and none past the last. -/
theorem Consistent.slice?_eq (index : Nat) : body.slice? index = body.codes[index]? := by
  rw [slice?, getElem?_codes]
  cases hbounds : body.bounds? index with
  | none => rfl
  | some span => exact hconsistent.slice?_bounds hbounds

theorem Consistent.read_eq {ε : Type} (index : Nat) :
    (body.read index : Attempt ε (Option Bytes)) = .ok body.codes[index]? := by
  rw [read, getElem?_codes]
  cases hbounds : body.bounds? index with
  | none => rfl
  | some span =>
    simp only [hconsistent.slice?_bounds hbounds]
    rfl

/-- Sections are as long as their ends are apart. -/
theorem Consistent.map_length_codes : body.codes.map List.length = body.sizes := by
  rw [codes, sizes, List.map_map]
  refine List.map_congr_left fun span hmem => ?_
  have hle := le_of_mem_spans hconsistent.pairwise hmem
  rw [hconsistent.getLast?] at hle
  simp only [Function.comp_apply, Bytes.window, List.length_take, List.length_drop]
  omega

/-- Sections that fit in sixteen bits are declared as long as they are. -/
theorem Consistent.map_codeSizes_header (hsmall : ∀ size ∈ body.sizes, size < 0x10000) :
    body.header.codeSizes.toList.map UInt16.toNat = body.codes.map List.length := by
  rw [codeSizes_header, List.map_map, hconsistent.map_length_codes]
  exact map_cut_eq hsmall

end

end Body

/-! ## The whole container -/

/-- What the bytes of a container are made of: the header, the signatures if they are written, the
code sections, and the data. -/
structure Layout (raw : Bytes) (container : Container) (signatures : List Signature)
    (codes : List Bytes) : Prop where
  raw_eq : raw = container.header.encode ++
    (if container.body.isTypesImplicit then [] else signatures.flatMap Signature.encode) ++
      codes.flatten ++ container.body.data
  length_header : container.header.encode.length = container.header.size
  count : 1 ≤ container.body.codeCount ∧ container.body.codeCount ≤ 1024
  /-- There is one signature for each code section, and the first is that of the entry. -/
  length_signatures : signatures.length = container.body.codeCount
  signature?_eq : ∀ index, container.signature? index = signatures[index]?
  entry : signatures[0]? = some .entry
  /-- There are as many codes as code sections; each is read by its index, and no other. -/
  length_codes : codes.length = container.body.codeCount
  slice?_eq : ∀ index, container.body.slice? index = codes[index]?
  read_eq : ∀ (ε : Type) (index : Nat),
    (container.body.read index : Attempt ε (Option Bytes)) = .ok codes[index]?
  ne_nil : ∀ code ∈ codes, code ≠ []
  /-- Codes are as long as the header declares. -/
  sizes_eq : codes.map List.length = container.header.codeSizes.toList.map UInt16.toNat

/-- A section is as long as sixteen bits can say. -/
theorem Layout.length_lt {raw : Bytes} {container : Container} {signatures : List Signature}
    {codes : List Bytes} (hlayout : Layout raw container signatures codes) {index : Nat}
    {code : Bytes} (hslice : container.body.slice? index = some code) : code.length < 0x10000 := by
  rw [hlayout.slice?_eq] at hslice
  have hlength : code.length ∈ codes.map List.length :=
    List.mem_map_of_mem (List.mem_of_getElem? hslice)
  rw [hlayout.sizes_eq, List.mem_map] at hlength
  obtain ⟨size, _, hsize⟩ := hlength
  rw [← hsize]
  exact size.toNat_lt

/-- **The sections tile the container.** What is read as a container is its header, the signatures
if they are written, between one and 1024 code sections one after the other, and the data, with
nothing before, between or behind. -/
theorem layout_of_decode {raw : Bytes} {container : Container}
    (hdecode : decode raw = .ok container) :
    ∃ signatures codes, Layout raw container signatures codes := by
  have hread := readFrom_of_decode hdecode
  have hconsistent := consistent_of_decode hdecode
  have hencodable := encodable_of_decode hdecode
  have hsizes := (hconsistent.forall_sections_iff fun size => 1 ≤ size ∧ size < 0x10000).mp
    hencodable.sizes
  exact ⟨container.body.signatures.toList, container.body.codes, {
    raw_eq := by
      rw [← hread.encode_eq, encode, Body.encode_eq, hconsistent.flatten_codes]
      simp only [List.append_assoc]
      rfl
    length_header := container.header.length_encode
    count := hencodable.count
    length_signatures := hread.signatures_size
    signature?_eq := fun index => Array.getElem?_toList.symm
    entry := by
      rw [Array.getElem?_toList]
      exact (hconsistent.encodable_iff.mp hencodable).2.2
    length_codes := container.body.length_codes
    slice?_eq := hconsistent.slice?_eq
    read_eq := fun ε => hconsistent.read_eq
    ne_nil := by
      rintro code hmem rfl
      have hzero : 0 ∈ container.body.codes.map List.length := List.mem_map_of_mem hmem
      rw [hconsistent.map_length_codes] at hzero
      exact absurd (hsizes 0 hzero).1 (by decide)
    sizes_eq := by
      rw [← hread.header_eq]
      exact (hconsistent.map_codeSizes_header fun size hmem => (hsizes size hmem).2).symm }⟩

/-- Two sections with their signatures and three bytes of data. -/
theorem layout_of_decode_two_sections :
    let body : Body := ⟨1, #[.entry, ⟨1, 2⟩], #[4, 6], [0xB0, 0, 1, 0, 0x80, 0xB1], [7, 7, 7], false⟩
    decode (ofBody body).raw = .ok (ofBody body) ∧
      ∃ signatures codes, Layout (ofBody body).raw (ofBody body) signatures codes ∧
        codes[0]? = some [0xB0, 0, 1, 0] ∧ codes[1]? = some [0x80, 0xB1] ∧ codes[2]? = none := by
  intro body
  have hdecode : decode (ofBody body).raw = .ok (ofBody body) :=
    eq_ok_of_toOption (by decide +kernel)
  obtain ⟨signatures, codes, hlayout⟩ := layout_of_decode hdecode
  exact ⟨hdecode, signatures, codes, hlayout, (hlayout.slice?_eq 0).symm, (hlayout.slice?_eq 1).symm,
    (hlayout.slice?_eq 2).symm⟩

end EvmObject.Container
