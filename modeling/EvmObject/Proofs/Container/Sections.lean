import EvmObject.Container.Body
import EvmObject.Proofs.Container.Header

/-!
# Code sections by their ends

A body keeps its code in one piece and says where each section ends. `Body.spans` pairs every end
with the end before it, and all that a body does with its sections goes through these pairs: their
differences are the sizes that the header declares, and their slices are the sections.

Sixteen bits may be too few for a size. `Body.total_cut_le` says that sizes cut to sixteen bits
never add up to more than the code, and to just as much only if none was cut.
-/

namespace EvmObject.Container.Body

/-! ## Spans -/

/-- The bounds of consecutive sections with the given ends if the first starts at `start`. -/
def spans (start : Nat) (ends : List Nat) : List (Nat × Nat) :=
  (start :: ends).zip ends

@[simp] theorem spans_nil (start : Nat) : spans start [] = [] := rfl

@[simp] theorem spans_cons (start stop : Nat) (rest : List Nat) :
    spans start (stop :: rest) = (start, stop) :: spans stop rest := rfl

theorem length_spans (start : Nat) (ends : List Nat) : (spans start ends).length = ends.length := by
  rw [spans, List.length_zip, List.length_cons]
  omega

theorem sections_eq (body : Body) :
    body.sections = (spans 0 body.sectionEnds.toList).map fun span =>
      Bytes.slice? body.code span.1 span.2 := rfl

theorem sizesFrom_eq (start : Nat) (ends : List Nat) :
    sizesFrom start ends = (spans start ends).map fun span =>
      UInt16.ofNat (span.2 - span.1) := by
  induction ends generalizing start with
  | nil => rfl
  | cons stop rest ih => rw [sizesFrom, ih, spans_cons, List.map_cons]

/-- A header declares as many code sections as the body has. -/
theorem size_codeSizes_header (body : Body) : body.header.codeSizes.size = body.codeCount := by
  rw [header, List.size_toArray, sizesFrom_eq, List.length_map, length_spans, Array.length_toList,
    codeCount]

/-! ## One section -/

@[simp] theorem length_sections (body : Body) : body.sections.length = body.codeCount := by
  rw [sections_eq, List.length_map, length_spans, Array.length_toList, codeCount]

/-- Where a section starts is the end in front of its own. -/
theorem getElem?_cons_sectionEnds (body : Body) (index : Nat) :
    (0 :: body.sectionEnds.toList)[index]? = body.start? index := by
  cases index with
  | zero => rfl
  | succ index => rw [List.getElem?_cons_succ, Array.getElem?_toList]; rfl

/-- The bounds of a section are its span. -/
theorem getElem?_spans (body : Body) (index : Nat) :
    (spans 0 body.sectionEnds.toList)[index]? = body.bounds? index := by
  apply Option.ext
  rintro ⟨start, stop⟩
  rw [spans, List.getElem?_zip_eq_some, getElem?_cons_sectionEnds, Array.getElem?_toList]
  simp only [bounds?, Option.bind_eq_bind, Option.bind_eq_some_iff, Option.pure_def,
    Option.some.injEq, Prod.mk.injEq]
  constructor
  · rintro ⟨hstart, hstop⟩
    exact ⟨stop, hstop, start, hstart, rfl, rfl⟩
  · rintro ⟨_, hstop, _, hstart, rfl, rfl⟩
    exact ⟨hstart, hstop⟩

/-- The sections of a body are its slices in order. -/
theorem getElem?_sections {body : Body} {index : Nat} (hindex : index < body.codeCount) :
    body.sections[index]? = some (body.slice? index) := by
  have hlength : index < (spans 0 body.sectionEnds.toList).length := by
    rw [length_spans, Array.length_toList]
    exact hindex
  have hget := getElem?_spans body index
  rw [List.getElem?_eq_getElem hlength] at hget
  rw [sections_eq, List.getElem?_map, List.getElem?_eq_getElem hlength, slice?, ← hget]
  rfl

/-! ## All sections -/

section
variable {start : Nat} {ends : List Nat} (hsorted : (start :: ends).Pairwise (· ≤ ·))
include hsorted

/-- Spans between ascending ends are not reversed and stop no later than the last end. -/
theorem le_of_mem_spans {span : Nat × Nat} (hmem : span ∈ spans start ends) :
    span.1 ≤ span.2 ∧ span.2 ≤ ends.getLast?.getD start := by
  induction ends generalizing start with
  | nil => cases hmem
  | cons stop rest ih =>
    obtain ⟨hstart, hrest⟩ := List.pairwise_cons.mp hsorted
    have hlast : stop ≤ rest.getLast?.getD stop := by
      cases hget : rest.getLast? with
      | none => exact Nat.le_refl _
      | some last =>
        exact (List.pairwise_cons.mp hrest).1 last (List.mem_of_getLast? hget)
    rw [List.getLast?_cons, Option.getD_some]
    rcases List.mem_cons.mp hmem with rfl | hmem
    · exact ⟨hstart stop List.mem_cons_self, hlast⟩
    · exact ih hrest hmem

/-- The sizes of consecutive sections add up to what the last end is behind the start. -/
theorem total_spans :
    start + total ((spans start ends).map fun span => span.2 - span.1) =
      ends.getLast?.getD start := by
  induction ends generalizing start with
  | nil => rfl
  | cons stop rest ih =>
    obtain ⟨hstart, hrest⟩ := List.pairwise_cons.mp hsorted
    have hstop : start ≤ stop := hstart stop List.mem_cons_self
    have htail := ih hrest
    rw [List.getLast?_cons, Option.getD_some, spans_cons, List.map_cons, total_cons]
    omega

/-- **Sizes that fit in sixteen bits lead back to the ends.** -/
theorem endsFrom_sizesFrom (hsmall : ∀ span ∈ spans start ends, span.2 - span.1 < 0x10000) :
    endsFrom start (sizesFrom start ends) = ends := by
  induction ends generalizing start with
  | nil => rfl
  | cons stop rest ih =>
    obtain ⟨hstart, hrest⟩ := List.pairwise_cons.mp hsorted
    have hstop : start ≤ stop := hstart stop List.mem_cons_self
    have hsize : (UInt16.ofNat (stop - start)).toNat = stop - start := by
      rw [UInt16.toNat_ofNat']
      exact Nat.mod_eq_of_lt (hsmall (start, stop) List.mem_cons_self)
    have htail := ih hrest fun span hmem => hsmall span (List.mem_cons_of_mem _ hmem)
    rw [sizesFrom, endsFrom, hsize, Nat.add_sub_cancel' hstop, htail]

end

/-- Numbers that fit in sixteen bits are not cut. -/
theorem map_cut_eq {sizes : List Nat} (hsmall : ∀ size ∈ sizes, size < 0x10000) :
    sizes.map (fun size => (UInt16.ofNat size).toNat) = sizes := by
  have huncut : sizes.map (fun size => (UInt16.ofNat size).toNat) = sizes.map id := by
    refine List.map_congr_left fun size hmem => ?_
    rw [UInt16.toNat_ofNat', id]
    exact Nat.mod_eq_of_lt (hsmall size hmem)
  rw [huncut, List.map_id]

/-- Numbers cut to sixteen bits add up to no more, and to as much only if none is cut. -/
theorem total_cut_le (sizes : List Nat) :
    total (sizes.map fun size => (UInt16.ofNat size).toNat) ≤ total sizes ∧
      (total (sizes.map fun size => (UInt16.ofNat size).toNat) = total sizes →
        ∀ size ∈ sizes, size < 0x10000) := by
  induction sizes with
  | nil => exact ⟨Nat.le_refl _, fun _ size hmem => by cases hmem⟩
  | cons size rest ih =>
    obtain ⟨hle, heq⟩ := ih
    have hcut : (UInt16.ofNat size).toNat = size % 0x10000 := UInt16.toNat_ofNat'
    rw [List.map_cons, total_cons, total_cons, hcut]
    refine ⟨by omega, fun hsum other hmem => ?_⟩
    rcases List.mem_cons.mp hmem with rfl | hmem
    · omega
    · exact heq (by omega) other hmem

end EvmObject.Container.Body
