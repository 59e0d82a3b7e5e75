import EvmObject.Code.Analysis

/-!
# References between instructions and sections

Once every section is analysed, each call has to name one of them and each relative jump has to land
on an instruction of its own section. Sections are checked in order, in each of them the calls
before the jumps. Main statement: `checkReferences_eq_ok_iff`.
-/

namespace EvmObject.Code

namespace Analysis

/-- What is wrong with the references of section `index` among `count`. -/
def referenceFault? (count index : Nat) (analysis : Analysis) : Option ReferenceFault :=
  let badCall := analysis.calls.find? fun call => count ≤ call.callee.toNat
  match badCall with
  | some call => some (.missingCallee index call.pc call.callee)
  | none =>
    let badJump := analysis.jumps.find? fun jump => !analysis.jumpTable.isValid jump.target
    badJump.map fun jump =>
      .insideInstruction index jump.pc jump.target (analysis.callAt? jump.target).isSome

end Analysis

/-- Checks the references of all sections. -/
def checkReferences (analyses : List Analysis) : Except ReferenceFault Unit :=
  let count := analyses.length
  match analyses.zipIdx.findSome? fun (analysis, index) =>
      analysis.referenceFault? count index with
  | some fault => .error fault
  | none => .ok ()

/-- The references of a section are sound exactly if each call names one of the sections and each
jump lands on an instruction. -/
theorem Analysis.referenceFault?_eq_none_iff {count index : Nat} {analysis : Analysis} :
    analysis.referenceFault? count index = none ↔
      (∀ call ∈ analysis.calls, call.callee.toNat < count) ∧
        ∀ jump ∈ analysis.jumps, analysis.jumpTable.isValid jump.target = true := by
  unfold referenceFault?
  simp only
  split
  · next call found =>
    have bad := List.find?_some found
    have mem := List.mem_of_find?_eq_some found
    simp only [reduceCtorEq, false_iff, not_and]
    intro sound
    have := sound call mem
    simp at bad
    omega
  · next none =>
    simp only [Option.map_eq_none_iff, List.find?_eq_none, Bool.not_eq_eq_eq_not,
      Bool.not_true, Bool.not_eq_false, decide_eq_true_eq, Nat.not_le] at none ⊢
    exact ⟨fun sound => ⟨none, sound⟩, fun sound => sound.2⟩

/-- The check passes exactly if the references of every section are sound. -/
theorem checkReferences_eq_ok_iff {analyses : List Analysis} :
    checkReferences analyses = .ok () ↔
      ∀ analysis ∈ analyses,
        (∀ call ∈ analysis.calls, call.callee.toNat < analyses.length) ∧
          ∀ jump ∈ analysis.jumps, analysis.jumpTable.isValid jump.target = true := by
  unfold checkReferences
  simp only
  split
  · next fault found =>
    simp only [reduceCtorEq, false_iff]
    intro sound
    obtain ⟨⟨analysis, index⟩, mem, hit⟩ := List.exists_of_findSome?_eq_some found
    have clear : analysis.referenceFault? analyses.length index = none :=
      Analysis.referenceFault?_eq_none_iff.mpr (sound analysis (List.fst_mem_of_mem_zipIdx mem))
    simp [clear] at hit
  · next none =>
    simp only [true_iff]
    intro analysis mem
    obtain ⟨index, bound, rfl⟩ := List.getElem_of_mem mem
    exact Analysis.referenceFault?_eq_none_iff.mp
      (List.findSome?_eq_none_iff.mp none (analyses[index], index)
        (List.mem_zipIdx_iff_getElem?.mpr (by simp [bound])))

end EvmObject.Code
