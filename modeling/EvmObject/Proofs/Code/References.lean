import EvmObject.Code.References
import EvmObject.Proofs.Code.Operands

/-!
# References of one section

`Resolved` and `ReferenceError` say which references of a section are sound and what a section with
an unsound one is refused for, in terms of its instructions and of the instruction around the place
where a jump lands. The check itself looks at tables and lists that the analysis made; for a section
in order the two agree:

* `referenceFault?_eq_none_iff_resolved`: nothing is at fault exactly if the references are sound;
* `exists_referenceFault?_iff`: the error is the one that the instructions call for.

`checkReferences_eq_error_iff` joins the sections: the first one at fault decides.
-/

namespace EvmObject.Code

/-! ## The statement -/

namespace Item

/-- The item names one of `count` sections, if it is a call. -/
def CallsExisting (count : Nat) (item : Item) : Prop :=
  item.byte = Opcode.callf → Bytes.toNat item.immediate < count

/-- The item leads to an instruction of the split, if it is a relative jump. -/
def JumpsTo (split : List Item) (item : Item) : Prop :=
  item.HasJumpByte → ∃ reached ∈ split, (reached.pc : Int) = item.landing

end Item

/-- Every reference of the section is sound. -/
structure Resolved (count : Nat) (split : List Item) : Prop where
  calls : ∀ item ∈ split, item.CallsExisting count
  jumps : ∀ item ∈ split, item.JumpsTo split

/-- What a section with an unsound reference is refused for. A call comes before all jumps; of the
jumps the first one counts, and the instruction that it lands inside of. -/
inductive ReferenceError (count : Nat) (split : List Item) : Error → Prop where
  | missingCallee (item : Item) (hmem : item ∈ split) (hmissing : ¬ item.CallsExisting count) :
      ReferenceError count split .invalidSectionId
  | insideInstruction (before after : List Item) (jump owner : Item)
      (hcalls : ∀ item ∈ split, item.CallsExisting count)
      (hsplit : split = before ++ jump :: after)
      (hbefore : ∀ item ∈ before, item.JumpsTo split)
      (hjump : jump.HasJumpByte) (howner : owner ∈ split)
      (hinside : (owner.pc : Int) < jump.landing ∧ jump.landing < owner.next) :
      ReferenceError count split
        (if owner.byte = Opcode.callf then .jumpToCallOperand else .jumpToImmediateBytes)

/-! ## One section -/

section
variable {analysis : Analysis} {code : Bytes} {split : List Item} (hwell : WellFormed code split)
  (hdescribes : analysis.Describes code split)
include hwell

/-- What the check asks of a call is that the section it names exists. -/
theorem WellFormed.callsExisting_iff {count : Nat} {item : Item} (hmem : item ∈ split) :
    item.CallsExisting count ↔
      (item.byte = Opcode.callf → (UInt16.ofNat (Bytes.toNat item.immediate)).toNat < count) := by
  refine forall_congr' fun hcall => ?_
  have htwo := hwell.tiled.length_of_callf hmem hcall
  rw [UInt16.toNat_ofNat', Nat.mod_eq_of_lt (toNat_lt_of_length htwo)]

/-- A jump that does not land on an instruction lands inside of one. -/
theorem WellFormed.exists_encloses {jump : Item} (hmem : jump ∈ split)
    (hjump : jump.HasJumpByte) (hnot : ¬ jump.JumpsTo split) :
    ∃ owner ∈ split, owner.Encloses jump.landing.toNat := by
  obtain ⟨hlow, hhigh⟩ := hwell.inside jump hmem hjump
  obtain ⟨owner, howner, haround⟩ :=
    hwell.tiled.exists_around (Nat.zero_le jump.landing.toNat) (by omega)
  refine ⟨owner, howner, Nat.lt_of_le_of_ne haround.1 fun hpc => hnot fun _ => ?_, haround.2⟩
  exact ⟨owner, howner, by omega⟩

include hdescribes

theorem Analysis.Describes.isValid_landing_iff {item : Item} (hmem : item ∈ split)
    (hjump : item.HasJumpByte) :
    analysis.jumpTable.isValid item.landing.toNat = true ↔
      ∃ reached ∈ split, (reached.pc : Int) = item.landing := by
  have hinside := (hwell.inside item hmem hjump).1
  rw [hdescribes.isValid]
  refine exists_congr fun reached => and_congr_right fun _ => ?_
  omega

theorem Analysis.Describes.find?_calls_eq_none_iff {count : Nat} :
    analysis.calls.find? (fun call => count ≤ call.callee.toNat) = none ↔
      ∀ item ∈ split, item.CallsExisting count := by
  simp only [hdescribes.calls, List.find?_eq_none, List.forall_mem_map, List.mem_filter,
    decide_eq_true_iff, Nat.not_le, and_imp]
  exact forall_congr' fun item => forall_congr' fun hmem => (hwell.callsExisting_iff hmem).symm

/-- The first jump that the check finds fault with is the first that does not land on an
instruction. -/
theorem Analysis.Describes.find?_jumps_eq_some_iff {found : Jump} :
    analysis.jumps.find? (fun jump => !analysis.jumpTable.isValid jump.target) = some found ↔
      ∃ before jump after, split = before ++ jump :: after ∧ jump.HasJumpByte ∧
        ¬ jump.JumpsTo split ∧ (∀ item ∈ before, item.JumpsTo split) ∧
        found = ⟨jump.pc, jump.landing.toNat⟩ := by
  have htest : ∀ item ∈ split, decide (decide item.HasJumpByte = true ∧
      (!analysis.jumpTable.isValid item.landing.toNat) = true) = true ↔ ¬ item.JumpsTo split := by
    intro item hmem
    rw [decide_eq_true_iff, decide_eq_true_iff, Item.JumpsTo, Classical.not_imp]
    refine and_congr_right fun hjump => ?_
    rw [← hdescribes.isValid_landing_iff hwell hmem hjump, Bool.not_eq_true', Bool.not_eq_true]
  rw [hdescribes.jumps, List.find?_map, List.find?_filter, Option.map_eq_some_iff]
  constructor
  · rintro ⟨jump, hfind, rfl⟩
    obtain ⟨hbad, before, after, hsplit, hbefore⟩ := List.find?_eq_some_iff_append.mp hfind
    have hnot := (htest jump (List.mem_of_find?_eq_some hfind)).mp hbad
    refine ⟨before, jump, after, hsplit, (Classical.not_imp.mp hnot).1, hnot, ?_, rfl⟩
    intro item hmem
    have hgood := hbefore item hmem
    rw [Bool.not_eq_true', ← Bool.not_eq_true] at hgood
    have hsplitMem : item ∈ split := hsplit ▸ List.mem_append_left _ hmem
    exact Classical.not_not.mp fun hbadItem => hgood ((htest item hsplitMem).mpr hbadItem)
  · rintro ⟨before, jump, after, hsplit, _, hnot, hbefore, rfl⟩
    have hmem : jump ∈ split := hsplit ▸ List.mem_append_right _ List.mem_cons_self
    refine ⟨jump, List.find?_eq_some_iff_append.mpr
      ⟨(htest jump hmem).mpr hnot, before, after, hsplit, ?_⟩, rfl⟩
    intro item hitem
    have hsplitMem : item ∈ split := hsplit ▸ List.mem_append_left _ hitem
    rw [Bool.not_eq_true', ← Bool.not_eq_true]
    exact fun hbad => (htest item hsplitMem).mp hbad (hbefore item hitem)

/-- **No reference is at fault exactly if all are sound.** -/
theorem Analysis.Describes.referenceFault?_eq_none_iff_resolved {count index : Nat} :
    analysis.referenceFault? count index = none ↔ Resolved count split := by
  have hcalls : (∀ call ∈ analysis.calls, call.callee.toNat < count) ↔
      ∀ item ∈ split, item.CallsExisting count := by
    rw [← hdescribes.find?_calls_eq_none_iff hwell, List.find?_eq_none]
    simp only [decide_eq_true_iff, Nat.not_le]
  have hjumps : (∀ jump ∈ analysis.jumps, analysis.jumpTable.isValid jump.target = true) ↔
      ∀ item ∈ split, item.JumpsTo split := by
    simp only [hdescribes.jumps, List.forall_mem_map, List.mem_filter, decide_eq_true_iff, and_imp]
    exact forall_congr' fun item => forall_congr' fun hmem => forall_congr' fun hjump =>
      hdescribes.isValid_landing_iff hwell hmem hjump
  rw [Analysis.referenceFault?_eq_none_iff, hcalls, hjumps]
  constructor
  · rintro ⟨hcallsSound, hjumpsSound⟩
    exact ⟨hcallsSound, hjumpsSound⟩
  · intro hresolved
    exact ⟨hresolved.calls, hresolved.jumps⟩

/-- The instruction that a jump lands inside of tells the error. -/
theorem Analysis.Describes.error_eq {index : Nat} {jump owner : Item} (howner : owner ∈ split)
    (hinside : owner.Encloses jump.landing.toNat) :
    (ReferenceFault.insideInstruction index jump.pc jump.landing.toNat
      (analysis.callAt? jump.landing.toNat).isSome).error =
        if owner.byte = Opcode.callf then .jumpToCallOperand else .jumpToImmediateBytes := by
  have hiff := hdescribes.isSome_callAt?_iff hwell.tiled jump.landing.toNat
  by_cases hcall : owner.byte = Opcode.callf
  · rw [hiff.mpr ⟨owner, howner, hcall, hinside⟩, if_pos hcall]
    rfl
  · have hnone : (analysis.callAt? jump.landing.toNat).isSome = false := by
      rw [← Bool.not_eq_true, hiff]
      rintro ⟨item, hmem, hbyte, haround⟩
      -- the byte is inside one instruction only, and that is not a call
      obtain rfl := hwell.tiled.eq_of_around howner hmem hinside.isAround haround.isAround
      exact hcall hbyte
    rw [hnone, if_neg hcall]
    rfl

/-- **A section at fault is refused for what its instructions call for.** -/
theorem Analysis.Describes.exists_referenceFault?_iff {count index : Nat} {error : Error} :
    (∃ fault, analysis.referenceFault? count index = some fault ∧ fault.error = error) ↔
      ReferenceError count split error := by
  by_cases hcalls : ∀ item ∈ split, item.CallsExisting count
  · have hfind := (hdescribes.find?_calls_eq_none_iff hwell).mpr hcalls
    simp only [Analysis.referenceFault?, hfind, Option.map_eq_some_iff,
      hdescribes.find?_jumps_eq_some_iff hwell]
    constructor
    · rintro ⟨_, ⟨_, ⟨before, jump, after, hsplit, hjump, hnot, hbefore, rfl⟩, rfl⟩, rfl⟩
      have hmem : jump ∈ split := hsplit ▸ List.mem_append_right _ List.mem_cons_self
      have hlow := (hwell.inside jump hmem hjump).1
      obtain ⟨owner, howner, hinside⟩ := hwell.exists_encloses hmem hjump hnot
      rw [hdescribes.error_eq hwell howner hinside]
      obtain ⟨hfrom, hto⟩ := hinside
      exact .insideInstruction before after jump owner hcalls hsplit hbefore hjump howner
        ⟨by omega, by omega⟩
    · rintro (⟨item, hmem, hmissing⟩ |
        ⟨before, after, jump, owner, _, hsplit, hbefore, hjump, howner, hfrom, hto⟩)
      · exact absurd (hcalls item hmem) hmissing
      · have hinside : owner.Encloses jump.landing.toNat := ⟨by omega, by omega⟩
        -- where the jump lands inside of an instruction no other one starts
        have hnot : ¬ jump.JumpsTo split := by
          intro hlands
          obtain ⟨reached, hreached, hpc⟩ := hlands hjump
          exact hwell.tiled.pc_ne_of_encloses hreached howner hinside (by omega)
        exact ⟨_, ⟨_, ⟨before, jump, after, hsplit, hjump, hnot, hbefore, rfl⟩, rfl⟩,
          hdescribes.error_eq hwell howner hinside⟩
  · have hfind : analysis.calls.find? (fun call => count ≤ call.callee.toNat) ≠ none :=
      fun hnone => hcalls ((hdescribes.find?_calls_eq_none_iff hwell).mp hnone)
    obtain ⟨call, hcall⟩ := Option.ne_none_iff_exists'.mp hfind
    simp only [Analysis.referenceFault?, hcall, Option.some.injEq, exists_eq_left']
    constructor
    · rintro rfl
      obtain ⟨item, hitem⟩ := Classical.not_forall.mp hcalls
      obtain ⟨hmem, hmissing⟩ := Classical.not_imp.mp hitem
      exact .missingCallee item hmem hmissing
    · rintro (_ | ⟨_, _, _, _, hexisting, _⟩)
      · rfl
      · exact absurd hexisting hcalls

end

/-! ## All sections -/

/-- **The first section at fault decides.** -/
theorem checkReferences_eq_error_iff {analyses : List Analysis} {fault : ReferenceFault} :
    checkReferences analyses = .error fault ↔
      ∃ (index : Nat) (analysis : Analysis), analyses[index]? = some analysis ∧
        analysis.referenceFault? analyses.length index = some fault ∧
        ∀ (earlier : Nat) (other : Analysis), earlier < index → analyses[earlier]? = some other →
          other.referenceFault? analyses.length earlier = none := by
  have hsome : checkReferences analyses = .error fault ↔
      analyses.zipIdx.findSome? (fun member =>
        member.1.referenceFault? analyses.length member.2) = some fault := by
    rw [checkReferences]
    simp only
    split
    · next found hfound =>
      have hfirst : analyses.zipIdx.findSome? (fun member =>
        member.1.referenceFault? analyses.length member.2) = some found := hfound
      rw [hfirst, Except.error.injEq, Option.some.injEq]
    · next hnone =>
      have hfirst : analyses.zipIdx.findSome? (fun member =>
        member.1.referenceFault? analyses.length member.2) = none := hnone
      simp [hfirst]
  rw [hsome, List.findSome?_eq_some_iff]
  constructor
  · rintro ⟨before, ⟨analysis, place⟩, after, hzip, hfault, hclear⟩
    have hget (index : Nat) :
        analyses.zipIdx[index]? = (before ++ (analysis, place) :: after)[index]? :=
      congrArg (·[index]?) hzip
    have hplace : analyses[before.length]? = some analysis ∧ place = before.length := by
      have hhere := hget before.length
      rw [List.getElem?_append_right (Nat.le_refl _), Nat.sub_self, List.getElem?_cons_zero,
        List.getElem?_zipIdx, Option.map_eq_some_iff] at hhere
      obtain ⟨_, hanalysis, hpair⟩ := hhere
      obtain ⟨rfl, rfl⟩ := Prod.mk.inj hpair
      exact ⟨hanalysis, Nat.zero_add _⟩
    obtain ⟨hanalysis, rfl⟩ := hplace
    refine ⟨before.length, analysis, hanalysis, hfault, fun earlier other hlt hother => ?_⟩
    have hthere := hget earlier
    rw [List.getElem?_append_left hlt, List.getElem?_zipIdx, hother, Option.map_some,
      Nat.zero_add] at hthere
    exact hclear _ (List.mem_of_getElem? hthere.symm)
  · rintro ⟨index, analysis, hanalysis, hfault, hclear⟩
    have hget : analyses.zipIdx[index]? = some (analysis, index) := by
      rw [List.getElem?_zipIdx, hanalysis, Option.map_some, Nat.zero_add]
    obtain ⟨hindex, hhere⟩ := List.getElem?_eq_some_iff.mp hget
    refine ⟨analyses.zipIdx.take index, (analysis, index), analyses.zipIdx.drop (index + 1), ?_,
      hfault, ?_⟩
    · rw [← hhere, ← List.drop_eq_getElem_cons hindex, List.take_append_drop]
    · rintro ⟨other, earlier⟩ hmem
      obtain ⟨place, hplace, hpair⟩ := List.mem_take_iff_getElem.mp hmem
      have hearlier : analyses.zipIdx[place]? = some (other, earlier) :=
        List.getElem?_eq_some_iff.mpr ⟨by omega, hpair⟩
      rw [List.getElem?_zipIdx, Option.map_eq_some_iff] at hearlier
      obtain ⟨_, hother, hpair⟩ := hearlier
      obtain ⟨rfl, rfl⟩ := Prod.mk.inj hpair
      rw [Nat.zero_add]
      exact hclear place _ (by omega) hother

end EvmObject.Code
