import EvmObject.Proofs.Code.Acceptance
import EvmObject.Proofs.Sequencing

/-!
# Which instruction is blamed

A section can be wrong in several places and an instruction in several ways, but the analysis gives
one fault. `Item.HasFault` says what is wrong with an instruction in terms of its bytes and of the
size of the section, where the rules exclude each other, and `Blames` which instruction decides. The
main result is `analyze_error_iff_blames`: what the analysis fails with is what `Blames` says.

What the walk gives as an operand may be cut. So before its length or the number it writes can be
spoken of, `exists_read_of_mem_items` finds the place in the code where an item was read.
-/

namespace EvmObject.Code

/-! ## The statement -/

/-- What is wrong with an instruction of a section of `size` bytes, as an error and as the fault
that is reported. -/
inductive Item.HasFault (size : Nat) (item : Item) : Error → Fault → Prop where
  /-- The byte is undefined or a legacy instruction. -/
  | undefined (hdisabled : ∀ op : Opcode, op.byte = item.byte → op.info.isLegacy = true) :
      HasFault size item .undefinedInstruction (.undefined item.byte item.pc)
  /-- The section ends before the operand does. -/
  | truncated (op : Opcode) (hbyte : op.byte = item.byte) (henabled : op.info.isLegacy = false)
      (hcut : size < item.pc + 1 + op.info.immediateSize) :
      HasFault size item .truncatedImmediate (.truncated op item.pc)
  /-- A whole relative jump leads before the section. -/
  | below (op : Opcode) (hbyte : op.byte = item.byte) (henabled : op.info.isLegacy = false)
      (hwhole : item.pc + 1 + op.info.immediateSize ≤ size) (hjump : item.HasJumpByte)
      (hbelow : item.landing < 0) :
      HasFault size item .jumpUnderflow (.below op item.pc item.landing)
  /-- A whole relative jump leads to the end of the section or behind it. -/
  | above (op : Opcode) (hbyte : op.byte = item.byte) (henabled : op.info.isLegacy = false)
      (hwhole : item.pc + 1 + op.info.immediateSize ≤ size) (hjump : item.HasJumpByte)
      (habove : size ≤ item.landing) :
      HasFault size item .jumpOverflow (.above op item.pc item.landing)

/-- Nothing is wrong with the instruction. -/
def Item.IsSound (size : Nat) (item : Item) : Prop :=
  ∀ error fault, ¬ item.HasFault size error fault

/-- What a section is refused for. -/
inductive Blames (code : Bytes) : Error → Fault → Prop where
  /-- The first instruction that something is wrong with decides. -/
  | instruction (before : List Item) (item : Item) (after : List Item) (error : Error)
      (fault : Fault) (hitems : items code = before ++ item :: after)
      (hbefore : ∀ earlier ∈ before, earlier.IsSound code.length)
      (hfault : item.HasFault code.length error fault) : Blames code error fault
  /-- All instructions are sound, but the section does not end with one that ends the flow. -/
  | ending (hsound : ∀ item ∈ items code, item.IsSound code.length)
      (hopen : code = [] ∨ ∃ last op, (items code).getLast? = some last ∧ last.opcode? = some op ∧
        op.info.isEnding = false) : Blames code .missingTerminatingInstruction .unterminated

/-! ## Where an item was read -/

/-- An item of a walk was read at its offset. The walk over the rest is shorter, so the recursion is
on what is left of the code. -/
theorem Cursor.exists_read_of_mem (cursor : Cursor) {item : Item} (hmem : item ∈ cursor.items) :
    ∃ before rest, cursor.rest = before ++ item.byte :: rest ∧
      item = Item.read (cursor.pc + before.length) item.byte rest := by
  match cursor with
  | ⟨pc, []⟩ => simp at hmem
  | ⟨pc, byte :: rest⟩ =>
    rw [items_cons] at hmem
    rcases List.mem_cons.mp hmem with rfl | hmem
    · exact ⟨[], rest, rfl, rfl⟩
    · obtain ⟨before, tail, hrest, hread⟩ := exists_read_of_mem (behind pc byte rest) hmem
      have hcode := List.take_append_drop (Item.immediateSize byte) rest
      refine ⟨(Item.read pc byte rest).bytes ++ before, tail, ?_, ?_⟩
      · rw [List.append_assoc, ← hrest]
        exact congrArg (byte :: ·) hcode.symm
      · have hpc : (behind pc byte rest).pc + before.length =
            pc + ((Item.read pc byte rest).bytes ++ before).length := by
          simp only [behind, Item.next, Item.bytes, List.length_append, List.length_cons]
          show pc + 1 + _ + _ = _
          omega
        rw [hpc] at hread
        exact hread
termination_by cursor.rest.length
decreasing_by exact Nat.lt_succ_of_le (length_behind_le ..)

theorem exists_read_of_mem_items {code : Bytes} {item : Item} (hmem : item ∈ items code) :
    ∃ before rest, code = before ++ item.byte :: rest ∧
      item = Item.read before.length item.byte rest := by
  obtain ⟨before, rest, hcode, hread⟩ := (Cursor.start code).exists_read_of_mem hmem
  refine ⟨before, rest, hcode, ?_⟩
  rwa [Cursor.start, Nat.zero_add] at hread

theorem pc_lt_of_mem_items {code : Bytes} {item : Item} (hmem : item ∈ items code) :
    item.pc < code.length := by
  obtain ⟨before, rest, hcode, hread⟩ := exists_read_of_mem_items hmem
  have hpc : item.pc = before.length := congrArg Item.pc hread
  rw [hcode, hpc, List.length_append, List.length_cons]
  omega

/-! ## Faults of one item -/

namespace Item

theorem HasFault.error_eq {size : Nat} {item : Item} {error : Error} {fault : Fault}
    (hfault : item.HasFault size error fault) : fault.error = error := by
  cases hfault <;> rfl

theorem opcode?_eq_some_iff {item : Item} {op : Opcode} :
    item.opcode? = some op ↔ op.byte = item.byte ∧ op.info.isLegacy = false :=
  Opcode.enabled?_eq_some_iff

theorem opcode?_eq_none_iff {item : Item} :
    item.opcode? = none ↔ ∀ op : Opcode, op.byte = item.byte → op.info.isLegacy = true := by
  rw [Option.eq_none_iff_forall_ne_some]
  refine forall_congr' fun op => ?_
  rw [Ne, opcode?_eq_some_iff, not_and, Bool.not_eq_false]

section
variable {code : Bytes} {item : Item} {op : Opcode} (hmem : item ∈ items code)
  (hop : item.opcode? = some op)
include hmem hop

/-- An item has the operand that its opcode asks for, or what is left of the code. -/
theorem length_immediate :
    item.immediate.length = min op.info.immediateSize (code.length - (item.pc + 1)) := by
  obtain ⟨before, rest, hcode, hread⟩ := exists_read_of_mem_items hmem
  have hpc : item.pc = before.length := congrArg pc hread
  have himmediate : item.immediate = rest.take op.info.immediateSize := by
    rw [← immediateSize_of_enabled hop]
    exact congrArg immediate hread
  have hrest : code.length - (item.pc + 1) = rest.length := by
    rw [hcode, hpc, List.length_append, List.length_cons]
    omega
  rw [himmediate, hrest, List.length_take]

theorem isTruncated_iff :
    item.isTruncated = true ↔ code.length < item.pc + 1 + op.info.immediateSize := by
  have hinside := pc_lt_of_mem_items hmem
  rw [isTruncated, declaredSize, immediateSize_of_enabled hop, length_immediate hmem hop,
    decide_eq_true_iff]
  omega

/-- What is wrong with an enabled item, by the size of the section. -/
theorem fault?_eq_of_mem_items :
    item.fault? code.length =
      if code.length < item.pc + 1 + op.info.immediateSize then some (.truncated op item.pc)
      else if ¬ item.HasJumpByte then none
      else if item.landing < 0 then some (.below op item.pc item.landing)
      else if (code.length : Int) ≤ item.landing then some (.above op item.pc item.landing)
      else none := by
  have hle : item.immediate.length ≤ op.info.immediateSize := by
    rw [length_immediate hmem hop]
    exact Nat.min_le_left _ _
  simp only [fault?_eq_of_opcode hop hle, isTruncated_iff hmem hop]

end

/-- **What is found wrong with an item is what the rules say.** -/
theorem fault?_eq_some_iff {code : Bytes} {item : Item} (hmem : item ∈ items code)
    {fault : Fault} :
    item.fault? code.length = some fault ↔ ∃ error, item.HasFault code.length error fault := by
  constructor
  · intro hfault
    cases hop : item.opcode? with
    | none =>
      rw [fault?, hop] at hfault
      obtain rfl := Option.some.inj hfault
      exact ⟨_, .undefined (opcode?_eq_none_iff.mp hop)⟩
    | some op =>
      obtain ⟨hbyte, hlive⟩ := opcode?_eq_some_iff.mp hop
      rw [fault?_eq_of_mem_items hmem hop] at hfault
      split at hfault
      · next hcut =>
        obtain rfl := Option.some.inj hfault
        exact ⟨_, .truncated op hbyte hlive hcut⟩
      · next hwhole =>
        split at hfault
        · cases hfault
        · next hjump =>
          rw [Decidable.not_not] at hjump
          rw [Nat.not_lt] at hwhole
          split at hfault
          · next hbelow =>
            obtain rfl := Option.some.inj hfault
            exact ⟨_, .below op hbyte hlive hwhole hjump hbelow⟩
          · split at hfault
            · next habove =>
              obtain rfl := Option.some.inj hfault
              exact ⟨_, .above op hbyte hlive hwhole hjump habove⟩
            · cases hfault
  · rintro ⟨error, hfault⟩
    cases hfault with
    | undefined hdisabled => rw [fault?, opcode?_eq_none_iff.mpr hdisabled]
    | truncated op hbyte hlive hcut =>
      rw [fault?_eq_of_mem_items hmem (opcode?_eq_some_iff.mpr ⟨hbyte, hlive⟩), if_pos hcut]
    | below op hbyte hlive hwhole hjump hbelow =>
      rw [fault?_eq_of_mem_items hmem (opcode?_eq_some_iff.mpr ⟨hbyte, hlive⟩),
        if_neg (Nat.not_lt.mpr hwhole), if_neg (not_not_intro hjump), if_pos hbelow]
    | above op hbyte hlive hwhole hjump habove =>
      have hinside : ¬ item.landing < 0 := by omega
      rw [fault?_eq_of_mem_items hmem (opcode?_eq_some_iff.mpr ⟨hbyte, hlive⟩),
        if_neg (Nat.not_lt.mpr hwhole), if_neg (not_not_intro hjump), if_neg hinside,
        if_pos habove]

theorem fault?_eq_none_iff_isSound {code : Bytes} {item : Item} (hmem : item ∈ items code) :
    item.fault? code.length = none ↔ item.IsSound code.length := by
  rw [Option.eq_none_iff_forall_ne_some]
  constructor
  · intro hnone error fault hfault
    exact hnone fault ((fault?_eq_some_iff hmem).mpr ⟨error, hfault⟩)
  · intro hsound fault hsome
    obtain ⟨error, hfault⟩ := (fault?_eq_some_iff hmem).mp hsome
    exact hsound error fault hfault

end Item

/-! ## The first fault -/

/-- The first item with a fault decides. -/
theorem findSome?_fault?_eq_some_iff {code : Bytes} {fault : Fault} :
    (items code).findSome? (Item.fault? code.length) = some fault ↔
      ∃ before item after error, items code = before ++ item :: after ∧
        (∀ earlier ∈ before, earlier.IsSound code.length) ∧
        item.HasFault code.length error fault := by
  rw [List.findSome?_eq_some_iff]
  constructor
  · rintro ⟨before, item, after, hitems, hfault, hbefore⟩
    have hitem : item ∈ items code := by simp [hitems]
    obtain ⟨error, hfault⟩ := (Item.fault?_eq_some_iff hitem).mp hfault
    refine ⟨before, item, after, error, hitems, fun earlier hmem => ?_, hfault⟩
    have hearlier : earlier ∈ items code := by simp [hitems, hmem]
    exact (Item.fault?_eq_none_iff_isSound hearlier).mp (hbefore earlier hmem)
  · rintro ⟨before, item, after, error, hitems, hbefore, hfault⟩
    have hitem : item ∈ items code := by simp [hitems]
    refine ⟨before, item, after, hitems, (Item.fault?_eq_some_iff hitem).mpr ⟨error, hfault⟩,
      fun earlier hmem => ?_⟩
    have hearlier : earlier ∈ items code := by simp [hitems, hmem]
    exact (Item.fault?_eq_none_iff_isSound hearlier).mpr (hbefore earlier hmem)

theorem findSome?_fault?_eq_none_iff {code : Bytes} :
    (items code).findSome? (Item.fault? code.length) = none ↔
      ∀ item ∈ items code, item.IsSound code.length := by
  rw [List.findSome?_eq_none_iff]
  exact forall₂_congr fun item hmem => Item.fault?_eq_none_iff_isSound hmem

/-- Sound items that do not end the flow: there are none, or the last is another instruction. -/
theorem isOpen_iff {code : Bytes} (hsound : ∀ item ∈ items code, item.IsSound code.length) :
    ¬ (items code).getLast?.any Item.isEnding = true ↔
      code = [] ∨ ∃ last op, (items code).getLast? = some last ∧ last.opcode? = some op ∧
        op.info.isEnding = false := by
  cases hlast : (items code).getLast? with
  | none =>
    have hempty : code = [] := by
      rw [← flatMap_bytes_items code, List.getLast?_eq_none_iff.mp hlast, List.flatMap_nil]
    simp [hempty]
  | some last =>
    have hne : code ≠ [] := by
      rintro rfl
      simp [items, Cursor.start] at hlast
    cases hop : last.opcode? with
    | none =>
      have hfault : last.HasFault code.length _ _ :=
        .undefined (Item.opcode?_eq_none_iff.mp hop)
      exact absurd hfault (hsound last (List.mem_of_getLast? hlast) _ _)
    | some op => simp [Item.isEnding, hop, hne]

/-- **The first instruction that is wrong is blamed.** The analysis of a section fails exactly with
what the first faulty instruction has, or, if all are sound, because the last does not end the
flow. -/
theorem analyze_error_iff_blames (code : Bytes) (error : Error) (fault : Fault) :
    analyze code = .error fault ∧ fault.error = error ↔ Blames code error fault := by
  rw [analyze_eq]
  constructor
  · rintro ⟨hfails, rfl⟩
    cases hfirst : (items code).findSome? (Item.fault? code.length) with
    | some first =>
      rw [hfirst] at hfails
      obtain rfl : first = fault := Except.error.inj hfails
      obtain ⟨before, item, after, error, hitems, hbefore, hfault⟩ :=
        findSome?_fault?_eq_some_iff.mp hfirst
      rw [hfault.error_eq]
      exact .instruction before item after error first hitems hbefore hfault
    | none =>
      have hsound := findSome?_fault?_eq_none_iff.mp hfirst
      rw [hfirst] at hfails
      simp only at hfails
      split at hfails
      · cases hfails
      · next hopen =>
        obtain rfl := Except.error.inj hfails
        exact .ending hsound ((isOpen_iff hsound).mp hopen)
  · intro hblames
    cases hblames with
    | instruction before item after _ _ hitems hbefore hfault =>
      have hfirst := findSome?_fault?_eq_some_iff.mpr
        ⟨before, item, after, error, hitems, hbefore, hfault⟩
      rw [hfirst]
      exact ⟨rfl, hfault.error_eq⟩
    | ending hsound hopen =>
      rw [findSome?_fault?_eq_none_iff.mpr hsound]
      exact ⟨if_neg ((isOpen_iff hsound).mpr hopen), rfl⟩

/-- A jump before the section, an undefined byte and a jump that is cut: the first is blamed. -/
example : analyze [0x5C, 0xFF, 0xFC, 0x0C, 0x5C, 0x00] = .error (.below ⟨0x5C, rfl⟩ 0 (-1)) :=
  eq_error_of_match (by decide +kernel)

end EvmObject.Code
