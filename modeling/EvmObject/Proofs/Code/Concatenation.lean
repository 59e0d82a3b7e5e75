import EvmObject.Proofs.Code.Acceptance
import EvmObject.Proofs.Sequencing

/-!
# Sections one behind the other

Jumps are relative and a section ends where it ends the flow, so what is known of a section does not
depend on where it stands. Two sections that are in order on their own are in order as one, and the
analysis of the whole is the two analyses, the second moved to where its section starts:
`analyze_append`.

The argument is about splits, not about the scan. A split may be moved (`Tiled.shift`) and put
behind another one (`Tiled.append`), so the walk over the whole is at an instruction where the
second section starts; what `WellFormed` and `Describes` say of a split goes along with it.
-/

namespace EvmObject.Code

/-! ## Moving -/

/-- The instruction in code that starts `distance` bytes further on. -/
def Instruction.shift (instruction : Instruction) (distance : Nat) : Instruction :=
  { instruction with pc := instruction.pc + distance }

/-- The jump in code that starts `distance` bytes further on; where it leads moves with it. -/
def Jump.shift (jump : Jump) (distance : Nat) : Jump :=
  ⟨jump.pc + distance, jump.target + distance⟩

/-- The call in code that starts `distance` bytes further on; it names the same section. -/
def Call.shift (call : Call) (distance : Nat) : Call :=
  { call with pc := call.pc + distance }

namespace Item

/-- The item in code that starts `distance` bytes further on. -/
def shift (item : Item) (distance : Nat) : Item :=
  { item with pc := item.pc + distance }

variable (item : Item) (distance : Nat)

@[simp] theorem pc_shift : (item.shift distance).pc = item.pc + distance := rfl

@[simp] theorem byte_shift : (item.shift distance).byte = item.byte := rfl

@[simp] theorem immediate_shift : (item.shift distance).immediate = item.immediate := rfl

@[simp] theorem opcode?_shift : (item.shift distance).opcode? = item.opcode? := rfl

@[simp] theorem hasJumpByte_shift : (item.shift distance).HasJumpByte ↔ item.HasJumpByte := Iff.rfl

@[simp] theorem landing_shift : (item.shift distance).landing = item.landing + distance := by
  simp only [landing, shift, Item.distance]
  omega

end Item

namespace Tiled

variable {pc : Nat} {code before behind : Bytes} {split front back : List Item}

/-- A split does not depend on where the code starts. -/
theorem shift (htiled : Tiled pc code split) (distance : Nat) :
    Tiled (pc + distance) code (split.map (·.shift distance)) := by
  induction htiled with
  | nil pc => exact .nil _
  | cons pc op operand rest split henabled hsize _ ih =>
    rw [List.map_cons]
    have hpc : pc + 1 + operand.length + distance = pc + distance + 1 + operand.length := by omega
    exact .cons _ op operand rest _ henabled hsize (hpc ▸ ih)

/-- Splits of code and of the code behind it are a split of the whole. -/
theorem append (hfront : Tiled pc before front) (hback : Tiled (pc + before.length) behind back) :
    Tiled pc (before ++ behind) (front ++ back) := by
  induction hfront with
  | nil pc => exact hback
  | cons pc op operand rest split henabled hsize _ ih =>
    rw [List.cons_append, List.append_assoc, List.cons_append]
    refine .cons pc op operand _ _ henabled hsize (ih ?_)
    rw [List.length_cons, List.length_append] at hback
    rwa [show pc + 1 + operand.length + rest.length = pc + (operand.length + rest.length + 1) by
      omega]

end Tiled

/-! ## Two sections as one -/

section
variable {before behind : Bytes} {front back : List Item}

/-- **Sections in order, one behind the other, are a section in order.** The jumps of the first have
more room than they need, those of the second land as far behind its start as before. -/
theorem WellFormed.append (hfront : WellFormed before front) (hback : WellFormed behind back) :
    WellFormed (before ++ behind) (front ++ back.map (·.shift before.length)) where
  nonempty := List.append_ne_nil_of_left_ne_nil hfront.nonempty behind
  tiled := by
    have hmoved := hback.tiled.shift before.length
    exact hfront.tiled.append hmoved
  inside := by
    intro item hmem hjump
    rw [List.length_append]
    rcases List.mem_append.mp hmem with hmem | hmem
    · have hinside := hfront.inside item hmem hjump
      omega
    · obtain ⟨original, horiginal, rfl⟩ := List.mem_map.mp hmem
      have hinside := hback.inside original horiginal hjump
      rw [Item.landing_shift]
      omega
  ending := by
    obtain ⟨last, op, hlast, hop, hends⟩ := hback.ending
    refine ⟨last.shift before.length, op, ?_, hop, hends⟩
    rw [List.getLast?_append, List.getLast?_map, hlast]
    rfl

variable {left right whole : Analysis}

/-- What is known of two sections as one, as far as the lists go: what is known of the first, then
what is known of the second, moved. -/
theorem Analysis.Describes.append_lists (hleft : left.Describes before front)
    (hright : right.Describes behind back) (hback : WellFormed behind back)
    (hwhole : whole.Describes (before ++ behind) (front ++ back.map (·.shift before.length))) :
    whole.instructions = left.instructions ++ right.instructions.map (·.shift before.length) ∧
      whole.jumps = left.jumps ++ right.jumps.map (·.shift before.length) ∧
      whole.calls = left.calls ++ right.calls.map (·.shift before.length) := by
  refine ⟨?_, ?_, ?_⟩
  · rw [hwhole.instructions, hleft.instructions, hright.instructions, List.map_append,
      List.map_map, List.map_map]
    rfl
  · rw [hwhole.jumps, hleft.jumps, hright.jumps, List.filter_append, List.map_append,
      List.filter_map, List.map_map, List.map_map]
    congr 1
    refine List.map_congr_left fun item hmem => ?_
    obtain ⟨hitem, hjump⟩ := List.mem_filter.mp hmem
    -- a jump of the second section does not lead below it, so its target moves as its offset does
    have hnonneg := (hback.inside item hitem (of_decide_eq_true hjump)).1
    have htarget : (item.landing + before.length).toNat = item.landing.toNat + before.length := by
      omega
    simp only [Function.comp_apply, Item.pc_shift, Item.landing_shift, htarget, Jump.shift]
  · rw [hwhole.calls, hleft.calls, hright.calls, List.filter_append, List.map_append,
      List.filter_map, List.map_map, List.map_map]
    rfl

/-- A jump may land where it may land in the first section or, from its start on, in the second. -/
theorem Analysis.Describes.append_isValid (hleft : left.Describes before front)
    (hright : right.Describes behind back) (hfront : Tiled 0 before front)
    (hwhole : whole.Describes (before ++ behind) (front ++ back.map (·.shift before.length)))
    (offset : Nat) :
    whole.jumpTable.isValid offset = true ↔
      offset < before.length ∧ left.jumpTable.isValid offset = true ∨
        before.length ≤ offset ∧ right.jumpTable.isValid (offset - before.length) = true := by
  rw [hwhole.isValid, hleft.isValid, hright.isValid]
  constructor
  · rintro ⟨item, hmem, hpc⟩
    rcases List.mem_append.mp hmem with hmem | hmem
    · refine .inl ⟨?_, item, hmem, hpc⟩
      have hbounds := (hfront.bounds hmem).2
      unfold Item.next at hbounds
      omega
    · obtain ⟨original, horiginal, rfl⟩ := List.mem_map.mp hmem
      rw [Item.pc_shift] at hpc
      exact .inr ⟨by omega, original, horiginal, by omega⟩
  · rintro (⟨_, item, hmem, hpc⟩ | ⟨hle, item, hmem, hpc⟩)
    · exact ⟨item, List.mem_append_left _ hmem, hpc⟩
    · refine ⟨item.shift before.length,
        List.mem_append_right _ (List.mem_map_of_mem hmem), ?_⟩
      rw [Item.pc_shift]
      omega

end

/-! ## The analysis of both -/

/-- **The analysis does not depend on where a section stands.** If two sections are accepted then so
is the second behind the first. What is known of the whole is what is known of the first followed by
what is known of the second, with every offset and every target of a jump moved by the length of the
first; and a jump may land exactly where it may land in one of the two. -/
theorem analyze_append {before behind : Bytes} {left right : Analysis}
    (hleft : analyze before = .ok left) (hright : analyze behind = .ok right) :
    ∃ whole, analyze (before ++ behind) = .ok whole ∧
      whole.instructions = left.instructions ++ right.instructions.map (·.shift before.length) ∧
      whole.jumps = left.jumps ++ right.jumps.map (·.shift before.length) ∧
      whole.calls = left.calls ++ right.calls.map (·.shift before.length) ∧
      ∀ offset, whole.jumpTable.isValid offset = true ↔
        offset < before.length ∧ left.jumpTable.isValid offset = true ∨
          before.length ≤ offset ∧ right.jumpTable.isValid (offset - before.length) = true := by
  obtain ⟨front, hfront, hdescribesLeft⟩ := analyze_eq_ok_iff.mp hleft
  obtain ⟨back, hback, hdescribesRight⟩ := analyze_eq_ok_iff.mp hright
  have hwell := hfront.append hback
  have hwhole := hwell.tiled.describes_ofItems
  obtain ⟨hinstructions, hjumps, hcalls⟩ :=
    hdescribesLeft.append_lists hdescribesRight hback hwhole
  exact ⟨_, analyze_eq_ok_iff.mpr ⟨_, hwell, hwhole⟩, hinstructions, hjumps, hcalls,
    hdescribesLeft.append_isValid hdescribesRight hfront.tiled hwhole⟩

/-- A loop that is left at its end, and behind it a loop that calls a section. In the whole the
second jump leads back to offset 6. -/
theorem analyze_append_loops :
    let loop : Bytes := [0x60, 1, 0x5D, 0xFF, 0xFB, 0x00]
    let calling : Bytes := [0xB0, 0, 2, 0x5C, 0xFF, 0xFA]
    let left : Analysis := ⟨[⟨0, 0x60, 1⟩, ⟨2, 0x5D, 2⟩, ⟨5, 0x00, 0⟩],
      ⟨#[true, false, true, false, false, true]⟩, [⟨2, 0⟩], []⟩
    let right : Analysis := ⟨[⟨0, 0xB0, 2⟩, ⟨3, 0x5C, 2⟩],
      ⟨#[true, false, false, true, false, false]⟩, [⟨3, 0⟩], [⟨0, 2⟩]⟩
    analyze loop = .ok left ∧ analyze calling = .ok right ∧
      ∃ whole, analyze (loop ++ calling) = .ok whole ∧
        whole.jumps = [⟨2, 0⟩, ⟨9, 6⟩] ∧ whole.calls = [⟨6, 2⟩] := by
  intro loop calling left right
  have hleft : analyze loop = .ok left := eq_ok_of_toOption (by decide +kernel)
  have hright : analyze calling = .ok right := eq_ok_of_toOption (by decide +kernel)
  obtain ⟨whole, hwhole, _, hjumps, hcalls, _⟩ := analyze_append hleft hright
  exact ⟨hleft, hright, whole, hwhole, hjumps, hcalls⟩

end EvmObject.Code
