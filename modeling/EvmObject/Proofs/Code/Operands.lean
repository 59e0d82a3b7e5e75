import EvmObject.Proofs.Bisection
import EvmObject.Proofs.Code.Acceptance
import EvmObject.Proofs.Sequencing

/-!
# Operand bytes and the instruction around them

Every byte of a section in order belongs to one instruction: it is its opcode byte, or it is one of
its operand bytes and then no instruction starts there. `Tiled.exists_around` and
`Tiled.eq_of_around` say so of a split.

For the calls the analysis answers this by bisection. Calls take three bytes each, so their offsets
are far enough apart that at most one can cover an offset; hence `Analysis.callAt?_eq_some_iff`, the
bisection finds a call exactly if a search through all calls does. `call_search_exact` states this
of every accepted section, and that no call is found at its other bytes.
-/

namespace EvmObject.Code

/-! ## The instruction around an offset -/

namespace Item

/-- The byte at the offset belongs to the item. -/
def IsAround (item : Item) (offset : Nat) : Prop :=
  item.pc ≤ offset ∧ offset < item.next

/-- The byte at the offset is an operand byte of the item. -/
def Encloses (item : Item) (offset : Nat) : Prop :=
  item.pc < offset ∧ offset < item.next

theorem isAround_pc (item : Item) : item.IsAround item.pc := by
  rw [IsAround, next]
  omega

theorem Encloses.isAround {item : Item} {offset : Nat} (hinside : item.Encloses offset) :
    item.IsAround offset :=
  ⟨Nat.le_of_lt hinside.1, hinside.2⟩

end Item

section
variable {pc : Nat} {code : Bytes} {split : List Item} (htiled : Tiled pc code split)
include htiled

theorem Tiled.pairwise : split.Pairwise fun item follower => item.next ≤ follower.pc := by
  induction htiled with
  | nil => exact .nil
  | cons pc op operand rest split _ _ hrest ih =>
    rw [List.pairwise_cons]
    exact ⟨fun follower hmem => (hrest.bounds hmem).1, ih⟩

theorem Tiled.exists_around {offset : Nat} (hfrom : pc ≤ offset)
    (hto : offset < pc + code.length) : ∃ item ∈ split, item.IsAround offset := by
  induction htiled with
  | nil pc =>
    rw [List.length_nil] at hto
    omega
  | cons pc op operand rest split _ _ _ ih =>
    rw [List.length_cons, List.length_append] at hto
    by_cases hhere : offset < pc + 1 + operand.length
    · exact ⟨_, List.mem_cons_self, hfrom, hhere⟩
    · obtain ⟨item, hmem, haround⟩ := ih (by omega) (by omega)
      exact ⟨item, List.mem_cons_of_mem _ hmem, haround⟩

theorem Tiled.eq_of_around {offset : Nat} {left right : Item} (hleft : left ∈ split)
    (hright : right ∈ split) (haroundLeft : left.IsAround offset)
    (haroundRight : right.IsAround offset) : left = right := by
  induction htiled with
  | nil => simp at hleft
  | cons pc op operand rest split _ _ hrest ih =>
    -- the first item ends where the rest starts, so an offset is not around both
    rcases List.mem_cons.mp hleft with rfl | hleft
    · rcases List.mem_cons.mp hright with rfl | hright
      · rfl
      · have hbehind := (hrest.bounds hright).1
        have hbefore : offset < pc + 1 + operand.length := haroundLeft.2
        have := haroundRight.1
        omega
    · rcases List.mem_cons.mp hright with rfl | hright
      · have hbehind := (hrest.bounds hleft).1
        have hbefore : offset < pc + 1 + operand.length := haroundRight.2
        have := haroundLeft.1
        omega
      · exact ih hleft hright

/-- No instruction starts at an operand byte. -/
theorem Tiled.pc_ne_of_encloses {offset : Nat} {item owner : Item} (hmem : item ∈ split)
    (howner : owner ∈ split) (hinside : owner.Encloses offset) : item.pc ≠ offset := by
  rintro rfl
  have hsame := htiled.eq_of_around hmem howner item.isAround_pc hinside.isAround
  rw [hsame] at hinside
  exact Nat.lt_irrefl _ hinside.1

end

/-! ## Bisection over the calls -/

/-- **The calls that bisection finds are those that cover the offset,** if each call is at least the
three bytes of a call behind the one before. -/
theorem Analysis.callAt?_eq_some_iff {analysis : Analysis} {offset : Nat} {call : Call}
    (hspaced : analysis.calls.Pairwise fun call follower => call.pc + 3 ≤ follower.pc) :
    analysis.callAt? offset = some call ↔ call ∈ analysis.calls ∧ call.covers offset = true := by
  rw [callAt?]
  generalize htest : (fun call : Call => decide (call.pc + 2 < offset)) = test
  have hiff (call : Call) : test call = true ↔ call.pc + 2 < offset := by
    rw [← htest, decide_eq_true_iff]
  have hfails : analysis.calls.Pairwise fun call follower =>
      test follower = true → test call = true := by
    refine hspaced.imp fun {call follower} hgap hfollower => ?_
    rw [hiff] at hfollower ⊢
    omega
  have hfound : analysis.calls[(analysis.calls.takeWhile test).length]? =
      (analysis.calls.dropWhile test).head? := by
    conv => lhs; lhs; rw [← List.takeWhile_append_dropWhile (p := test) (l := analysis.calls)]
    rw [List.getElem?_append_right (Nat.le_refl _), Nat.sub_self, List.head?_eq_getElem?]
  simp only [partitionPoint_eq_length_takeWhile analysis.calls hfails, List.getElem?_toArray,
    hfound]
  rw [Option.filter_eq_some_iff]
  refine and_congr_left fun hcovers => ⟨fun hhead => ?_, fun hmem => ?_⟩
  · exact (List.dropWhile_sublist test).subset (List.mem_of_head? hhead)
  · -- every call in front of a call that covers the offset ends before it
    obtain ⟨before, after, hcalls⟩ := List.append_of_mem hmem
    rw [Call.covers, Bool.or_eq_true, beq_iff_eq, beq_iff_eq] at hcovers
    have hbefore : ∀ earlier ∈ before, test earlier = true := by
      intro earlier hearlier
      rw [hcalls, List.pairwise_append] at hspaced
      have hgap := hspaced.2.2 earlier hearlier call List.mem_cons_self
      rw [hiff]
      omega
    have hhere : ¬ test call = true := by
      rw [hiff]
      omega
    rw [hcalls, List.dropWhile_append_of_pos hbefore, List.dropWhile_cons_of_neg hhere,
      List.head?_cons]

theorem Analysis.callAt?_eq_find? {analysis : Analysis} (offset : Nat)
    (hspaced : analysis.calls.Pairwise fun call follower => call.pc + 3 ≤ follower.pc) :
    analysis.callAt? offset = analysis.calls.find? (·.covers offset) := by
  cases hfind : analysis.calls.find? (·.covers offset) with
  | some call =>
    have hmem := List.mem_of_find?_eq_some hfind
    have hcovers := List.find?_some hfind
    exact (callAt?_eq_some_iff hspaced).mpr ⟨hmem, hcovers⟩
  | none =>
    rw [Option.eq_none_iff_forall_ne_some]
    intro call hcall
    have hfound := (callAt?_eq_some_iff hspaced).mp hcall
    exact List.find?_eq_none.mp hfind call hfound.1 hfound.2

/-- Calls that are three bytes apart do not share an operand byte. -/
theorem countP_covers_le_one {calls : List Call} (offset : Nat)
    (hspaced : calls.Pairwise fun call follower => call.pc + 3 ≤ follower.pc) :
    calls.countP (·.covers offset) ≤ 1 := by
  induction calls with
  | nil => exact Nat.zero_le 1
  | cons call rest ih =>
    obtain ⟨hgap, hrest⟩ := List.pairwise_cons.mp hspaced
    by_cases hcovers : call.covers offset = true
    · -- every follower starts behind the operand of the call
      have hnone : rest.countP (·.covers offset) = 0 := by
        rw [List.countP_eq_zero]
        intro follower hmem
        have hbehind := hgap follower hmem
        simp only [Call.covers, Bool.or_eq_true, beq_iff_eq] at hcovers ⊢
        omega
      have hone : (call :: rest).countP (·.covers offset) = 1 := by
        rw [List.countP_cons, hnone, if_pos hcovers, Nat.zero_add]
      exact Nat.le_of_eq hone
    · rw [List.countP_cons, if_neg hcovers]
      exact ih hrest

section
variable {analysis : Analysis} {code : Bytes} {split : List Item} (htiled : Tiled 0 code split)
  (hdescribes : analysis.Describes code split)
include htiled hdescribes

theorem Analysis.Describes.spaced :
    analysis.calls.Pairwise fun call follower => call.pc + 3 ≤ follower.pc := by
  rw [hdescribes.calls, List.pairwise_map, List.pairwise_filter]
  refine htiled.pairwise.imp_of_mem fun {item follower} hmem _ hnext hcall _ => ?_
  have htwo := htiled.length_of_callf hmem (of_decide_eq_true hcall)
  rw [Item.next, htwo] at hnext
  exact hnext

/-- Bisection finds a call exactly if the offset is an operand byte of a call. -/
theorem Analysis.Describes.isSome_callAt?_iff (offset : Nat) :
    (analysis.callAt? offset).isSome = true ↔
      ∃ item ∈ split, item.byte = Opcode.callf ∧ item.Encloses offset := by
  have hcovers : ∀ item ∈ split, item.byte = Opcode.callf → ∀ callee,
      (Call.covers ⟨item.pc, callee⟩ offset = true ↔ item.Encloses offset) := by
    intro item hmem hcall callee
    rw [Call.covers, Bool.or_eq_true, beq_iff_eq, beq_iff_eq, Item.Encloses, Item.next,
      htiled.length_of_callf hmem hcall]
    show offset = item.pc + 1 ∨ offset = item.pc + 2 ↔ _
    omega
  simp only [Option.isSome_iff_exists, callAt?_eq_some_iff (hdescribes.spaced htiled)]
  constructor
  · rintro ⟨call, hmem, hcall⟩
    rw [hdescribes.calls, List.mem_map] at hmem
    obtain ⟨item, hitem, rfl⟩ := hmem
    obtain ⟨hmem, hbyte⟩ := List.mem_filter.mp hitem
    have hbyte := of_decide_eq_true hbyte
    exact ⟨item, hmem, hbyte, (hcovers item hmem hbyte _).mp hcall⟩
  · rintro ⟨item, hmem, hbyte, hinside⟩
    refine ⟨⟨item.pc, UInt16.ofNat (Bytes.toNat item.immediate)⟩, ?_,
      (hcovers item hmem hbyte _).mpr hinside⟩
    rw [hdescribes.calls, List.mem_map]
    exact ⟨item, List.mem_filter.mpr ⟨hmem, decide_eq_true hbyte⟩, rfl⟩

theorem Analysis.Describes.callAt?_eq_none_iff (offset : Nat) :
    analysis.callAt? offset = none ↔
      ∀ item ∈ split, item.byte = Opcode.callf → ¬ item.Encloses offset := by
  rw [← Option.not_isSome_iff_eq_none, hdescribes.isSome_callAt?_iff htiled]
  simp only [not_exists, not_and]

/-- No call is found at an opcode byte, nor anywhere in an instruction that is no call. -/
theorem Analysis.Describes.callAt?_eq_none_of_mem {item : Item} (hmem : item ∈ split)
    {offset : Nat}
    (hother : item.pc = offset ∨ item.byte ≠ Opcode.callf ∧ item.IsAround offset) :
    analysis.callAt? offset = none := by
  rw [hdescribes.callAt?_eq_none_iff htiled]
  intro owner howner hcall hinside
  rcases hother with hpc | ⟨hbyte, haround⟩
  · exact htiled.pc_ne_of_encloses hmem howner hinside hpc
  · have hsame := htiled.eq_of_around hmem howner haround hinside.isAround
    rw [hsame] at hbyte
    exact hbyte hcall

theorem Analysis.Describes.callAt?_eq_none_of_length_le {offset : Nat}
    (hpast : code.length ≤ offset) : analysis.callAt? offset = none := by
  rw [hdescribes.callAt?_eq_none_iff htiled]
  intro owner howner _ hinside
  have hend := (htiled.bounds howner).2
  have hbefore := hinside.2
  omega

end

/-! ## Accepted sections -/

/-- **Bisection over the calls of a section is the search through all of them.** In an accepted
section it finds a call exactly at the two operand bytes of that call, and no two entries share such
a byte. Everywhere else it finds nothing: at opcode bytes, those of calls too, in the operands of
other instructions and past the end of the section. -/
theorem call_search_exact {code : Bytes} {analysis : Analysis} (hok : analyze code = .ok analysis)
    (offset : Nat) :
    analysis.callAt? offset = analysis.calls.find? (·.covers offset) ∧
      (∀ call, analysis.callAt? offset = some call ↔
        call ∈ analysis.calls ∧ (offset = call.pc + 1 ∨ offset = call.pc + 2)) ∧
      analysis.calls.countP (·.covers offset) ≤ 1 ∧
      ((∀ call ∈ analysis.calls, offset ≠ call.pc + 1 ∧ offset ≠ call.pc + 2) →
        analysis.callAt? offset = none) ∧
      (∀ item ∈ items code,
        item.pc = offset ∨ item.byte ≠ Opcode.callf ∧ item.IsAround offset →
          analysis.callAt? offset = none) ∧
      (code.length ≤ offset → analysis.callAt? offset = none) := by
  obtain ⟨split, hwell, hdescribes⟩ := analyze_eq_ok_iff.mp hok
  have hspaced := hdescribes.spaced hwell.tiled
  have hitems : items code = split := hwell.tiled.items_eq
  have hfound (call : Call) : analysis.callAt? offset = some call ↔
      call ∈ analysis.calls ∧ (offset = call.pc + 1 ∨ offset = call.pc + 2) := by
    rw [Analysis.callAt?_eq_some_iff hspaced, Call.covers, Bool.or_eq_true, beq_iff_eq, beq_iff_eq]
  refine ⟨Analysis.callAt?_eq_find? offset hspaced, hfound, countP_covers_le_one offset hspaced,
    ?_, ?_, hdescribes.callAt?_eq_none_of_length_le hwell.tiled⟩
  · intro hother
    rw [Option.eq_none_iff_forall_ne_some]
    intro call hcall
    obtain ⟨hmem, hcovers⟩ := (hfound call).mp hcall
    obtain ⟨hfirst, hsecond⟩ := hother call hmem
    exact hcovers.elim hfirst hsecond
  · intro item hmem hother
    rw [hitems] at hmem
    exact hdescribes.callAt?_eq_none_of_mem hwell.tiled hmem hother

/-- Two calls side by side, and a push behind them. -/
theorem call_search_exact_adjacent :
    let code : Bytes := [0xB0, 0, 0, 0xB0, 0, 1, 0x60, 5, 0x00]
    let analysis : Analysis := ⟨[⟨0, 0xB0, 2⟩, ⟨3, 0xB0, 2⟩, ⟨6, 0x60, 1⟩, ⟨8, 0x00, 0⟩],
      ⟨#[true, false, false, true, false, false, true, false, true]⟩, [], [⟨0, 0⟩, ⟨3, 1⟩]⟩
    analyze code = .ok analysis ∧
      analysis.callAt? 2 = some ⟨0, 0⟩ ∧ analysis.callAt? 3 = none ∧
      analysis.callAt? 4 = some ⟨3, 1⟩ ∧ analysis.callAt? 7 = none ∧ analysis.callAt? 9 = none := by
  intro code analysis
  have hok : analyze code = .ok analysis := eq_ok_of_toOption (by decide +kernel)
  have hcall : ⟨3, 0xB0, [0, 1]⟩ ∈ items code := by decide +kernel
  have hpush : ⟨6, 0x60, [5]⟩ ∈ items code := by decide +kernel
  refine ⟨hok, ?_, ?_, ?_, ?_, ?_⟩
  · exact ((call_search_exact hok 2).2.1 _).mpr (by decide)
  · exact (call_search_exact hok 3).2.2.2.2.1 _ hcall (.inl rfl)
  · exact ((call_search_exact hok 4).2.1 _).mpr (by decide)
  · exact (call_search_exact hok 7).2.2.2.2.1 _ hpush (.inr ⟨by decide, by decide, by decide⟩)
  · exact (call_search_exact hok 9).2.2.2.2.2 (by decide)

end EvmObject.Code
