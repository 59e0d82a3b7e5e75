import EvmObject.Proofs.Code.Listing
import EvmObject.Proofs.Container.Layout
import EvmObject.Proofs.Machine.Activations
import EvmObject.Proofs.Machine.Fetch

/-!
# Where a jump leads

Three places work out the target of a relative jump, each from its own idea of the next instruction:
the analysis counts the bytes that it walked over, the machine adds what the instruction table
declares, and the listing goes by the operand that it shows. In a valid container they agree. The
machine also asks its jump table, which has an entry for every target that the analysis lists.

`Loaded.step_jump` and `Loaded.step_branch` are the two steps from any stack and with any frames;
the listing is `Code.WellFormed.exists_isListed`.
-/

namespace EvmObject.Machine

open Code (Item)
open Validation (Validated)

/-! ## The statement -/

/-- The machine stands at the offset of the section. -/
structure Execution.IsAt {σ : Type} (execution : Execution σ) (index pc : Nat) : Prop where
  function_eq : execution.state.function = index
  pc_eq : execution.state.pc = pc

/-- The execution at another offset. -/
def Execution.movedTo {σ : Type} (execution : Execution σ) (pc : Nat) : Execution σ :=
  { execution with state := { execution.state with pc } }

/-- A step at a jump goes where the jump leads, with any host, on any stack and with any frames. -/
structure Leads (program : Program) (index : Nat) (byte : UInt8) (jump : Code.Jump) : Prop where
  /-- Without a condition the step goes to the target, and changes nothing else. -/
  always : byte = Opcode.rjump → ∀ {σ : Type} (host : Host σ) (execution : Execution σ),
    execution.IsAt index jump.pc →
      (execution.step program host).outcome = .running ∧
        (execution.step program host).after = execution.movedTo jump.target
  /-- With a condition the step takes the top word off, which has to be within reach. It goes to the
  target unless the word is zero, and otherwise behind the three bytes of the jump. -/
  conditional : byte = Opcode.rjumpi → ∀ {σ : Type} (host : Host σ) (execution : Execution σ)
    (below : List Word) (word : Word), execution.IsAt index jump.pc →
      execution.stack.toList = below ++ [word] →
      execution.state.frames.height + 1 ≤ execution.stack.size →
        ∃ stack, stack.toList = below ∧ (execution.step program host).outcome = .running ∧
          (execution.step program host).after =
            { execution with stack }.movedTo (if word = 0 then jump.pc + 3 else jump.target)

/-! ## The steps -/

namespace Loaded

variable {valid : Validated} {index : Nat} {function : Function} {split : List Item} {item : Item}
  (hloaded : Loaded valid index function split) (hmem : item ∈ split)
include hloaded hmem

/-- The machine reads the instruction at which it stands. -/
theorem exists_fetches {σ : Type} {execution : Execution σ} (hat : execution.IsAt index item.pc) :
    ∃ op, op.byte = item.byte ∧ execution.Fetches (Program.ofValidated valid) function
      ⟨op, item.immediate, item.next⟩ := by
  obtain ⟨op, hbyte, _, hfetch⟩ := Function.fetch_of_tiled hloaded.wellFormed.tiled hmem
  refine ⟨op, hbyte, ?_, ?_⟩
  · rw [hat.function_eq]
    exact hloaded.function_eq
  · rw [hat.pc_eq]
    exact hfetch

theorem step_jump (hbyte : item.byte = Opcode.rjump) {σ : Type} (host : Host σ)
    (execution : Execution σ) (hat : execution.IsAt index item.pc) :
    (execution.step (Program.ofValidated valid) host).outcome = .running ∧
      (execution.step (Program.ofValidated valid) host).after =
        execution.movedTo item.landing.toNat := by
  obtain ⟨op, hop, hfetches⟩ := hloaded.exists_fetches hmem hat
  have htarget := hloaded.target?_eq hmem (.inl hbyte) op
  -- the target is known, so there is only one way to go
  have hcase : Execution.StepCase (Program.ofValidated valid) host execution _ :=
    .jump function _ _ hfetches (hop.trans hbyte) (.taken _ htarget)
  rw [← hcase.eq_step]
  exact ⟨rfl, rfl⟩

theorem step_branch (hbyte : item.byte = Opcode.rjumpi) {σ : Type} (host : Host σ)
    (execution : Execution σ) {below : List Word} {word : Word}
    (hat : execution.IsAt index item.pc) (hwords : execution.stack.toList = below ++ [word])
    (henough : execution.state.frames.height + 1 ≤ execution.stack.size) :
    ∃ stack, stack.toList = below ∧
      (execution.step (Program.ofValidated valid) host).outcome = .running ∧
      (execution.step (Program.ofValidated valid) host).after =
        { execution with stack }.movedTo
          (if word = 0 then item.pc + 3 else item.landing.toNat) := by
  obtain ⟨op, hop, hfetches⟩ := hloaded.exists_fetches hmem hat
  have htarget := hloaded.target?_eq hmem (.inr hbyte) op
  have hreaches : execution.reaches 1 = true := Execution.reaches_of_le henough
  have hpeek : execution.stack.peek 0 = .ok word := Stack.peek_of_append hwords
  have hrest : execution.stack.pop.2.toList = below := by
    rw [Stack.toList_pop, hwords, List.dropLast_concat]
  refine ⟨execution.stack.pop.2, hrest, ?_⟩
  by_cases hzero : word = 0
  · -- the operand of the branch has two bytes
    have hnext : item.next = item.pc + 3 := by
      rw [Item.next, hloaded.wellFormed.tiled.length_of_hasJumpByte hmem (.inr hbyte)]
    rw [hzero] at hpeek
    have hcase : Execution.StepCase (Program.ofValidated valid) host execution _ :=
      .branch function _ _ hfetches (hop.trans hbyte) (.untaken hreaches hpeek)
    rw [← hcase.eq_step, if_pos hzero, ← hnext]
    exact ⟨rfl, rfl⟩
  · have hcase : Execution.StepCase (Program.ofValidated valid) host execution _ :=
      .branch function _ _ hfetches (hop.trans hbyte) (.taken word _ hreaches hpeek hzero htarget)
    rw [← hcase.eq_step, if_neg hzero]
    exact ⟨rfl, rfl⟩

end Loaded

/-! ## The three of them -/

/-- **The analysis, the machine and the listing agree on where a jump leads.** Take any jump that
the analysis of any section of a valid container lists. One of the two jump instructions stands at
its offset. From there the machine goes to the target that the analysis found, whatever the host,
the stack and the frames, if only the condition of a conditional jump is within reach and not zero.
And the line for that offset in the listing of the section shows the same target. -/
theorem jump_destinations_agree {config : Validation.Config} {raw : Bytes} {valid : Validated}
    (hvalid : Validation.validate config raw = .ok valid) {index : Nat} {analysis : Code.Analysis}
    (hanalysis : valid.analysis? index = some analysis) {jump : Code.Jump}
    (hjump : jump ∈ analysis.jumps) :
    ∃ code item before after, valid.container.body.slice? index = some code ∧
      (item.byte = Opcode.rjump ∨ item.byte = Opcode.rjumpi) ∧
      valid.byteAt? index jump.pc = some item.byte ∧
      Leads (Program.ofValidated valid) index item.byte jump ∧
      jump.IsListed code item before after := by
  have hindex : index < valid.codeCount := (List.getElem?_eq_some_iff.mp hanalysis).1
  obtain ⟨function, split, hloaded⟩ := exists_loaded hvalid hindex
  obtain ⟨found, hfound, hdescribes, _⟩ := hloaded.analysis
  obtain rfl : analysis = found := Option.some.inj (hanalysis.symm.trans hfound)
  -- the analysis lists the jump because an item of the split is one
  rw [hdescribes.jumps, List.mem_map] at hjump
  obtain ⟨item, hfiltered, rfl⟩ := hjump
  obtain ⟨hmem, hdecide⟩ := List.mem_filter.mp hfiltered
  have hbyte : item.HasJumpByte := of_decide_eq_true hdecide
  -- its section is short enough for the listing to show offsets in full
  obtain ⟨_, _, hdecode, _⟩ := Validation.validate_eq_ok_iff.mp hvalid
  obtain ⟨_, _, hlayout⟩ := Container.layout_of_decode hdecode
  have hshort := hlayout.length_lt hloaded.slice_eq
  obtain ⟨before, after, hlisted⟩ := hloaded.wellFormed.exists_isListed hmem hbyte (by omega)
  refine ⟨function.code.toList, item, before, after, hloaded.slice_eq, hbyte, ?_, ⟨?_, ?_⟩, hlisted⟩
  · obtain ⟨front, back, hcode, hpc⟩ := hloaded.wellFormed.tiled.code_eq hmem
    rw [Nat.zero_add] at hpc
    rw [Validated.byteAt?, hloaded.slice_eq, Option.bind_some, hcode, ← hpc, Item.bytes]
    simp
  · intro hrjump σ host execution hat
    exact hloaded.step_jump hmem hrjump host execution hat
  · intro hrjumpi σ host execution below word hat hwords henough
    exact hloaded.step_branch hmem hrjumpi host execution hat hwords henough

/-- A body of one section, which pushes a word, branches to its end unless the word is zero, and
jumps back to its start. -/
def loopBody : Container.Body :=
  ⟨1, #[.entry], #[9], [0x60, 1, 0x5D, 0, 3, 0x5C, 0xFF, 0xF8, 0x00], [], false⟩

/-- The container of that body with its analysis. -/
def loopValid : Validated :=
  ⟨Container.ofBody loopBody,
    [⟨[⟨0, 0x60, 1⟩, ⟨2, 0x5D, 2⟩, ⟨5, 0x5C, 2⟩, ⟨8, 0x00, 0⟩],
      ⟨#[true, false, true, false, false, true, false, false, true]⟩, [⟨2, 8⟩, ⟨5, 0⟩], []⟩]⟩

/-- The branch leads forward to the end, and the line at its offset says so. -/
theorem jump_destinations_agree_loop :
    Validation.validate .default (Container.ofBody loopBody).raw = .ok loopValid ∧
      Leads (Program.ofValidated loopValid) 0 Opcode.rjumpi ⟨2, 8⟩ ∧
      ∃ item before after,
        Code.Jump.IsListed ⟨2, 8⟩ loopBody.code item before after := by
  have hvalid : Validation.validate .default (Container.ofBody loopBody).raw = .ok loopValid :=
    eq_ok_of_toOption (by decide +kernel)
  obtain ⟨code, item, before, after, hslice, _, hbyte, hleads, hlisted⟩ :=
    jump_destinations_agree hvalid (show loopValid.analysis? 0 = some _ from rfl)
      (show ⟨2, 8⟩ ∈ _ from List.mem_cons_self)
  have hcode : loopValid.container.body.slice? 0 = some loopBody.code := by decide +kernel
  have hrjumpi : loopValid.byteAt? 0 2 = some Opcode.rjumpi := by decide +kernel
  obtain rfl := Option.some.inj (hcode.symm.trans hslice)
  have hitem : item.byte = Opcode.rjumpi := Option.some.inj (hbyte.symm.trans hrjumpi)
  rw [hitem] at hleads
  exact ⟨hvalid, hleads, item, before, after, hlisted⟩

end EvmObject.Machine
