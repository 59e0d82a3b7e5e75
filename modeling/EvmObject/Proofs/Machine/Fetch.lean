import EvmObject.Proofs.Machine.Loaded

/-!
# Instructions of a container

What a container has at an offset of a code section is read off its bytes: `byteAt?`, `opcodeAt?`
and `calleeAt?`. The machine reads the function that was made of the section, and what it fetches is
just that. Nothing is said here of where the offset comes from: it may lie inside an operand.
-/

namespace EvmObject

namespace Validation.Validated

/-- The byte at an offset of a code section. -/
def byteAt? (valid : Validated) (index pc : Nat) : Option UInt8 :=
  (valid.container.body.slice? index).bind (·[pc]?)

/-- The opcode at an offset of a code section. -/
def opcodeAt? (valid : Validated) (index pc : Nat) : Option Opcode :=
  (valid.byteAt? index pc).bind Opcode.ofByte?

/-- The code section that the two bytes behind an offset of a code section name. -/
def calleeAt? (valid : Validated) (index pc : Nat) : Option Nat :=
  (valid.container.body.slice? index).bind fun code =>
    (Bytes.readU16? (code.drop (pc + 1))).map (·.toNat)

end Validation.Validated

theorem Bytes.readU16?_take_two (bytes : Bytes) : readU16? (bytes.take 2) = readU16? bytes := by
  match bytes with
  | [] => rfl
  | [_] => rfl
  | _ :: _ :: _ => rfl

namespace Machine

open Validation (Validated)

/-! ## Fetching -/

namespace Function

variable {function : Function} {pc : Nat} {fetched : Fetched}

/-- **What is fetched** is an enabled opcode with as many bytes behind it as the table says. -/
theorem fetch_eq_ok_iff :
    function.fetch pc = .ok fetched ↔
      function.code[pc]? = some fetched.opcode.byte ∧ fetched.opcode.info.isLegacy = false ∧
        fetched.next = pc + 1 + fetched.opcode.info.immediateSize ∧
        fetched.next ≤ function.code.size ∧
        fetched.immediate = (function.code.extract (pc + 1) fetched.next).toList := by
  obtain ⟨op, immediate, next⟩ := fetched
  unfold fetch
  constructor
  · intro hfetch
    split at hfetch
    · cases hfetch
    · next byte hbyte =>
      split at hfetch
      · cases hfetch
      · next found henabled =>
        obtain ⟨hfound, hlive⟩ := Opcode.enabled?_eq_some_iff.mp henabled
        simp only at hfetch
        split at hfetch
        · cases hfetch
        · next hbound =>
          obtain ⟨rfl, rfl, rfl⟩ := Fetched.mk.inj (Except.ok.inj hfetch)
          exact ⟨hfound ▸ hbyte, hlive, rfl, Nat.le_of_not_lt hbound, rfl⟩
  · rintro ⟨hbyte, hlive, hnext, hbound, himmediate⟩
    have henabled : Opcode.enabled? op.byte = some op :=
      Opcode.enabled?_eq_some_iff.mpr ⟨rfl, hlive⟩
    simp only at hbyte hnext hbound himmediate
    simp only [hbyte, henabled, ← hnext]
    rw [if_neg (Nat.not_lt.mpr hbound), himmediate]

theorem length_of_fetch (hfetch : function.fetch pc = .ok fetched) :
    fetched.immediate.length = fetched.opcode.info.immediateSize := by
  obtain ⟨_, _, hnext, hbound, himmediate⟩ := fetch_eq_ok_iff.mp hfetch
  rw [himmediate, Array.length_toList, Array.size_extract]
  omega

end Function

/-! ## The function and its section -/

theorem Program.lt_of_function?_ofValidated {valid : Validated} {index : Nat} {function : Function}
    (hfunction : (Program.ofValidated valid).function? index = some function) :
    index < valid.codeCount := by
  have hlt := (Array.getElem?_eq_some_iff.mp hfunction).1
  simp only [ofValidated, ofSections, List.size_toArray, List.length_map, List.length_zip] at hlt
  rw [Validated.codeCount]
  omega

/-- The function of an index is that of a loaded section. -/
theorem exists_loaded_of_function? {config : Validation.Config} {raw : Bytes} {valid : Validated}
    (hvalid : Validation.validate config raw = .ok valid) {index : Nat} {function : Function}
    (hfunction : (Program.ofValidated valid).function? index = some function) :
    ∃ split, Loaded valid index function split := by
  obtain ⟨found, split, hloaded⟩ :=
    exists_loaded hvalid (Program.lt_of_function?_ofValidated hfunction)
  obtain rfl := Option.some.inj (hloaded.function_eq.symm.trans hfunction)
  exact ⟨split, hloaded⟩

namespace Execution.Fetches

variable {σ : Type} {execution : Execution σ} {valid : Validated} {function : Function}
  {fetched : Fetched} {config : Validation.Config} {raw : Bytes}

theorem next_eq {program : Program} (hat : execution.Fetches program function fetched) :
    fetched.next = execution.state.pc + 1 + fetched.opcode.info.immediateSize :=
  (Function.fetch_eq_ok_iff.mp hat.fetch_eq).2.2.1

theorem length_eq {program : Program} (hat : execution.Fetches program function fetched) :
    fetched.immediate.length = fetched.opcode.info.immediateSize :=
  Function.length_of_fetch hat.fetch_eq

variable (hvalid : Validation.validate config raw = .ok valid)
  (hat : execution.Fetches (Program.ofValidated valid) function fetched)
include hvalid hat

theorem slice_eq :
    valid.container.body.slice? execution.state.function = some function.code.toList := by
  obtain ⟨_, hloaded⟩ := exists_loaded_of_function? hvalid hat.function_eq
  exact hloaded.slice_eq

theorem byteAt?_eq :
    valid.byteAt? execution.state.function execution.state.pc = some fetched.opcode.byte := by
  have hbyte := (Function.fetch_eq_ok_iff.mp hat.fetch_eq).1
  rw [← Array.getElem?_toList] at hbyte
  rw [Validated.byteAt?, hat.slice_eq hvalid, Option.bind_some, hbyte]

/-- **The machine fetches the opcode that the container has at its position.** -/
theorem opcodeAt?_eq :
    valid.opcodeAt? execution.state.function execution.state.pc = some fetched.opcode := by
  rw [Validated.opcodeAt?, hat.byteAt?_eq hvalid, Option.bind_some, Opcode.ofByte?_byte]

/-- **A call goes to the section that the container names behind it.** -/
theorem calleeAt?_eq (hbyte : fetched.opcode.byte = Opcode.callf) :
    valid.calleeAt? execution.state.function execution.state.pc = some fetched.callee := by
  obtain ⟨_, _, hnext, _, himmediate⟩ := Function.fetch_eq_ok_iff.mp hat.fetch_eq
  have hcall : fetched.opcode.isCall = true := beq_iff_eq.mpr hbyte
  have hsize := Opcode.immediateSize_of_isCall hcall
  have hlength := Function.length_of_fetch hat.fetch_eq
  rw [hsize] at hlength hnext
  have hread : Bytes.readU16? (function.code.toList.drop (execution.state.pc + 1)) =
      Bytes.readU16? fetched.immediate := by
    rw [himmediate, Array.toList_extract, List.extract_eq_take_drop, hnext,
      Nat.add_sub_cancel_left, Bytes.readU16?_take_two]
  obtain ⟨value, hvalue⟩ := Code.exists_readU16?_of_length (Nat.le_of_eq hlength.symm)
  rw [Validated.calleeAt?, hat.slice_eq hvalid, Option.bind_some, hread, Fetched.callee, hvalue]
  rfl

end Execution.Fetches

end Machine

end EvmObject
