import EvmObject.Proofs.Machine.StackHost

/-!
# The stack-only host and the instruction table, in numbers

`StackHost.Conforms` says what an instruction does to a stack by the two numbers that the table has
for it: words it takes and words it leaves. The host never reads these numbers for the instructions
that it carries out itself, so that it conforms (`stackHost_conforms`) says that pushes, stack moves
and computations are counted right.
-/

namespace EvmObject.Machine

/-- What an instruction leaves behind is what the table says: it fails for want of words, then for
want of room, and otherwise replaces its inputs by its outputs and is noted. -/
structure StackHost.Conforms (op : Opcode) (stack : Stack) (trace : Trace) (effect : Effect Trace) :
    Prop where
  result_eq : effect.result =
    if stack.size < op.info.inputs then .error .stackUnderflow
    else if 1024 < stack.size - op.info.inputs + op.info.outputs then .error .stackOverflow
    else .ok ()
  size_eq : effect.result = .ok () →
    effect.stack.size = stack.size - op.info.inputs + op.info.outputs
  /-- The words below the inputs stay. -/
  below_eq : effect.result = .ok () →
    effect.stack.toList.take (stack.size - op.info.inputs) =
      stack.toList.take (stack.size - op.info.inputs)
  /-- The trace starts with the latest opcode. -/
  trace_eq : effect.result = .ok () → effect.host = op :: trace
  /-- An instruction that fails does nothing. -/
  unchanged : ∀ fault, effect.result = .error fault → effect.stack = stack ∧ effect.host = trace

namespace StackHost

variable {op : Opcode} {stack : Stack} {trace : Trace}

theorem conforms_of_error {fault : Fault}
    (hresult : .error fault =
      if stack.size < op.info.inputs then .error .stackUnderflow
      else if 1024 < stack.size - op.info.inputs + op.info.outputs then .error .stackOverflow
      else (.ok () : Except Fault Unit)) :
    Conforms op stack trace ⟨.error fault, stack, trace⟩ where
  result_eq := hresult
  size_eq hok := nomatch hok
  below_eq hok := nomatch hok
  trace_eq hok := nomatch hok
  unchanged _ _ := ⟨rfl, rfl⟩

/-- **Whatever takes and leaves what the table says conforms.** -/
theorem conforms_of_rewrites {act : Stack → Stack.Result Unit} {f : List Word → List Word}
    (hact : Stack.Rewrites act op.info.inputs op.info.outputs f) :
    Conforms op stack trace
      ⟨(act stack).1, (act stack).2, if (act stack).1.isOk then op :: trace else trace⟩ := by
  rcases Nat.lt_or_ge stack.size op.info.inputs with hshort | henough
  · rw [hact.short stack hshort]
    exact conforms_of_error (if_pos hshort).symm
  rcases hact.cases_of_le henough with ⟨hfull, hfails⟩ | ⟨hroom, after, hdone, hafter⟩
  · rw [hfails]
    refine conforms_of_error ?_
    rw [if_neg (Nat.not_lt.mpr henough)]
    exact (if_pos hfull).symm
  · have htaken : (stack.toList.drop (stack.size - op.info.inputs)).length = op.info.inputs := by
      rw [List.length_drop, Stack.length_toList]
      omega
    have hbelow : (stack.toList.take (stack.size - op.info.inputs)).length =
        stack.size - op.info.inputs := by
      rw [List.length_take, Stack.length_toList]
      omega
    rw [hdone]
    exact {
      result_eq := by
        rw [if_neg (Nat.not_lt.mpr henough)]
        exact (if_neg (Nat.not_lt.mpr hroom)).symm
      size_eq := fun _ => by
        show after.size = _
        rw [← after.length_toList, hafter, List.length_append, hbelow, hact.length_eq _ htaken]
      below_eq := fun _ => by
        show after.toList.take _ = _
        rw [hafter, List.take_left' hbelow]
      trace_eq := fun _ => rfl
      unchanged := fun _ hfault => nomatch hfault }

end StackHost

/-- **The stack-only host conforms to the instruction table.** For every opcode, every operand that
fits in a word and every stack it gives an answer, and the answer is what the table says. -/
theorem stackHost_conforms (op : Opcode) (immediate : Bytes) (hfits : immediate.length ≤ 32)
    (stack : Stack) (trace : StackHost.Trace) :
    ∃ effect, StackHost.execute? op immediate stack trace = some effect ∧
      stackHost.execute op immediate stack trace = effect ∧
      StackHost.Conforms op stack trace effect := by
  obtain ⟨act, f, hperform, hact⟩ := StackHost.exists_rewrites fun _ => hfits
  exact ⟨_, StackHost.execute?_eq (hperform stack) trace,
    StackHost.execute_eq (hperform stack) trace, StackHost.conforms_of_rewrites hact⟩

/-- Exchanging the top with the second word below it takes three words and leaves three. -/
theorem stackHost_conforms_exchange :
    let op : Opcode := ⟨0x91, rfl⟩
    let stack : Stack := ⟨#[6, 7, 8, 9], by decide⟩
    ([] : Bytes).length ≤ 32 ∧
      (∃ effect, stackHost.execute op [] stack [] = effect ∧
        effect.result = .ok () ∧ effect.stack.size = 4 ∧ effect.stack.toList.take 1 = [6] ∧
        effect.host = [op]) ∧
      ∃ effect, stackHost.execute op [] ⟨#[8, 9], by decide⟩ [] = effect ∧
        effect.result = .error .stackUnderflow ∧ effect.stack = ⟨#[8, 9], by decide⟩ ∧
        effect.host = [] := by
  intro op stack
  have hinputs : op.info.inputs = 3 := by decide +kernel
  have houtputs : op.info.outputs = 3 := by decide +kernel
  obtain ⟨effect, _, hexecute, hdone⟩ := stackHost_conforms op [] (by decide) stack []
  obtain ⟨failure, _, hfails, hshort⟩ :=
    stackHost_conforms op [] (by decide) ⟨#[8, 9], by decide⟩ []
  have hok : effect.result = .ok () := by
    rw [hdone.result_eq, hinputs, houtputs]
    rfl
  have hfault : failure.result = .error .stackUnderflow := by
    rw [hshort.result_eq, hinputs]
    rfl
  have hsize := hdone.size_eq hok
  have hbelow := hdone.below_eq hok
  rw [hinputs] at hsize hbelow
  rw [houtputs] at hsize
  exact ⟨by decide, ⟨effect, hexecute, hok, hsize, hbelow, hdone.trace_eq hok⟩,
    failure, hfails, hfault, hshort.unchanged _ hfault⟩

end EvmObject.Machine
