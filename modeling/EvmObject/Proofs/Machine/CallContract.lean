import EvmObject.Proofs.Machine.Activations
import EvmObject.Proofs.Machine.ControlFlow

/-!
# Calls keep their contract

A function that is called with `i` arguments and returns `o` results leaves its caller where it was:
behind the call, with the frames that it had, and with the data stack as it was below the arguments.
At least `o` words stand where the arguments stood. What runs in between is of no matter, be it
calls, recursion, or the function itself calling its caller's section again.

`Execution.Inside.run` follows the run from the call to the step that takes the frame of the call;
that step is a return of the called function, which is why its own signature was checked. All that
is asked of the frames before the call is that the height of the caller and the number of arguments
add up in a machine word (`call_contract_of_fits`), and in a run from the start they do.
-/

namespace EvmObject.Machine

open Validation (Validated)

namespace Execution

variable {σ : Type} {program : Program} {host : Host σ} {outer : ReturnStack} {above : List Frame}
  {execution after : Execution σ} {n : Nat}

/-- The function of the topmost frame of `outer` has returned, and left its results above the words
that it could not reach. -/
structure Returned (program : Program) (outer : ReturnStack) (callee : Nat)
    (before after : Execution σ) : Prop where
  exists_frame : ∃ frame frames, outer.pop? = some (frame, frames) ∧
    after.state = ⟨frame.function, frame.pc, frames⟩
  exists_function : ∃ function, program.function? callee = some function ∧
    outer.height + function.signature.outputs.toNat ≤ after.stack.size
  below : Stack.SameBelow outer.height after.stack before.stack

/-- **Inside a function every run comes back by its return,** if it comes back at all. The induction
is on the steps, and the first one that leaves decides. -/
theorem Inside.run (hhost : host.StaysInReach) (hinside : Inside outer above execution)
    (hrun : execution.runWithin program host n = (.running, after))
    (hback : after.state.frames.size + 1 = outer.size)
    (hfirst : ∀ m < n, (execution.runWithin program host m).2.state.frames.size + 1 ≠ outer.size) :
    Returned program outer (lowest above execution.state.function) execution after := by
  induction n generalizing execution above with
  | zero =>
    -- the old frames are still in place
    obtain ⟨_, rfl⟩ := Prod.mk.inj hrun
    have hlength := congrArg List.length hinside.frames_eq
    rw [List.length_append, Array.length_toList, Array.length_toList] at hlength
    rw [ReturnStack.size, ReturnStack.size] at hback
    omega
  | succ n ih =>
    obtain ⟨hrunning, hrest⟩ := runWithin_succ_eq_running_iff.mp hrun
    have hbelow : Stack.SameBelow outer.height (execution.step program host).after.stack
        execution.stack := sameBelow_step hhost hinside.running_low hinside.le_running
    have hlater (m : Nat) (hm : m < n) :
        ((execution.step program host).after.runWithin program host m).2.state.frames.size + 1 ≠
          outer.size := by
      have hnot := hfirst (m + 1) (Nat.succ_lt_succ hm)
      rwa [runWithin_succ_of_running hrunning] at hnot
    rcases hinside.next hhost hrunning with
      ⟨above', hinside', hlowest⟩ |
        ⟨rfl, function, frame, frames, hfunction, hreaches, hpop, hafter⟩
    · rw [← hlowest]
      obtain ⟨hframe, hreturned, hkept⟩ := ih hinside' hrest hlater
      exact ⟨hframe, hreturned, hkept.trans hbelow⟩
    · -- this step leaves, so it is the last one
      have hframes := ReturnStack.pop?_eq_some_iff.mp hpop
      have hleft : (execution.step program host).after.state.frames.size + 1 = outer.size := by
        rw [hafter, ReturnStack.size, ReturnStack.size, hframes, Array.size_push]
      cases n with
      | zero =>
        obtain ⟨_, rfl⟩ := Prod.mk.inj hrest
        have hcount := function.signature.outputs.toNat_lt
        have henough := (reaches_iff_of_low hinside.running_low hcount).mp hreaches
        have hrunning := hinside.le_running
        refine ⟨⟨frame, frames, hpop, ?_⟩, ⟨function, hfunction, ?_⟩, hbelow⟩
        · rw [hafter]
        · rw [hafter]
          show outer.height + _ ≤ execution.stack.size
          omega
      | succ n => exact absurd hleft (hlater 0 (Nat.succ_pos n))

/-! ## From the call on -/

/-- A call that goes on stands at the start of the called function, with nothing above its frame. -/
theorem exists_inside_of_call {function : Function} {fetched : Fetched}
    (hat : execution.Fetches program function fetched) (hbyte : fetched.opcode.byte = Opcode.callf)
    (hfits : ∀ callee, program.function? fetched.callee = some callee →
      execution.state.frames.height + callee.signature.inputs.toNat < UInt64.size)
    (hrunning : (execution.step program host).outcome = .running) :
    ∃ callee outer, program.function? fetched.callee = some callee ∧
      callee.signature.inputs.toNat ≤ execution.stack.size ∧
      outer.frames = execution.state.frames.frames.push (execution.frameFor fetched callee) ∧
      (execution.step program host).after =
        { execution with state := ⟨fetched.callee, 0, outer⟩ } ∧
      Inside outer [] (execution.step program host).after := by
  have hstep : execution.step program host = execution.call program fetched :=
    (StepCase.call function fetched _ hat hbyte (call_cases ..)).eq_step.symm
  rw [hstep] at hrunning ⊢
  have hcases := call_cases program execution fetched
  generalize execution.call program fetched = taken at hcases hrunning ⊢
  cases hcases with
  | unknown => cases hrunning
  | short => cases hrunning
  | full => cases hrunning
  | entered callee outer hcallee hreaches hpush =>
    have hreach := (reaches_iff (hfits callee hcallee)).mp hreaches
    have henough : callee.signature.inputs.toNat ≤ execution.stack.size := by omega
    obtain ⟨_, hframes⟩ := ReturnStack.push_eq_ok_iff.mp hpush
    refine ⟨callee, outer, hcallee, henough, hframes, rfl, .of_height_le rfl ?_⟩
    rw [ReturnStack.height_of_frames hframes, height_frameFor henough]
    exact Nat.sub_le _ _

end Execution

/-- **A call keeps its contract wherever its check is what it is meant to be.** How the execution
got to the call is of no matter, if only the height of the caller and the number of arguments add up
in a machine word. -/
theorem call_contract_of_fits {config : Validation.Config} {raw : Bytes} {valid : Validated}
    (hvalid : Validation.validate config raw = .ok valid) {before after : Execution StackHost.Trace}
    {callee : Nat} {signature : Container.Signature}
    (hcall : valid.byteAt? before.state.function before.state.pc = some Opcode.callf)
    (hcallee : valid.calleeAt? before.state.function before.state.pc = some callee)
    (hsignature : valid.container.signature? callee = some signature)
    (hfits : before.state.frames.height + signature.inputs.toNat < UInt64.size) {n : Nat}
    (hpos : 0 < n)
    (hrun : before.runWithin (Program.ofValidated valid) stackHost n = (.running, after))
    (hback : after.state.frames.size = before.state.frames.size)
    (hfirst : ∀ m, 0 < m → m < n →
      (before.runWithin (Program.ofValidated valid) stackHost m).2.state.frames.size ≠
        before.state.frames.size) :
    after.state = ⟨before.state.function, before.state.pc + 3, before.state.frames⟩ ∧
      signature.inputs.toNat ≤ before.stack.size ∧
      before.stack.size - signature.inputs.toNat + signature.outputs.toNat ≤ after.stack.size ∧
      after.stack.toList.take (before.stack.size - signature.inputs.toNat) =
        before.stack.toList.take (before.stack.size - signature.inputs.toNat) := by
  obtain ⟨n, rfl⟩ := Nat.exists_eq_succ_of_ne_zero (Nat.ne_of_gt hpos)
  obtain ⟨hrunning, hrest⟩ := Execution.runWithin_succ_eq_running_iff.mp hrun
  -- the first step is the call, and it goes on
  obtain ⟨function, fetched, hat⟩ := Execution.exists_fetches_of_running hrunning
  have hbyte : fetched.opcode.byte = Opcode.callf :=
    Option.some.inj ((hat.byteAt?_eq hvalid).symm.trans hcall)
  obtain rfl : fetched.callee = callee :=
    Option.some.inj ((hat.calleeAt?_eq hvalid hbyte).symm.trans hcallee)
  have hsame (found : Function)
      (hfound : (Program.ofValidated valid).function? fetched.callee = some found) :
      found.signature = signature := by
    obtain ⟨_, hloaded⟩ := exists_loaded_of_function? hvalid hfound
    exact Option.some.inj (hloaded.signature_eq.symm.trans hsignature)
  obtain ⟨called, outer, hfound, henough, hframes, hafter, hinside⟩ :=
    Execution.exists_inside_of_call hat hbyte (fun found hfound => hsame found hfound ▸ hfits)
      hrunning
  obtain rfl := hsame called hfound
  have hsize : outer.size = before.state.frames.size + 1 := by
    rw [ReturnStack.size, hframes, Array.size_push]
    rfl
  have hlater (m : Nat) (hm : m < n) :
      ((before.step (Program.ofValidated valid) stackHost).after.runWithin
        (Program.ofValidated valid) stackHost m).2.state.frames.size + 1 ≠ outer.size := by
    have hnot := hfirst (m + 1) (Nat.succ_pos m) (Nat.succ_lt_succ hm)
    rw [Execution.runWithin_succ_of_running hrunning] at hnot
    omega
  -- the rest comes back by a return of the called function
  obtain ⟨⟨frame, frames, hpop, hstate⟩, ⟨returning, hreturning, houtputs⟩, hbelow⟩ :=
    hinside.run stackHost_staysInReach hrest (by omega) hlater
  rw [hafter] at hreturning hbelow
  obtain rfl : called = returning := Option.some.inj (hfound.symm.trans hreturning)
  have hpushed := ReturnStack.pop?_eq_some_iff.mpr hframes
  obtain ⟨rfl, rfl⟩ := Prod.mk.inj (Option.some.inj (hpushed.symm.trans hpop))
  have himmediate : fetched.opcode.info.immediateSize = 2 :=
    Opcode.immediateSize_of_isCall (beq_iff_eq.mpr hbyte)
  have hheight : outer.height = before.stack.size - called.signature.inputs.toNat :=
    (ReturnStack.height_of_frames hframes).trans (Execution.height_frameFor henough)
  rw [hheight] at houtputs hbelow
  refine ⟨?_, henough, houtputs, hbelow⟩
  rw [hstate, Execution.frameFor, hat.next_eq, himmediate]

/-- **The call contract.** Let a run of a valid container from the start come to a call of a section
with `i` inputs and `o` outputs. Let it go on until there are for the first time as many return
frames as before the call. Then it stands behind the call, with the same frames, with the same words
below the arguments, and with at least `o` words above these. -/
theorem call_contract {config : Validation.Config} {raw : Bytes} {valid : Validated}
    (hvalid : Validation.validate config raw = .ok valid) {trace : StackHost.Trace} {k : Nat}
    {before after : Execution StackHost.Trace}
    (hstart : (Execution.initial trace).runWithin (Program.ofValidated valid) stackHost k =
      (.running, before))
    {callee : Nat} {signature : Container.Signature}
    (hcall : valid.byteAt? before.state.function before.state.pc = some Opcode.callf)
    (hcallee : valid.calleeAt? before.state.function before.state.pc = some callee)
    (hsignature : valid.container.signature? callee = some signature) {n : Nat} (hpos : 0 < n)
    (hrun : before.runWithin (Program.ofValidated valid) stackHost n = (.running, after))
    (hback : after.state.frames.size = before.state.frames.size)
    (hfirst : ∀ m, 0 < m → m < n →
      (before.runWithin (Program.ofValidated valid) stackHost m).2.state.frames.size ≠
        before.state.frames.size) :
    after.state = ⟨before.state.function, before.state.pc + 3, before.state.frames⟩ ∧
      signature.inputs.toNat ≤ before.stack.size ∧
      before.stack.size - signature.inputs.toNat + signature.outputs.toNat ≤ after.stack.size ∧
      after.stack.toList.take (before.stack.size - signature.inputs.toNat) =
        before.stack.toList.take (before.stack.size - signature.inputs.toNat) := by
  have hlow := (Execution.isLow_of_run ReturnStack.isLow_initial hstart).height_le
  have hfits := Execution.add_lt_word_of_low hlow signature.inputs.toNat_lt
  exact call_contract_of_fits hvalid hcall hcallee hsignature hfits hpos hrun hback hfirst

/-- The call behind two pushes comes back after three steps, with one word instead of two. -/
theorem call_contract_sum :
    ∃ before after : Execution StackHost.Trace,
      Validation.validate .default (Container.ofBody sumBody).raw = .ok sumValid ∧
      (Execution.initial []).runWithin (Program.ofValidated sumValid) stackHost 2 =
        (.running, before) ∧
      before.runWithin (Program.ofValidated sumValid) stackHost 3 = (.running, after) ∧
      before.stack.size = 2 ∧ after.state = ⟨0, 4 + 3, .initial⟩ ∧
      (2 : UInt8).toNat ≤ before.stack.size ∧
      before.stack.size - (2 : UInt8).toNat + (1 : UInt8).toNat ≤ after.stack.size ∧
      after.stack.toList.take (before.stack.size - (2 : UInt8).toNat) =
        before.stack.toList.take (before.stack.size - (2 : UInt8).toNat) := by
  have hvalid : Validation.validate .default (Container.ofBody sumBody).raw = .ok sumValid :=
    eq_ok_of_toOption (by decide +kernel)
  let pushed := (Execution.initial []).runWithin (Program.ofValidated sumValid) stackHost 2
  let before := pushed.2
  let after := (before.runWithin (Program.ofValidated sumValid) stackHost 3).2
  have hpushed : pushed.1 = .running := by decide +kernel
  have hstart : pushed = (.running, before) := by rw [← hpushed]
  have hstate : before.state = ⟨0, 4, .initial⟩ := by decide +kernel
  have hcall : sumValid.byteAt? before.state.function before.state.pc = some Opcode.callf := by
    decide +kernel
  have hcallee : sumValid.calleeAt? before.state.function before.state.pc = some 1 := by
    decide +kernel
  have hsignature : sumValid.container.signature? 1 = some ⟨2, 1⟩ := by decide +kernel
  have hrunning : (before.runWithin (Program.ofValidated sumValid) stackHost 3).1 = .running := by
    decide +kernel
  have hrun : before.runWithin (Program.ofValidated sumValid) stackHost 3 = (.running, after) := by
    rw [← hrunning]
  have hback : after.state.frames.size = before.state.frames.size := by decide +kernel
  have hfirst (m : Nat) (hpos : 0 < m) (hlt : m < 3) :
      (before.runWithin (Program.ofValidated sumValid) stackHost m).2.state.frames.size ≠
        before.state.frames.size := by
    -- after the call and after the addition there are two frames
    obtain rfl | rfl : m = 1 ∨ m = 2 := by omega
    · decide +kernel
    · decide +kernel
  have hcontract :=
    call_contract hvalid hstart hcall hcallee hsignature (by decide) hrun hback hfirst
  rw [hstate] at hcontract
  exact ⟨before, after, hvalid, hstart, hrun, by decide +kernel, hcontract⟩

end EvmObject.Machine
