import EvmObject.Proofs.Machine.Runs
import EvmObject.Proofs.Machine.StepCases
import EvmObject.Proofs.Opcode.Table

/-!
# What is within reach

The machine tells whether words are within reach by a sum of machine words, and it takes a frame's
height from a difference of machine words. Both wrap around. `reaches_iff_mod` says what the check
comes to for any frames, and `reaches_iff` that it is the intended one if the sum fits in a word.

Frames that calls have made are low: no height is more than what fits on the data stack. A step
keeps them low (`isLow_step`), whatever the host does and whatever the step leads to, and so does a
run. So nothing wraps around in an execution from the start. It takes a frame that was put there
from outside, with a height near the limit of a machine word.
-/

namespace EvmObject.Machine

/-! ## Low frames -/

namespace ReturnStack

variable {stack after : ReturnStack} {frame : Frame}

/-- No frame says that more words are out of reach than fit on the data stack. -/
def IsLow (stack : ReturnStack) : Prop := ∀ frame ∈ stack.frames, frame.height ≤ Limits.stack

theorem isLow_initial : initial.IsLow := by
  intro frame hmem
  obtain rfl := Array.mem_singleton.mp hmem
  exact Nat.zero_le _

theorem isLow_empty : empty.IsLow := fun frame hmem => absurd hmem (Array.not_mem_empty frame)

theorem isLow_push_iff (hframes : after.frames = stack.frames.push frame) :
    after.IsLow ↔ stack.IsLow ∧ frame.height ≤ Limits.stack := by
  unfold IsLow
  simp only [hframes, Array.mem_push]
  constructor
  · intro hlow
    exact ⟨fun other hmem => hlow other (.inl hmem), hlow frame (.inr rfl)⟩
  · rintro ⟨hbelow, hframe⟩ other (hmem | rfl)
    · exact hbelow other hmem
    · exact hframe

theorem IsLow.height_le (hlow : stack.IsLow) : stack.height ≤ Limits.stack := by
  unfold height
  cases htop : stack.top? with
  | none => exact Nat.zero_le _
  | some top => exact hlow top (Array.mem_of_back? htop)

end ReturnStack

namespace Execution

variable {σ : Type} {program : Program} {host : Host σ} {execution after : Execution σ}
  {count : Nat}

/-! ## The sum and the difference -/

theorem size_lt_word (execution : Execution σ) : execution.stack.size < UInt64.size := by
  have hsize := execution.stack.size_le
  unfold Limits.stack at hsize
  unfold UInt64.size
  omega

/-- **The check goes by the sum modulo the size of a machine word.** -/
theorem reaches_iff_mod :
    execution.reaches count = true ↔
      (execution.state.frames.height + count) % UInt64.size ≤ execution.stack.size := by
  rw [reaches, decide_eq_true_iff, UInt64.toNat_add, UInt64.toNat_ofNat', UInt64.toNat_ofNat',
    ← Nat.add_mod]

/-- Where the sum fits in a machine word the check is what it is meant to be. -/
theorem reaches_iff (hfits : execution.state.frames.height + count < UInt64.size) :
    execution.reaches count = true ↔
      execution.state.frames.height + count ≤ execution.stack.size := by
  rw [reaches_iff_mod, Nat.mod_eq_of_lt hfits]

theorem reaches_eq_false_iff (hfits : execution.state.frames.height + count < UInt64.size) :
    execution.reaches count = false ↔
      execution.stack.size < execution.state.frames.height + count := by
  rw [← Bool.not_eq_true, reaches_iff hfits, Nat.not_le]

/-- What is within reach is found to be, since no sum wraps around below the size of a stack. -/
theorem reaches_of_le (henough : execution.state.frames.height + count ≤ execution.stack.size) :
    execution.reaches count = true :=
  (reaches_iff (Nat.lt_of_le_of_lt henough execution.size_lt_word)).mpr henough

theorem heightBelow_of_le (henough : count ≤ execution.stack.size) :
    execution.heightBelow count = execution.stack.size - count := by
  have hsize : (UInt64.ofNat execution.stack.size).toNat = execution.stack.size :=
    UInt64.toNat_ofNat_of_lt' execution.size_lt_word
  have hcount : (UInt64.ofNat count).toNat = count :=
    UInt64.toNat_ofNat_of_lt' (Nat.lt_of_le_of_lt henough execution.size_lt_word)
  have hle : UInt64.ofNat count ≤ UInt64.ofNat execution.stack.size := by
    rw [UInt64.le_iff_toNat_le, hsize, hcount]
    exact henough
  rw [heightBelow, UInt64.toNat_sub_of_le _ _ hle, hsize, hcount]

/-- The frame of a call leaves its arguments within reach. -/
theorem height_frameFor {fetched : Fetched} {callee : Function}
    (henough : callee.signature.inputs.toNat ≤ execution.stack.size) :
    (execution.frameFor fetched callee).height =
      execution.stack.size - callee.signature.inputs.toNat :=
  heightBelow_of_le henough

section
variable (hlow : execution.state.frames.height ≤ Limits.stack)
include hlow

/-- No instruction makes a sum with a low height wrap around. -/
theorem add_lt_word_of_low (hcount : count < 256) :
    execution.state.frames.height + count < UInt64.size := by
  unfold Limits.stack at hlow
  unfold UInt64.size
  omega

theorem reaches_iff_of_low (hcount : count < 256) :
    execution.reaches count = true ↔
      execution.state.frames.height + count ≤ execution.stack.size :=
  reaches_iff (add_lt_word_of_low hlow hcount)

theorem reaches_eq_false_iff_of_low (hcount : count < 256) :
    execution.reaches count = false ↔
      execution.stack.size < execution.state.frames.height + count :=
  reaches_eq_false_iff (add_lt_word_of_low hlow hcount)

/-- A word within reach of a low frame can be read. -/
theorem peek_ne_error_of_low (hreaches : execution.reaches 1 = true) {fault : Fault} :
    execution.stack.peek 0 ≠ .error fault := by
  intro hpeek
  have henough := (reaches_iff_of_low hlow (by decide)).mp hreaches
  obtain ⟨hempty, _⟩ := Stack.peek_eq_error_iff.mp hpeek
  omega

end

/-! ## Steps and runs -/

/-- **A step keeps the frames low.** -/
theorem isLow_step (hlow : execution.state.frames.IsLow) :
    (execution.step program host).after.state.frames.IsLow := by
  have hcases := step_cases program host execution
  generalize execution.step program host = taken at hcases ⊢
  cases hcases with
  | noFunction => exact ReturnStack.isLow_empty
  | noInstruction => exact ReturnStack.isLow_empty
  | stop => exact hlow
  | invalid => exact ReturnStack.isLow_empty
  | call _ _ _ _ _ hcase =>
    cases hcase with
    | unknown => exact ReturnStack.isLow_empty
    | short => exact ReturnStack.isLow_empty
    | full => exact ReturnStack.isLow_empty
    | entered callee frames _ hreaches hpush =>
      obtain ⟨_, hframes⟩ := ReturnStack.push_eq_ok_iff.mp hpush
      have hcount := callee.signature.inputs.toNat_lt
      have henough := (reaches_iff_of_low hlow.height_le hcount).mp hreaches
      refine (ReturnStack.isLow_push_iff hframes).mpr ⟨hlow, ?_⟩
      rw [height_frameFor (by omega)]
      exact Nat.le_trans (Nat.sub_le _ _) execution.stack.size_le
  | ret _ _ _ _ _ hcase =>
    cases hcase with
    | short => exact ReturnStack.isLow_empty
    | noFrame => exact ReturnStack.isLow_empty
    | last frame frames _ hpop =>
      exact ((ReturnStack.isLow_push_iff (ReturnStack.pop?_eq_some_iff.mp hpop)).mp hlow).1
    | returned frame frames _ hpop =>
      exact ((ReturnStack.isLow_push_iff (ReturnStack.pop?_eq_some_iff.mp hpop)).mp hlow).1
  | jump _ _ _ _ _ hcase =>
    cases hcase with
    | nowhere => exact ReturnStack.isLow_empty
    | taken => exact hlow
  | branch _ _ _ _ _ hcase =>
    cases hcase with
    | short => exact ReturnStack.isLow_empty
    | unread => exact ReturnStack.isLow_empty
    | untaken => exact hlow
    | nowhere => exact ReturnStack.isLow_empty
    | taken => exact hlow
  | host _ _ _ _ _ hcase =>
    cases hcase with
    | short => exact ReturnStack.isLow_empty
    | failed => exact ReturnStack.isLow_empty
    | ended => exact hlow
    | done => exact hlow

/-- **A run from low frames keeps them low.** -/
theorem isLow_of_run {n : Nat} (hlow : execution.state.frames.IsLow)
    (hrun : execution.runWithin program host n = (.running, after)) : after.state.frames.IsLow :=
  runWithin_induction (P := fun execution => execution.state.frames.IsLow)
    (fun _ hbefore _ => isLow_step hbefore) hlow hrun

end Execution

end EvmObject.Machine
