import EvmObject.Machine.Run

/-!
# Runs, a step at a time

A run that has not come to an end started with a step that went on, and `runWithin_induction` is the
induction that this gives: what every step preserves holds after a run. A run that is split goes on
from where its first part stopped (`runWithin_add_of_running`) or has its end there
(`runWithin_add_of_ended`).
-/

namespace EvmObject.Machine

theorem Outcome.isRunning_eq_false {outcome : Outcome} (hended : outcome ≠ .running) :
    outcome.isRunning = false := by
  unfold isRunning
  exact beq_eq_false_iff_ne.mpr hended

namespace Execution

variable {σ : Type} {program : Program} {host : Host σ} {execution after : Execution σ} {n : Nat}

theorem runWithin_succ_of_running (hrunning : (execution.step program host).outcome = .running) :
    execution.runWithin program host (n + 1) =
      (execution.step program host).after.runWithin program host n := by
  simp only [runWithin, hrunning]
  rfl

theorem runWithin_succ_of_ended (hended : (execution.step program host).outcome ≠ .running) :
    execution.runWithin program host (n + 1) =
      ((execution.step program host).outcome, (execution.step program host).after) := by
  simp only [runWithin, Outcome.isRunning_eq_false hended, Bool.false_eq_true, if_false]

/-- A run that goes on starts with a step that goes on. -/
theorem runWithin_succ_eq_running_iff :
    execution.runWithin program host (n + 1) = (.running, after) ↔
      (execution.step program host).outcome = .running ∧
        (execution.step program host).after.runWithin program host n = (.running, after) := by
  by_cases hrunning : (execution.step program host).outcome = .running
  · rw [runWithin_succ_of_running hrunning]
    exact ⟨fun hrun => ⟨hrunning, hrun⟩, fun hboth => hboth.2⟩
  · rw [runWithin_succ_of_ended hrunning, Prod.mk.injEq]
    exact ⟨fun hended => absurd hended.1 hrunning, fun hboth => absurd hboth.1 hrunning⟩

/-- A run that goes on is resumed where it stopped. -/
theorem runWithin_add_of_running (hrun : execution.runWithin program host n = (.running, after))
    (m : Nat) :
    execution.runWithin program host (n + m) = after.runWithin program host m := by
  rw [runWithin_add, hrun]
  rfl

/-- A run that has come to an end is not changed by more steps. -/
theorem runWithin_add_of_ended (hended : (execution.runWithin program host n).1 ≠ .running)
    (m : Nat) :
    execution.runWithin program host (n + m) = execution.runWithin program host n := by
  rw [runWithin_add]
  simp only [Outcome.isRunning_eq_false hended, Bool.false_eq_true, if_false]

/-- **What every step preserves holds after a run** that has not come to an end. -/
theorem runWithin_induction {P : Execution σ → Prop}
    (hstep : ∀ execution, P execution →
      (execution.step program host).outcome = .running → P (execution.step program host).after)
    (hbefore : P execution) (hrun : execution.runWithin program host n = (.running, after)) :
    P after := by
  induction n generalizing execution with
  | zero =>
    obtain ⟨_, rfl⟩ := Prod.mk.inj hrun
    exact hbefore
  | succ n ih =>
    obtain ⟨hrunning, hrest⟩ := runWithin_succ_eq_running_iff.mp hrun
    exact ih (hstep execution hbefore hrunning) hrest

end Execution

end EvmObject.Machine
