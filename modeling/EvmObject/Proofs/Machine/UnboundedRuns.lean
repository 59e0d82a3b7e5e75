import EvmObject.Proofs.Machine.ControlFlow

/-!
# Runs with and without a budget

A run within a budget always answers; a run to the end answers only if there is an end. Both take
the same steps, so they agree wherever both say something:

* `run?_eq_some_iff`: a run to the end comes out as some budget lets it come out;
* `run?_eq_none_iff`: it has no result exactly if no budget is enough.
-/

namespace EvmObject.Machine

namespace Execution

variable {σ : Type} {program : Program} {host : Host σ} {execution final : Execution σ}
  {outcome : Outcome}

/-! ## Turns of a run to the end -/

/-- A run to the end goes on with a step that is not the last. -/
theorem Underway.exists_toEnd_of_running {start : Execution σ} (run : Underway program host start)
    (hrunning : (run.current.step program host).outcome = .running) :
    ∃ next : Underway program host start,
      next.current = (run.current.step program host).after ∧ run.toEnd = next.toEnd := by
  rw [toEnd_eq, turn]
  simp only [dif_pos hrunning]
  exact ⟨_, rfl, rfl⟩

/-- A run to the end stops with a step that ends the execution. -/
theorem Underway.exists_toEnd_of_ended {start : Execution σ} (run : Underway program host start)
    (hended : (run.current.step program host).outcome ≠ .running) :
    ∃ last : Finished program host start, run.toEnd = some last ∧ last.result =
      ((run.current.step program host).outcome, (run.current.step program host).after) := by
  rw [toEnd_eq, turn]
  simp only [dif_neg hended]
  exact ⟨_, rfl, rfl⟩

/-- A run for which a budget is enough from where it stands gets to its end. -/
theorem Underway.exists_toEnd_of_runWithin {start : Execution σ} {n : Nat}
    (run : Underway program host start) (hended : outcome ≠ .running)
    (hrun : run.current.runWithin program host n = (outcome, final)) :
    ∃ last : Finished program host start,
      run.toEnd = some last ∧ last.result = (outcome, final) := by
  induction n generalizing run with
  | zero => exact absurd (Prod.mk.inj hrun).1.symm hended
  | succ n ih =>
    by_cases hrunning : (run.current.step program host).outcome = .running
    · obtain ⟨next, hnext, hend⟩ := run.exists_toEnd_of_running hrunning
      rw [runWithin_succ_of_running hrunning, ← hnext] at hrun
      rw [hend]
      exact ih next hrun
    · rw [runWithin_succ_of_ended hrunning] at hrun
      rw [← hrun]
      exact run.exists_toEnd_of_ended hrunning

/-! ## The two kinds of runs -/

/-- What a run to the end answers, a budget is enough for: no other answer can be given. -/
theorem exists_runWithin_of_run? (hrun : execution.run? program host = some (outcome, final)) :
    outcome ≠ .running ∧ ∃ n, execution.runWithin program host n = (outcome, final) := by
  obtain ⟨last, _, hlast⟩ := Option.map_eq_some_iff.mp hrun
  have hreached := last.isReached
  rwa [hlast] at hreached

/-- A run that ends within a budget is a run to the end. -/
theorem run?_of_runWithin {n : Nat} (hended : outcome ≠ .running)
    (hrun : execution.runWithin program host n = (outcome, final)) :
    execution.run? program host = some (outcome, final) := by
  let start : Underway program host execution := ⟨execution, 0, rfl⟩
  obtain ⟨last, hend, hlast⟩ := start.exists_toEnd_of_runWithin hended hrun
  exact Option.map_eq_some_iff.mpr ⟨last, hend, hlast⟩

theorem run?_eq_some_iff :
    execution.run? program host = some (outcome, final) ↔
      outcome ≠ .running ∧ ∃ n, execution.runWithin program host n = (outcome, final) :=
  ⟨exists_runWithin_of_run?, fun ⟨hended, _, hrun⟩ => run?_of_runWithin hended hrun⟩

/-- An execution has no end exactly if it outlasts every budget. -/
theorem run?_eq_none_iff :
    execution.run? program host = none ↔
      ∀ n, (execution.runWithin program host n).1 = .running := by
  constructor
  · intro hnone n
    refine Decidable.byContradiction fun hended => ?_
    have hsome := run?_of_runWithin hended (rfl : _ = execution.runWithin program host n)
    rw [hnone] at hsome
    cases hsome
  · intro hall
    refine Option.eq_none_iff_forall_ne_some.mpr fun (outcome, final) hsome => ?_
    obtain ⟨hended, n, hrun⟩ := exists_runWithin_of_run? hsome
    have hrunning := hall n
    rw [hrun] at hrunning
    exact hended hrunning

/-- Whoever waits for a run to the end gets to see its outcome if there is one. -/
theorem run_eq_iff (hended : outcome ≠ .running) :
    execution.run program host = (outcome, final) ↔
      execution.run? program host = some (outcome, final) := by
  unfold run
  cases execution.run? program host with
  | none =>
    simp only [Option.getD_none, Prod.mk.injEq, reduceCtorEq, iff_false]
    exact fun hboth => hended hboth.1.symm
  | some result => rw [Option.getD_some, Option.some.injEq]

/-! ## All runs together -/

/-- **Runs compose, and a budget does not change how a run comes out.** A run that its budget stops
can be taken up where it stands, and comes out as it would have with both budgets at once. A run
that has ended stays as it is under any larger budget. And a run to the end comes out just as some
budget lets it come out that is enough; if none is enough it has no result, and goes on for ever. -/
theorem bounded_runs_agree (program : Program) (host : Host σ) (execution : Execution σ) :
    (∀ n m after, execution.runWithin program host n = (.running, after) →
      execution.runWithin program host (n + m) = after.runWithin program host m) ∧
    (∀ n m outcome final, outcome ≠ .running →
      execution.runWithin program host n = (outcome, final) →
      execution.runWithin program host (n + m) = (outcome, final)) ∧
    (∀ outcome final, execution.run? program host = some (outcome, final) ↔
      outcome ≠ .running ∧ ∃ n, execution.runWithin program host n = (outcome, final)) ∧
    (∀ outcome final, outcome ≠ .running → (execution.run program host = (outcome, final) ↔
      ∃ n, execution.runWithin program host n = (outcome, final))) ∧
    (execution.run? program host = none ↔
      ∀ n, (execution.runWithin program host n).1 = .running) := by
  refine ⟨fun n m after hrun => runWithin_add_of_running hrun m,
    fun n m outcome final hended hrun => ?_, fun _ _ => run?_eq_some_iff,
    fun outcome final hended => ?_, run?_eq_none_iff⟩
  · have hnot : (execution.runWithin program host n).1 ≠ .running := by rwa [hrun]
    rw [runWithin_add_of_ended hnot, hrun]
  · rw [run_eq_iff hended, run?_eq_some_iff]
    exact and_iff_right hended

/-- The sum takes six steps: five leave it running, the sixth stops it. -/
theorem bounded_runs_agree_sum :
    let program := Program.ofValidated sumValid
    ∃ after final,
      (initial []).runWithin program stackHost 5 = (.running, after) ∧
      (initial []).runWithin program stackHost (5 + 1) = after.runWithin program stackHost 1 ∧
      (initial []).runWithin program stackHost 6 = (.halted .stopped, final) ∧
      (initial []).runWithin program stackHost (6 + 100) = (.halted .stopped, final) ∧
      (initial []).run? program stackHost = some (.halted .stopped, final) ∧
      (initial []).run program stackHost = (.halted .stopped, final) := by
  intro program
  let five := (initial []).runWithin program stackHost 5
  let six := (initial []).runWithin program stackHost 6
  have hrunning : five = (.running, five.2) := by
    have houtcome : five.1 = .running := by decide +kernel
    rw [← houtcome]
  have hstopped : six = (.halted .stopped, six.2) := by
    have houtcome : six.1 = .halted .stopped := by decide +kernel
    rw [← houtcome]
  obtain ⟨hresume, hstay, hend, hwait, _⟩ := bounded_runs_agree program stackHost (initial [])
  exact ⟨five.2, six.2, hrunning, hresume 5 1 _ hrunning, hstopped,
    hstay 6 100 _ _ nofun hstopped, (hend _ _).mpr ⟨nofun, 6, hstopped⟩,
    (hwait (.halted .stopped) _ nofun).mpr ⟨6, hstopped⟩⟩

end Execution

end EvmObject.Machine
