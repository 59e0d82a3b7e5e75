import EvmObject.Machine.Step

/-!
# Runs

A run takes steps until the execution ends or a budget of steps is used up. Main statement:
`runWithin_add`, a run may be split anywhere. A run without a budget need not come to an end. It is a
loop over the executions that are underway, so it can give no result but one that some budget gives.
-/

namespace EvmObject.Machine

namespace Execution

variable {σ : Type}

/-- Takes at most `budget` steps. -/
def runWithin (program : Program) (host : Host σ) :
    (budget : Nat) → Execution σ → Outcome × Execution σ
  | 0, execution => (.running, execution)
  | budget + 1, execution =>
    let taken := execution.step program host
    if taken.outcome.isRunning then runWithin program host budget taken.after
    else (taken.outcome, taken.after)

/-- A budget that no execution uses up in practice. -/
def unlimited : Nat := UInt64.size

/-- The transitions of the first `count` steps, up to the one that ends the execution. Those taken
before stand last first in `done`. -/
def transitionsOnto (program : Program) (host : Host σ) :
    (count : Nat) → Execution σ → List (Transition σ) → List (Transition σ)
  | 0, _, done => done.reverse
  | count + 1, execution, done =>
    let taken := execution.step program host
    if taken.outcome.isRunning then
      transitionsOnto program host count taken.after (taken :: done)
    else (taken :: done).reverse

/-- The transitions of the first `count` steps, up to the one that ends the execution. -/
def transitions (program : Program) (host : Host σ) (count : Nat) (execution : Execution σ) :
    List (Transition σ) :=
  transitionsOnto program host count execution []

/-- Adds the records of the first `count` steps to those of earlier ones. -/
def recordsOnto (program : Program) (host : Host σ) :
    (count : Nat) → Execution σ → Array Log.Record → Array Log.Record
  | 0, _, done => done
  | count + 1, execution, done =>
    let taken := execution.step program host
    let done := (taken.event?.map (done.push ·.record)).getD done
    if taken.outcome.isRunning then recordsOnto program host count taken.after done else done

/-- The records of the first `count` steps, up to the one that ends the execution. -/
def records (program : Program) (host : Host σ) (count : Nat) (execution : Execution σ) :
    Array Log.Record :=
  recordsOnto program host count execution #[]

/-- A run may be split: its first part, and the rest unless the first part came to an end. -/
theorem runWithin_add (program : Program) (host : Host σ) (n m : Nat) (execution : Execution σ) :
    execution.runWithin program host (n + m) =
      let (outcome, after) := execution.runWithin program host n
      if outcome.isRunning then after.runWithin program host m else (outcome, after) := by
  induction n generalizing execution with
  | zero => simp [runWithin, Outcome.isRunning]
  | succ n ih =>
    rw [Nat.succ_add_eq_add_succ, Nat.add_succ]
    simp only [runWithin]
    split
    · exact ih _
    · rfl

/-! ## Runs without a budget -/

/-- Whether a step ends the execution or not, the steps up to it and this one are a run. -/
theorem runWithin_succ_of_reached {program : Program} {host : Host σ} {n : Nat}
    {start current : Execution σ}
    (hreached : start.runWithin program host n = (.running, current)) :
    start.runWithin program host (n + 1) =
      ((current.step program host).outcome, (current.step program host).after) := by
  rw [runWithin_add, hreached]
  show current.runWithin program host 1 = _
  simp only [runWithin, Outcome.isRunning, beq_iff_eq]
  split
  · next hrunning => rw [hrunning]
  · rfl

/-- A run on its way: where it stands, and that it got there from `start`. -/
structure Underway (program : Program) (host : Host σ) (start : Execution σ) where
  current : Execution σ
  isReached : ∃ n, start.runWithin program host n = (.running, current)

/-- A run at its end: the outcome with the execution it leaves, and that it got there from
`start`. -/
structure Finished (program : Program) (host : Host σ) (start : Execution σ) where
  result : Outcome × Execution σ
  isReached : result.1 ≠ .running ∧ ∃ n, start.runWithin program host n = result

/-- One turn of the loop: takes a step and tells whether it was the last. -/
def Underway.turn {program : Program} {host : Host σ} {start : Execution σ}
    (run : Underway program host start) :
    Underway program host start ⊕ Option (Finished program host start) :=
  let taken := run.current.step program host
  have hreached : ∃ n, start.runWithin program host n = (taken.outcome, taken.after) :=
    run.isReached.elim fun n hn => ⟨n + 1, runWithin_succ_of_reached hn⟩
  if hrunning : taken.outcome = .running then .inl ⟨taken.after, hrunning ▸ hreached⟩
  else .inr (some ⟨(taken.outcome, taken.after), hrunning, hreached⟩)

/-- Takes turns until one is the last. There is no last turn of an execution that never ends, and no
end of it that could be given instead. -/
def Underway.toEnd {program : Program} {host : Host σ} {start : Execution σ}
    (run : Underway program host start) : Option (Finished program host start) :=
  Id.run (repeatM (fun run => pure run.turn) run)

theorem Underway.toEnd_eq {program : Program} {host : Host σ} {start : Execution σ}
    (run : Underway program host start) :
    run.toEnd = match run.turn with
      | .inl next => next.toEnd
      | .inr ended => ended := by
  rw [toEnd, repeatM_eq_of_monadTail]
  simp only [repeatM.body, pure_bind]
  cases run.turn with
  | inl next => rfl
  | inr ended => rfl

/-- Takes steps until one ends the execution. An execution that never ends has no result. -/
def run? (program : Program) (host : Host σ) (execution : Execution σ) :
    Option (Outcome × Execution σ) :=
  let start : Underway program host execution := ⟨execution, 0, rfl⟩
  start.toEnd.map Finished.result

/-- Runs to the end. Nothing is known of an execution that never ends but that it goes on. -/
def run (program : Program) (host : Host σ) (execution : Execution σ) : Outcome × Execution σ :=
  (execution.run? program host).getD (.running, execution)

end Execution

end EvmObject.Machine
