/-!
# Refusals and crashes

A check refuses its input with a cause, and that is an answer. It crashes when one of its own
assumptions does not hold, such as a slice with reversed bounds, and then there is no answer. The
two are kept apart so that a statement can say that crashes do not happen.
-/

namespace EvmObject

/-- How a computation that should give an answer fails to give a result. -/
inductive Failure (ε : Type) where
  /-- The input is refused for this cause. -/
  | refused (cause : ε)
  /-- An assumption of the computation does not hold. -/
  | crashed
  deriving DecidableEq, Repr

namespace Failure

/-- Changes the cause of a refusal and keeps a crash. -/
def map {ε φ : Type} (f : ε → φ) : Failure ε → Failure φ
  | refused cause => refused (f cause)
  | crashed => crashed

end Failure

/-- A computation that may refuse or crash. -/
abbrev Attempt (ε : Type) := Except (Failure ε)

namespace Attempt

/-- A computation that may only refuse. -/
def ofExcept {ε α : Type} (result : Except ε α) : Attempt ε α :=
  result.mapError .refused

/-- Changes the cause of a refusal. -/
def mapCause {ε φ α : Type} (f : ε → φ) (attempt : Attempt ε α) : Attempt φ α :=
  attempt.mapError (Failure.map f)

end Attempt

end EvmObject
