import EvmObject.Bytes.BigEndian
import EvmObject.Container.Error

/-!
# Signatures

The types section holds two bytes per code section: the words that the function takes from the stack
and the words that it leaves.
-/

namespace EvmObject.Container

/-- How many words a function takes and leaves. -/
structure Signature where
  inputs : UInt8
  outputs : UInt8
  deriving DecidableEq, Repr

namespace Signature

/-- The signature of the function that an execution starts with. -/
def entry : Signature := ⟨0, 0⟩

/-- Tells whether an execution may start with a function of this signature. -/
def isEntry (signature : Signature) : Bool := signature == entry

/-- Words left minus words taken. -/
def stackChange (signature : Signature) : Int :=
  (signature.outputs.toNat : Int) - (signature.inputs.toNat : Int)

/-- The two bytes of a signature. -/
def encode (signature : Signature) : Bytes := [signature.inputs, signature.outputs]

/-- Reads one signature and gives the bytes behind it. -/
def read : Bytes → Except Error (Signature × Bytes)
  | inputs :: outputs :: rest => .ok (⟨inputs, outputs⟩, rest)
  | _ => .error .missingBody

/-- Adds the signatures that can be read, each with the bytes behind it, to those read before, which
stand last first. -/
def readOnto : Bytes → List (Signature × Bytes) → List (Signature × Bytes)
  | inputs :: outputs :: rest, done => readOnto rest ((⟨inputs, outputs⟩, rest) :: done)
  | _, done => done.reverse

/-- All signatures that can be read, each with the bytes behind it. -/
def readAll (bytes : Bytes) : List (Signature × Bytes) := readOnto bytes []

/-- The signatures of a types section; a last odd byte is none. -/
def ofBytes (bytes : Bytes) : List Signature := (readAll bytes).map (·.1)

theorem readOnto_eq (bytes : Bytes) (done : List (Signature × Bytes)) :
    readOnto bytes done = done.reverse ++ readAll bytes := by
  match bytes with
  | [] => simp [readAll, readOnto]
  | [_] => simp [readAll, readOnto]
  | inputs :: outputs :: rest =>
    have apart := readOnto_eq rest
    rw [readAll, readOnto, readOnto, apart, apart]
    simp

theorem readAll_cons (inputs outputs : UInt8) (rest : Bytes) :
    readAll (inputs :: outputs :: rest) = (⟨inputs, outputs⟩, rest) :: readAll rest := by
  rw [readAll, readOnto, readOnto_eq]
  simp

@[simp] theorem ofBytes_nil : ofBytes [] = [] := rfl

@[simp] theorem ofBytes_cons (inputs outputs : UInt8) (rest : Bytes) :
    ofBytes (inputs :: outputs :: rest) = ⟨inputs, outputs⟩ :: ofBytes rest := by
  simp [ofBytes, readAll_cons]

/-- Written signatures read back. -/
theorem ofBytes_encode (signatures : List Signature) :
    ofBytes (signatures.flatMap encode) = signatures := by
  induction signatures with
  | nil => rfl
  | cons signature rest ih => simp [encode, ih]

end Signature

end EvmObject.Container
