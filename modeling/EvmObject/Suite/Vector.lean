import EvmObject.Bytes.Hex
import EvmObject.Json.Value
import EvmObject.Suite.Keyed

/-!
# Suites of validation vectors

A suite is a JSON object of named groups, each with an object of named vectors. A vector is a byte
string, whether it is a valid container and, if one likes, the name of the error that it is refused
with. Groups and vectors may be written as objects, without other fields and without repetition, or
as arrays of their fields in order. Of two entries with the same name the later one counts.
-/

namespace EvmObject.Suite

/-- A byte string and what validation should say about it. -/
structure Vector where
  code : Bytes
  /-- The container is valid. -/
  isValid : Bool
  /-- The name of the error, if the vector asks for one. -/
  exception? : Option String
  deriving DecidableEq, Repr

/-- A named group of named vectors. -/
abbrev Group := Keyed Vector

namespace Vector

/-- A byte: a natural number below 256. -/
def byteOfJson? : Json → Option UInt8
  | .number (.natural n) => if n < 256 then some (UInt8.ofNat n) else none
  | _ => none

/-- The bytes of a vector: a text of hexadecimal digits or an array of bytes. -/
def codeOfJson? : Json → Option Bytes
  | .string text => (Hex.decode text.toList).toOption
  | .array items => items.mapM byteOfJson?
  | _ => none

/-- The validity of a vector. -/
def validityOfJson? : Json → Option Bool
  | .bool value => some value
  | _ => none

/-- The error name of a vector; null stands for none. -/
def exceptionOfJson? : Json → Option (Option String)
  | .null => some none
  | .string name => some (some name)
  | _ => none

/-- The vector with the given parts. -/
def ofParts? (code validity : Json) (exception : Json) : Option Vector := do
  return ⟨← codeOfJson? code, ← validityOfJson? validity, ← exceptionOfJson? exception⟩

/-- Reads a vector. The error name may be absent. -/
def ofJson? : Json → Option Vector
  | .object fields => do
    guard (Json.hasOnly ["code", "result", "exception"] fields)
    ofParts? (← Json.field? fields "code") (← Json.field? fields "result")
      ((Json.field? fields "exception").getD .null)
  | .array [code, validity] => ofParts? code validity .null
  | .array [code, validity, exception] => ofParts? code validity exception
  | _ => none

end Vector

/-- Reads named values, each by the same reader. -/
def entriesOfJson? {α : Type} (read : Json → Option α) : Json → Option (Keyed α)
  | .object fields => do
    let entries ← fields.mapM fun (name, value) => do return (name, ← read value)
    return Keyed.ofEntries entries
  | _ => none

namespace Group

/-- Reads a group. Its description is ignored, and both fields may be absent. -/
def ofJson? : Json → Option Group
  | .object fields => do
    guard (Json.hasOnly ["_info", "vectors"] fields)
    match Json.field? fields "vectors" with
    | none => return .empty
    | some vectors => entriesOfJson? Vector.ofJson? vectors
  | .array [] => some .empty
  | .array [_] => some .empty
  | .array [_, vectors] => entriesOfJson? Vector.ofJson? vectors
  | _ => none

end Group

end Suite

/-- Named groups of named vectors. -/
abbrev Suite := Suite.Keyed Suite.Group

/-- Reads a suite. -/
def Suite.read (text : String) : Option Suite := do
  entriesOfJson? Group.ofJson? (← Json.read text)

end EvmObject
