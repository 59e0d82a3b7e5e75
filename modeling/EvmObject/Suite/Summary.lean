import EvmObject.Suite.Vector
import EvmObject.Validation.Basic

/-!
# Accounts of a suite

Every vector is validated and either passes or fails. A `Summary` counts the vectors, those that
pass, and those that fail by the name of the error that validation ended with; a vector that was
valid against its expectation fails under a name of its own.
-/

namespace EvmObject.Suite

/-! ## One vector -/

/-- The name under which a vector fails that should have been refused. -/
def falsePositive : String := "FalsePositive"

/-- What became of a vector. -/
structure Verdict where
  /-- The name of the error that validation ended with. -/
  errorName? : Option String
  /-- The vector said so. -/
  passed : Bool
  /-- The records that validation left. -/
  records : List Log.Record
  deriving DecidableEq, Repr

namespace Vector

/-- The vector asks for no error name or for this one; if there is no error, the name that it asks
for does not matter. -/
def allowsName (vector : Vector) (errorName? : Option String) : Bool :=
  match vector.exception?, errorName? with
  | some expected, some name => expected == name
  | _, _ => true

/-- Validates a vector. -/
def judge (vector : Vector) : Verdict :=
  let attempt := Validation.validate .default vector.code
  let records := Validation.recordsOf Validation.Rejection.records attempt
  let errorName? :=
    match attempt with
    | .error (.refused rejection) => some rejection.error.name
    | _ => none
  ⟨errorName?, (attempt.isOk == vector.isValid) && vector.allowsName errorName?, records⟩

end Vector

/-! ## Counting -/

/-- How many vectors there were, how many passed, and how the others failed. -/
structure Summary where
  total : Nat
  passed : Nat
  failures : Keyed Nat
  deriving DecidableEq, Repr

namespace Summary

/-- No vectors. -/
def empty : Summary := ⟨0, 0, .empty⟩

/-- Counts one more vector. -/
def count (summary : Summary) (verdict : Verdict) : Summary :=
  if verdict.passed then
    { summary with total := summary.total + 1, passed := summary.passed + 1 }
  else
    { summary with
      total := summary.total + 1
      failures := summary.failures.count (verdict.errorName?.getD falsePositive) 1 }

/-- The vectors of both. -/
def merge (summary other : Summary) : Summary where
  total := summary.total + other.total
  passed := summary.passed + other.passed
  failures := other.failures.entries.foldl
    (fun failures (name, amount) => failures.count name amount) summary.failures

end Summary

/-! ## Texts -/

/-- A name that may be absent. -/
def describeName : Option String → String
  | none => "None"
  | some name => s!"Some({Text.quoted name})"

/-- The bytes of a vector in hexadecimal. -/
def describeCode (code : Bytes) : String := s!"0x{Hex.encode code}"

/-- All fields of a vector on one line. -/
def Vector.describe (vector : Vector) : String :=
  s!"TestVector \x7b code: {describeCode vector.code}, result: {vector.isValid}, " ++
    s!"exception: {describeName vector.exception?} \x7d"

/-- What is printed of a vector that failed. -/
def failureText (group name : String) (vector : Vector) (verdict : Verdict) : String :=
  s!"\nTest failed: {group} - {name}\n" ++
    s!"expected: {vector.isValid} {describeName vector.exception?}\n" ++
    s!"got: {describeName verdict.errorName?}\n" ++
    s!"bytes: {describeCode vector.code}\n\n"

/-- The record of a vector that failed. -/
def failureRecord (group name : String) (vector : Vector) (verdict : Verdict) : Log.Record :=
  .debug <| s!"{group}/{name}: expected {vector.describe}, " ++
    s!"got {describeName verdict.errorName?}"

/-- The counts of failures, one name a line. -/
def Summary.failureLines (summary : Summary) : String :=
  if summary.failures.entries.isEmpty then "\x7b\x7d"
  else
    let lines := summary.failures.entries.map fun (name, amount) =>
      s!"    {Text.quoted name}: {amount},\n"
    "\x7b\n" ++ String.join lines ++ "\x7d"

/-- What is printed of a summary. -/
def Summary.text (summary : Summary) : String :=
  s!"Passed tests: {summary.passed}/{summary.total}\n" ++
    if summary.passed = summary.total then "" else s!"Types of error: {summary.failureLines}\n"

/-! ## The whole suite -/

/-- What running vectors gives: their summary, what is printed, and the records. -/
structure Report where
  summary : Summary
  output : String
  records : Array Log.Record
  deriving DecidableEq, Repr

namespace Report

/-- No vectors. -/
def empty : Report := ⟨.empty, "", #[]⟩

/-- Runs one more vector. -/
def add (report : Report) (group name : String) (vector : Vector) : Report :=
  let verdict := vector.judge
  let records := report.records ++ verdict.records
  let summary := report.summary.count verdict
  if verdict.passed then ⟨summary, report.output, records⟩
  else
    ⟨summary, report.output ++ failureText group name vector verdict,
      records.push (failureRecord group name vector verdict)⟩

end Report

/-- Runs the vectors of a suite, by the order of the names of groups and vectors. -/
def run (suite : Suite) : Report :=
  suite.entries.foldl (fun report (group, vectors) =>
    vectors.entries.foldl (fun report (name, vector) => report.add group name vector) report) .empty

end EvmObject.Suite
