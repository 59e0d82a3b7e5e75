import EvmObject.Bytes.Hex
import EvmObject.Command.Arguments
import EvmObject.Container.Listing
import EvmObject.FileTree
import EvmObject.Machine.Run
import EvmObject.Machine.StackHost
import EvmObject.Suite.Summary

/-!
# What commands answer

Each command prints something, leaves records, and may end with an error. What was printed before an
error stays. Files are seen through a function from paths to trees, so an answer depends on nothing
else.
-/

namespace EvmObject.Command

/-! ## Errors -/

/-- Why a command ends with an error. -/
inductive Error where
  /-- The input is not hexadecimal. -/
  | hex (error : Hex.Error)
  /-- The input is not a valid container. -/
  | container (error : Validation.Error)
  /-- The execution was aborted. -/
  | execution (fault : Machine.Fault)
  /-- The execution did not end in so many steps. -/
  | stepLimit (steps : Nat)
  /-- Some vectors failed. -/
  | suite (failed total : Nat)
  /-- There is nothing at a path. -/
  | missingPath
  /-- A file cannot be read. -/
  | unreadable
  /-- A file is no suite. -/
  | malformed (path : String)
  /-- An assumption of the program does not hold. -/
  | crashed
  deriving DecidableEq, Repr

namespace Error

/-- The kind of an error. -/
def name : Error → String
  | hex _ => "Hex"
  | container _ => "Eof"
  | execution _ => "Execution"
  | stepLimit _ => "StepLimit"
  | suite .. => "Suite"
  | missingPath => "Custom"
  | unreadable => "Io"
  | malformed _ => "Json"
  | crashed => "Panic"

/-- The text of an error, as far as this program words it. -/
def message? : Error → Option String
  | hex error => some s!"invalid hex input: {error.message}"
  | container error => some error.message
  | execution fault => some s!"execution aborted: {fault.message}"
  | stepLimit steps => some s!"execution did not halt after {steps} steps"
  | suite failed total => some s!"{failed}/{total} vectors failed"
  | missingPath => some "The specified path does not exist"
  | unreadable => none
  | malformed _ => none
  | crashed => none

/-- The file that an error is about. -/
def path? : Error → Option String
  | malformed path => some path
  | _ => none

end Error

/-! ## Answers -/

/-- What a command printed, the records it left, and the error it ended with, if any. -/
structure Answer where
  output : String
  records : Array Log.Record
  error? : Option Error
  deriving DecidableEq, Repr

namespace Answer

/-- An error before anything was printed. -/
def failed (error : Error) (records : Array Log.Record) : Answer := ⟨"", records, some error⟩

/-- A text and no error. -/
def printed (output : String) : Answer := ⟨output, #[], none⟩

end Answer

/-- Reads the input of a command. -/
def readInput (input : String) : Except Error Bytes :=
  (Hex.read input.toList).mapError .hex

/-! ## Commands on a container -/

/-- Validates and says what the container holds. -/
def validate (config : Validation.Config) (input : String) : Answer :=
  match readInput input with
  | .error error => .failed error #[]
  | .ok raw =>
    match Validation.validate config raw with
    | .error .crashed => .failed .crashed #[]
    | .error (.refused cause) => .failed (.container cause.error) cause.records.toArray
    | .ok valid =>
      .printed <| s!"valid: version {valid.container.header.version}, " ++
        s!"{valid.codeCount} code section(s), " ++
        s!"{valid.container.body.data.length} byte(s) of data\n"

/-- Lists bytes: those that start like a container as one, all others as a code section. -/
def listing (raw : Bytes) : Except Error String :=
  if Container.isFormatted raw then
    match Container.decode raw with
    | .error .crashed => .error .crashed
    | .error (.refused error) => .error (.container (.container error))
    | .ok container => .ok container.listing
  else .ok (Code.listing raw)

/-- Lists the input. -/
def print (input : String) : Answer :=
  match readInput input >>= listing with
  | .error error => .failed error #[]
  | .ok text => .printed text

/-- One line per word of the stack, topmost first, with its depth. -/
def stackLines (stack : Machine.Stack) : String :=
  String.join <| stack.words.toList.reverse.zipIdx.map fun (word, depth) =>
    let label := Text.padLeft 4 ' ' (toString depth)
    s!"{label}: {Machine.Word.hex word}\n"

/-- The error that an outcome means for a run of so many steps. -/
def errorOf? (steps : Nat) : Machine.Outcome → Option Error
  | .halted _ => none
  | .aborted fault => some (.execution fault)
  | .running => some (.stepLimit steps)

/-- Validates and runs. -/
def run (input : String) (steps : Nat) : Answer :=
  match readInput input with
  | .error error => .failed error #[]
  | .ok raw =>
    match Validation.validate .default raw with
    | .error .crashed => .failed .crashed #[]
    | .error (.refused cause) => .failed (.container cause.error) cause.records.toArray
    | .ok valid =>
      let program := Machine.Program.ofValidated valid
      let start := Machine.Execution.initial []
      let (outcome, after) := start.runWithin program Machine.stackHost steps
      let records := start.records program Machine.stackHost steps
      ⟨s!"{outcome.describe}\n{stackLines after.stack}",
        records.push (.debug s!"executed {after.host.length} host instruction(s)"),
        errorOf? steps outcome⟩

/-! ## Suites -/

/-- What running suites has come to. -/
structure Progress where
  summary : Suite.Summary
  output : String
  records : Array Log.Record

namespace Progress

/-- Nothing was run. -/
def start : Progress := ⟨.empty, "", #[]⟩

/-- Ends with an error. -/
def fail (progress : Progress) (error : Error) : Answer :=
  ⟨progress.output, progress.records, some error⟩

/-- Adds what the vectors of one file came to. -/
def add (progress : Progress) (report : Suite.Report) : Progress :=
  ⟨progress.summary.merge report.summary, progress.output ++ report.output,
    progress.records ++ report.records⟩

/-- Prints the summary; vectors that failed are an error. -/
def finish (progress : Progress) : Answer :=
  let summary := progress.summary
  ⟨progress.output ++ summary.text, progress.records,
    if summary.passed = summary.total then none
    else some (.suite (summary.total - summary.passed) summary.total)⟩

/-- Runs one file. -/
def addFile (progress : Progress) (file : String × FileTree) : Except Answer Progress :=
  match file.2.text? with
  | none => .error (progress.fail .unreadable)
  | some text =>
    match Suite.read text with
    | none => .error (progress.fail (.malformed file.1))
    | some suite => .ok (progress.add (Suite.run suite))

/-- Runs everything at and below a path that is named like a JSON file. -/
def addPath (walker : FileTree.Walker) (look : String → Option FileTree) (progress : Progress)
    (path : String) : Except Answer Progress :=
  match look path with
  | none => .error (progress.fail .missingPath)
  | some tree => (FileTree.jsonEntries (walker path tree)).foldlM addFile progress

end Progress

/-- Runs the suites that a walker finds at paths, up to the first error. -/
def suiteWith (walker : FileTree.Walker) (look : String → Option FileTree) (paths : List String) :
    Answer :=
  match paths.foldlM (Progress.addPath walker look) .start with
  | .error answer => answer
  | .ok progress => progress.finish

/-- Runs the suites at paths, a folder's entries behind it. -/
def suite (look : String → Option FileTree) (paths : List String) : Answer :=
  suiteWith FileTree.walk look paths

/-- Answers a request. -/
def Request.answer (look : String → Option FileTree) : Request → Answer
  | .validate input maxSize version => Command.validate ⟨maxSize, version⟩ input
  | .print input => Command.print input
  | .run input steps => Command.run input steps
  | .suite paths => Command.suite look paths

end EvmObject.Command
