/-!
# Command lines

The words of a command line are options with a value, written `--name value` or `--name=value`, and
operands. Two dashes alone end the options, a single dash is an operand, and an option is given once
at most. The first word is the command, of which a unique beginning is enough.
-/

namespace EvmObject.Command

/-! ## Words -/

/-- The options that were given and the operands, both in order. -/
structure Words where
  options : List (String × String)
  operands : List String
  deriving DecidableEq, Repr

namespace Words

/-- No words. -/
def empty : Words := ⟨[], []⟩

/-- Adds an option of one of the given names, if it is not there yet. -/
def addOption? (names : List String) (words : Words) (name value : String) : Option Words :=
  if names.contains name && (words.options.lookup name).isNone then
    some { words with options := words.options ++ [(name, value)] }
  else none

/-- Adds operands. -/
def addOperands (words : Words) (operands : List String) : Words :=
  { words with operands := words.operands ++ operands }

/-- A word that is not an operand: it starts with a dash and is more than that. -/
def isFlag (word : String) : Bool := word.startsWith "-" && word != "-"

/-- The name and the value of a word such as `--name=value`, without the dashes. -/
def splitOption (word : String) : String × Option String :=
  let body := (word.toList).drop 2
  let name := body.takeWhile (· != '=')
  match body.dropWhile (· != '=') with
  | [] => (String.ofList name, none)
  | _ :: value => (String.ofList name, some (String.ofList value))

/-- Reads words that may hold options of the given names. -/
def read? (names : List String) : List String → Words → Option Words
  | [], words => some words
  | word :: rest, words =>
    if word = "--" then some (words.addOperands rest)
    else if word.startsWith "--" then
      match splitOption word, rest with
      | (name, some value), rest => (words.addOption? names name value).bind (read? names rest)
      | (name, none), value :: rest =>
        if isFlag value then none
        else (words.addOption? names name value).bind (read? names rest)
      | (_, none), [] => none
    else if isFlag word then none
    else read? names rest (words.addOperands [word])

/-- The value of an option by a reader of values: none if it is absent, and a failure if it cannot
be read. -/
def value? {α : Type} (words : Words) (name : String) (read : String → Option α) :
    Option (Option α) :=
  match words.options.lookup name with
  | none => some none
  | some value => (read value).map some

end Words

/-! ## Numbers -/

/-- The number that decimal digits write, if there are any. -/
def digits? (text : List Char) : Option Nat :=
  if !text.isEmpty && text.all Char.isDigit then
    some (text.foldl (fun value c => value * 10 + (c.toNat - 0x30)) 0)
  else none

/-- A natural number below `2 ^ 64`, perhaps behind a plus. -/
def natural? (text : String) : Option Nat := do
  let value ← match text.toList with
    | '+' :: rest => digits? rest
    | digits => digits? digits
  if value < UInt64.size then return value else failure

/-- A byte, perhaps behind a plus; zero may stand behind a minus. -/
def byte? (text : String) : Option UInt8 := do
  let value ← match text.toList with
    | '+' :: rest => digits? rest
    | '-' :: rest => (digits? rest).filter (· = 0)
    | digits => digits? digits
  if value < 256 then return UInt8.ofNat value else failure

/-! ## Commands -/

/-- What the program can be asked to do. -/
inductive Request where
  /-- Validate a container, with a bound on its size and a version if given. -/
  | validate (input : String) (maxSize : Option Nat) (version : Option UInt8)
  /-- List a container or a code section. -/
  | print (input : String)
  /-- Validate a container and run it for at most so many steps. -/
  | run (input : String) (maxSteps : Nat)
  /-- Run the suites at some paths. -/
  | suite (paths : List String)
  deriving DecidableEq, Repr

namespace Request

/-- The names of the commands; the last shows how to use the others. -/
def names : List String := ["validate", "print", "run", "suite", "help"]

/-- The command that a word means: one that it is a unique beginning of, or its own name. -/
def name? (word : String) : Option String :=
  match names.filter (·.startsWith word) with
  | [name] => some name
  | _ => names.find? (· == word)

/-- Steps that a run takes if no other number is given. -/
def defaultSteps : Nat := 1000000

/-- The only operand. -/
def operand? (words : Words) : Option String :=
  match words.operands with
  | [operand] => some operand
  | _ => none

/-- Reads the words behind the name of a command. -/
def ofWords? (name : String) (words : List String) : Option Request :=
  match name with
  | "validate" => do
    let words ← Words.read? ["max-size", "version"] words .empty
    let input ← operand? words
    return .validate input (← words.value? "max-size" natural?) (← words.value? "version" byte?)
  | "print" => do
    let words ← Words.read? [] words .empty
    return .print (← operand? words)
  | "run" => do
    let words ← Words.read? ["max-steps"] words .empty
    let input ← operand? words
    return .run input ((← words.value? "max-steps" natural?).getD defaultSteps)
  | "suite" => do
    let words ← Words.read? [] words .empty
    guard (!words.operands.isEmpty && words.operands.all (!·.isEmpty))
    return .suite words.operands
  | _ => none

/-- Reads a command line; `none` asks to show how to use it. -/
def read? : List String → Option Request
  | [] => none
  | word :: rest => do ofWords? (← name? word) rest

/-- The paths that a command reads. -/
def paths : Request → List String
  | suite paths => paths
  | _ => []

end Request

end EvmObject.Command
