import EvmObject.Code.References
import EvmObject.Container.Basic
import EvmObject.Validation.Config
import EvmObject.Validation.Rejection

/-!
# Validation

A container is valid if it can be read and its code is valid: every section is accepted by its own
analysis and the references between instructions and sections are sound. The first stage that
refuses decides the answer.
-/

namespace EvmObject.Validation

/-! ## Code -/

/-- Analyses one code section of a body. -/
def analyzeSection (section? : Option Bytes) (index : Nat) :
    Attempt CodeRejection Code.Analysis :=
  match section? with
  | none => .error .crashed
  | some code => (Code.analyze code).mapError fun fault => .refused (.section index fault)

/-- Analyses every code section of a body, in order. -/
def analyzeSections (body : Container.Body) : Attempt CodeRejection (List Code.Analysis) :=
  body.sections.zipIdx.mapM fun (code, index) => analyzeSection code index

/-- Analyses every code section, then checks the references between them. -/
def validateCode (body : Container.Body) : Attempt CodeRejection (List Code.Analysis) := do
  let analyses ← analyzeSections body
  (Code.checkReferences analyses).mapError fun fault => .refused (.reference fault)
  return analyses

/-! ## Containers -/

/-- A container that passed every stage, with the analysis of each code section. -/
structure Validated where
  container : Container
  analyses : List Code.Analysis
  deriving DecidableEq, Repr

/-- Reads a container and validates it. That the preamble is as long as the header it leads to is
taken for granted here; it crashes otherwise. -/
def validate (config : Config) (raw : Bytes) : Attempt Rejection Validated := do
  let size := raw.length
  if !config.allowsSize size then throw (.refused (.tooLarge size))
  let preamble ← (Container.Preamble.read raw).mapError (.refused ∘ .header)
  if !config.allowsVersion preamble.version then throw (.refused (.version preamble.version))
  let header ← (Container.Header.ofDescriptors preamble.version preamble.descriptors).mapError
    (.refused ∘ .layout)
  if preamble.size ≠ header.size then throw .crashed
  let body ← (Container.Body.decode raw header).mapCause .body
  let analyses ← (validateCode body).mapCause .code
  return ⟨⟨header, body, raw⟩, analyses⟩

/-- The records that an attempt leaves: those of its refusal, and none if there is no refusal. -/
def recordsOf {ε α : Type} (records : ε → List Log.Record) (attempt : Attempt ε α) :
    List Log.Record :=
  match attempt with
  | .error (.refused cause) => records cause
  | _ => []

namespace Validated

/-- Number of code sections. -/
def codeCount (valid : Validated) : Nat := valid.analyses.length

/-- The analysis of a code section. -/
def analysis? (valid : Validated) (index : Nat) : Option Code.Analysis := valid.analyses[index]?

/-- The jump table of a code section. -/
def jumpTable? (valid : Validated) (index : Nat) : Option Code.JumpTable :=
  (valid.analysis? index).map (·.jumpTable)

end Validated

end EvmObject.Validation
