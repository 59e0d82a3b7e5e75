import EvmObject.Code.Fault
import EvmObject.Container.Error

/-!
# Why validation refuses

A `Rejection` says which stage refused and on what grounds. From it follow the error, with its name,
text and class, and the records that the refusal leaves: one about its ground, and one more about
the section if a single code section is to blame.
-/

namespace EvmObject.Validation

/-- The error of a refusal: the container could not be read, or its code is not valid. -/
inductive Error where
  | container (error : Container.Error)
  | code (error : Code.Error)
  deriving DecidableEq, Repr

namespace Error

/-- The name under which suites expect an error. -/
def name : Error → String
  | container error => error.name
  | code error => error.name

/-- The text of an error. -/
def message : Error → String
  | container error => s!"Bytecode decode error: {error.message}"
  | code error => s!"Bytecode validation error: {error.message}"

/-- The header could not be read. -/
def isHeader : Error → Bool
  | container error => error.isHeader
  | code _ => false

/-- The layout of the sections is wrong. -/
def isStructural : Error → Bool
  | container error => error.isStructural
  | code _ => false

/-- A code section is not valid. -/
def isCode : Error → Bool
  | container _ => false
  | code _ => true

end Error

/-- Why the code sections of a container are refused. -/
inductive CodeRejection where
  /-- A section is wrong on its own. -/
  | section (index : Nat) (fault : Code.Fault)
  /-- The sections do not fit together. -/
  | reference (fault : Code.ReferenceFault)
  deriving DecidableEq

namespace CodeRejection

/-- The error of a refusal. -/
def error : CodeRejection → Code.Error
  | .section _ fault => fault.error
  | .reference fault => fault.error

/-- The records that a refusal leaves. -/
def records : CodeRejection → List Log.Record
  | .section index fault =>
    [fault.record, .debug s!"code section {index} is invalid: {fault.error.message}"]
  | .reference fault => [fault.record]

end CodeRejection

/-- Why a byte string is refused, by the stage that refused it. -/
inductive Rejection where
  /-- The container is larger than the limit. -/
  | tooLarge (size : Nat)
  /-- The preamble cannot be read. -/
  | header (error : Container.Error)
  /-- The version is not accepted. -/
  | version (version : UInt8)
  /-- The sections are declared in a wrong order or number. -/
  | layout (error : Container.Error)
  /-- The body does not fit the header. -/
  | body (error : Container.Error)
  /-- The code is not valid. -/
  | code (cause : CodeRejection)
  deriving DecidableEq

namespace Rejection

/-- The error of a refusal. -/
def error : Rejection → Error
  | tooLarge _ => .container .containerTooLarge
  | header cause => .container cause
  | version _ => .container .invalidVersion
  | layout cause => .container cause
  | body cause => .container cause
  | code cause => .code cause.error

/-- The records that a refusal leaves. -/
def records : Rejection → List Log.Record
  | tooLarge size => [.debug s!"container of {size} bytes is over the size limit"]
  | header cause => [.debug s!"invalid header: {cause.message}"]
  | version refused => [.debug s!"version {refused} is not accepted"]
  | layout cause => [.debug s!"invalid section layout: {cause.message}"]
  | body cause => [.debug s!"invalid body: {cause.message}"]
  | code cause => cause.records

end Rejection

end EvmObject.Validation
