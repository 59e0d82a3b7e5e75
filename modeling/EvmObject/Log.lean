/-!
# Log records

Refusals and faults leave records beside their answer. A record is a level and a text; who asks for
an answer decides whether to look at the records.
-/

namespace EvmObject.Log

/-- How much detail a record belongs to. -/
inductive Level where
  | debug
  | trace
  deriving DecidableEq, Repr

/-- The name of a level in a written record. -/
def Level.name : Level → String
  | .debug => "DEBUG"
  | .trace => "TRACE"

/-- One record. -/
structure Record where
  level : Level
  text : String
  deriving DecidableEq, Repr

namespace Record

/-- A record about a refusal or a fault. -/
def debug (text : String) : Record := ⟨.debug, text⟩

/-- A record about the course of an execution. -/
def trace (text : String) : Record := ⟨.trace, text⟩

/-- The record on one line, its level first. -/
def line (record : Record) : String := s!"{record.level.name}: {record.text}"

end Record

end EvmObject.Log
