import EvmObject.Bytes.BigEndian
import EvmObject.Limits
import EvmObject.Text.Digits

/-!
# Words

The machine computes with words of 256 bits. Arithmetic wraps around and comparisons are unsigned.
-/

namespace EvmObject.Machine

/-- A word of the data stack. -/
abbrev Word := BitVec 256

namespace Word

/-- The word that says whether something holds. -/
def ofBool (b : Bool) : Word := if b then 1 else 0

/-- The word that bytes write, high byte first; `none` if they do not fit. -/
def ofBytes? (bytes : Bytes) : Option Word :=
  if bytes.length ≤ Limits.wordBytes then some (BitVec.ofNat 256 (Bytes.toNat bytes)) else none

/-- Hexadecimal digits behind a marker, without leading zeros. -/
def hex (word : Word) : String := s!"0x{Text.hex word.toNat}"

end Word

end EvmObject.Machine
