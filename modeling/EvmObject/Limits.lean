/-!
# Protocol limits

The bounds that validation and execution enforce. They are gathered here so that a statement about
a bound and the code that checks it name the same number.
-/

namespace EvmObject.Limits

/-- Words that fit on the data stack. -/
def stack : Nat := 1024

/-- Frames that fit on the return stack; the frame of the entry function counts as one. -/
def returnStack : Nat := 1024

/-- Code sections that fit in one container. -/
def codeSections : Nat := 1024

/-- Bytes that fit in a deployed contract. -/
def codeSize : Nat := 0x6000

/-- Bytes that fit in creation code: twice the size of a deployed contract. -/
def initcodeSize : Nat := 2 * codeSize

/-- Bytes that fit in one word of the data stack. -/
def wordBytes : Nat := 32

/-- An opcode's name is shorter than this many bytes. -/
def opcodeName : Nat := 256

end EvmObject.Limits
