/-!
# Why a container cannot be read

The errors fall into two classes: those of the header, raised while the magic, the version and the
section descriptors are read or because the whole is too large, and those of the structure, raised
when the declared sections are out of order, miscounted, or do not fit the bytes that follow.
-/

namespace EvmObject.Container

/-- Why a byte string is not a container. -/
inductive Error where
  /-- The first two bytes are not the magic. -/
  | invalidMagic
  /-- Nothing follows the magic. -/
  | missingVersion
  /-- The version is zero or not the accepted one. -/
  | invalidVersion
  /-- The input ends where a section kind is due. -/
  | missingTerminator
  /-- The input ends inside a section size. -/
  | shortInputForSize
  /-- A section is declared with size zero. -/
  | zeroSectionSize
  /-- The container is larger than the limit. -/
  | containerTooLarge
  /-- A section kind is unknown. -/
  | unknownSectionKind
  /-- The data section stands before the first code section. -/
  | dataBeforeCode
  /-- The types section stands behind a code or data section. -/
  | codeOrDataBeforeType
  /-- There are two types sections. -/
  | multipleTypeSections
  /-- There are two data sections. -/
  | multipleDataSections
  /-- A code section stands behind the data section. -/
  | codeAfterData
  /-- There is no code section. -/
  | noCodeSection
  /-- There are more code sections than the limit. -/
  | tooManyCodeSections
  /-- The types section does not have two bytes per code section. -/
  | invalidTypeSectionSize
  /-- There are several code sections and no types section. -/
  | missingTypeSection
  /-- The body is shorter than declared. -/
  | missingBody
  /-- The body is longer than declared. -/
  | danglingData
  /-- The first section takes or leaves words. -/
  | invalidFirstTypeEntry
  deriving DecidableEq, Repr

namespace Error

/-- The name under which suites expect an error. -/
def name : Error → String
  | invalidMagic => "InvalidMagic"
  | missingVersion => "MissingVersion"
  | invalidVersion => "InvalidVersion"
  | missingTerminator => "MissingTerminator"
  | shortInputForSize => "ShortInputForSize"
  | zeroSectionSize => "ZeroSectionSize"
  | containerTooLarge => "ContainerTooLarge"
  | unknownSectionKind => "UnknownSectionKind"
  | dataBeforeCode => "DataBeforeCode"
  | codeOrDataBeforeType => "CodeOrDataBeforeType"
  | multipleTypeSections => "MultipleTypeSections"
  | multipleDataSections => "MultipleDataSections"
  | codeAfterData => "CodeAfterData"
  | noCodeSection => "NoCodeSection"
  | tooManyCodeSections => "TooManyCodeSections"
  | invalidTypeSectionSize => "InvalidTypeSectionSize"
  | missingTypeSection => "MissingTypeSection"
  | missingBody => "MissingBody"
  | danglingData => "DanglingData"
  | invalidFirstTypeEntry => "InvalidFirstTypeEntry"

/-- The text of an error. -/
def message : Error → String
  | invalidMagic => "Invalid EOF magic number"
  | missingVersion => "Missing EOF version"
  | invalidVersion => "Invalid EOF version"
  | missingTerminator => "Missing header terminator"
  | shortInputForSize => "Short input for section size"
  | zeroSectionSize => "Section size cant be zero"
  | containerTooLarge => "Container size is over the limit"
  | unknownSectionKind => "Unknown section kind"
  | dataBeforeCode => "Data section before code section"
  | codeOrDataBeforeType => "Code or data section before types section"
  | multipleTypeSections => "Multiple types sections"
  | multipleDataSections => "Multiple data sections"
  | codeAfterData => "Code section after data section"
  | noCodeSection => "No code section"
  | tooManyCodeSections => "Too many code sections"
  | invalidTypeSectionSize => "Invalid types section size"
  | missingTypeSection => "Missing types section"
  | missingBody => "Short body while processing EOF"
  | danglingData => "Body size is more than specified in the header"
  | invalidFirstTypeEntry => "First types entry must be (0, 0)"

/-- The error was raised before the structure was looked at. -/
def isHeader : Error → Bool
  | invalidMagic | missingVersion | invalidVersion | missingTerminator | shortInputForSize
  | zeroSectionSize | containerTooLarge => true
  | _ => false

/-- The header could be read but the structure is wrong. -/
def isStructural (error : Error) : Bool := !error.isHeader

end Error

end EvmObject.Container
