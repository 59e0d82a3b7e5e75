import EvmObject.Container.Descriptor
import EvmObject.Limits

/-!
# Headers

A `Header` is a preamble whose descriptors follow the layout of a container: at most one types
section, then the code sections, then at most one data section. An absent section has size zero,
which cannot be declared. Descriptors are taken one by one, so the first that breaks the order
decides the error; the counts are checked when all are taken.
-/

namespace EvmObject.Container

/-- The sizes that a container declares. -/
structure Header where
  version : UInt8
  /-- Size of the types section, zero if it is absent. -/
  typesSize : UInt16
  /-- Sizes of the code sections, in order. -/
  codeSizes : Array UInt16
  /-- Size of the data section, zero if it is absent. -/
  dataSize : UInt16
  /-- Size of all code sections together. -/
  codeTotal : Nat
  deriving DecidableEq, Repr

namespace Header

/-! ## Sizes -/

/-- The header declares a types section. -/
def hasTypes (header : Header) : Bool := header.typesSize != 0

/-- The header declares a data section. -/
def hasData (header : Header) : Bool := header.dataSize != 0

/-- Number of descriptors: one per section. -/
def sectionCount (header : Header) : Nat :=
  header.codeSizes.size + header.hasTypes.toNat + header.hasData.toNat

/-- Size of the header: magic and version, three bytes per section, and the terminator. -/
def size (header : Header) : Nat := 3 + 3 * header.sectionCount + 1

/-- Size of what follows the header. -/
def bodySize (header : Header) : Nat :=
  header.typesSize.toNat + header.codeTotal + header.dataSize.toNat

/-- Number of signatures that fit in the types section. -/
def typesCount (header : Header) : Nat := header.typesSize.toNat / 2

/-! ## Layout -/

/-- The header before any descriptor is taken. -/
def bare (version : UInt8) : Header := ⟨version, 0, #[], 0, 0⟩

/-- Takes the next descriptor if the order allows its kind. -/
def take (header : Header) (descriptor : Descriptor) : Except Error Header :=
  match SectionKind.ofByte? descriptor.kind with
  | none => .error .unknownSectionKind
  | some .types =>
    if !header.codeSizes.isEmpty || header.hasData then .error .codeOrDataBeforeType
    else if header.hasTypes then .error .multipleTypeSections
    else .ok { header with typesSize := descriptor.size }
  | some .code =>
    if header.hasData then .error .codeAfterData
    else .ok { header with
      codeSizes := header.codeSizes.push descriptor.size
      codeTotal := header.codeTotal + descriptor.size.toNat }
  | some .data =>
    if header.codeSizes.isEmpty then .error .dataBeforeCode
    else if header.hasData then .error .multipleDataSections
    else .ok { header with dataSize := descriptor.size }

/-- Checks how many sections there are and that the types section has two bytes for each code
section; a single code section can do without. -/
def checkCounts (header : Header) : Except Error Unit :=
  let count := header.codeSizes.size
  if count = 0 then .error .noCodeSection
  else if Limits.codeSections < count then .error .tooManyCodeSections
  else if header.hasTypes then
    if header.typesSize.toNat = 2 * count then .ok () else .error .invalidTypeSectionSize
  else if count = 1 then .ok () else .error .missingTypeSection

/-- The header that descriptors make up. -/
def ofDescriptors (version : UInt8) (descriptors : List Descriptor) : Except Error Header := do
  let header ← descriptors.foldlM take (bare version)
  header.checkCounts
  return header

/-! ## Reading and writing -/

/-- The descriptors of a header: types, code, data, and no absent section. -/
def descriptors (header : Header) : List Descriptor :=
  (if header.hasTypes then [⟨SectionKind.types.byte, header.typesSize⟩] else []) ++
    header.codeSizes.toList.map (fun size => ⟨SectionKind.code.byte, size⟩) ++
    (if header.hasData then [⟨SectionKind.data.byte, header.dataSize⟩] else [])

/-- The bytes of a header. -/
def encode (header : Header) : Bytes :=
  magic ++ header.version :: header.descriptors.flatMap Descriptor.encode ++ [terminator]

/-- Reads a header and gives its size. -/
def decode (raw : Bytes) : Except Error (Header × Nat) := do
  let preamble ← Preamble.read raw
  let header ← ofDescriptors preamble.version preamble.descriptors
  return (header, preamble.size)

end Header

end EvmObject.Container
