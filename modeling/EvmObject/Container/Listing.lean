import EvmObject.Code.Listing
import EvmObject.Container.Basic

/-!
# Listing of a container

A line on the header, then each code section with its signature and size, then the data. Sections
are listed up to the first that cannot be read.
-/

namespace EvmObject.Container

/-- The line before the instructions of a code section. -/
def sectionLine (index : Nat) (signature : Signature) (size : Nat) : String :=
  s!"code section {index}: inputs {signature.inputs}, outputs {signature.outputs}, size {size}"

/-- The listing of one code section of a container. -/
def sectionListing (container : Container) (index : Nat) (code : Bytes) : String :=
  let signature := (container.signature? index).getD .entry
  sectionLine index signature code.length ++ "\n" ++ Code.listing code

/-- The listing of a container; every line ends with a line feed. -/
def listing (container : Container) : String :=
  let header := container.header
  let summary := s!"version: {header.version}, code sections: {header.codeSizes.size}, " ++
    s!"data size: {header.dataSize}\n"
  let readable := (container.body.sections.takeWhile Option.isSome).reduceOption
  let code := readable.zipIdx.map fun (code, index) => container.sectionListing index code
  let data := container.body.data
  let dataLine := if data.isEmpty then "" else s!"data: 0x{Hex.encode data}\n"
  summary ++ String.join code ++ dataLine

end EvmObject.Container
