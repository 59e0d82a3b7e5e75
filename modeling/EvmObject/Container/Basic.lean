import EvmObject.Container.Body
import EvmObject.Opcode.Basic

/-!
# Containers

A `Container` is a header, a body and the bytes that they stand for. It comes from decoding bytes,
which keeps these, or from a body, which writes them.
-/

namespace EvmObject

/-- A container of code and data. -/
structure Container where
  header : Container.Header
  body : Container.Body
  /-- The bytes that the container was read from or is written as. -/
  raw : Bytes
  deriving DecidableEq, Repr

namespace Container

/-- The version of the default container. -/
def defaultVersion : UInt8 := 1

/-- Size of the header and the body. -/
def size (container : Container) : Nat :=
  container.header.size + container.header.bodySize

/-- The bytes of the header and the body. -/
def encode (container : Container) : Bytes :=
  container.header.encode ++ container.body.encode

/-- The container that a body makes up. -/
def ofBody (body : Body) : Container :=
  ⟨body.header, body, body.header.encode ++ body.encode⟩

/-- Reads a container. The code itself is not looked at. -/
def decode (raw : Bytes) : Attempt Error Container := do
  let (header, _) ← Attempt.ofExcept (Header.decode raw)
  let body ← Body.decode raw header
  return ⟨header, body, raw⟩

/-- The signature of a code section. -/
def signature? (container : Container) (index : Nat) : Option Signature :=
  container.body.signatures[index]?

/-- At most `size` bytes of the data section from `offset` on. -/
def dataWindow (container : Container) (offset size : Nat) : Bytes :=
  Bytes.window container.body.data offset size

/-- The body of the default container: one code section that stops at once. -/
def defaultBody : Body where
  version := defaultVersion
  signatures := #[.entry]
  sectionEnds := #[1]
  code := [Opcode.stop]
  data := []
  isTypesImplicit := true

/-- The smallest container: one code section that stops at once. -/
instance : Inhabited Container := ⟨ofBody defaultBody⟩

end Container

end EvmObject
