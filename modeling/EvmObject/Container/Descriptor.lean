import EvmObject.Bytes.BigEndian
import EvmObject.Container.Error

/-!
# Section descriptors

A container starts with two magic bytes, a version and a list of section descriptors, each a kind
byte and a size of two bytes, up to a terminator. A `Preamble` is that much of a container, read
without any check of kinds, order or counts. Main statement: `readDescriptors_encode`, written
descriptors read back.
-/

namespace EvmObject.Container

/-- The bytes that every container starts with. -/
def magic : Bytes := [0xEF, 0x00]

/-- The kind byte that ends the list of descriptors. -/
def terminator : UInt8 := 0

/-- Tells whether bytes start like a container; all others are legacy code. -/
def isFormatted (bytes : Bytes) : Bool :=
  magic.isPrefixOf bytes

/-! ## Kinds -/

/-- What a section holds. -/
inductive SectionKind where
  /-- The signatures of the code sections. -/
  | types
  /-- The code of one function. -/
  | code
  /-- Bytes that are never executed. -/
  | data
  deriving DecidableEq, Repr

namespace SectionKind

/-- The kind byte. -/
def byte : SectionKind → UInt8
  | code => 1
  | data => 2
  | types => 3

/-- The kind of a byte; `none` for the terminator and for unknown kinds. -/
def ofByte? (byte : UInt8) : Option SectionKind :=
  if byte = 1 then some code
  else if byte = 2 then some data
  else if byte = 3 then some types
  else none

/-- The name of a kind. -/
def name : SectionKind → String
  | types => "type"
  | code => "code"
  | data => "data"

@[simp] theorem ofByte?_byte (kind : SectionKind) : ofByte? kind.byte = some kind := by
  cases kind <;> rfl

theorem byte_of_ofByte? {byte : UInt8} {kind : SectionKind} (h : ofByte? byte = some kind) :
    kind.byte = byte := by
  unfold ofByte? at h
  split at h
  · next eq => exact Option.some.inj h ▸ eq.symm
  · split at h
    · next eq => exact Option.some.inj h ▸ eq.symm
    · split at h
      · next eq => exact Option.some.inj h ▸ eq.symm
      · cases h

end SectionKind

/-! ## Descriptors -/

/-- A kind byte and a size, as declared. -/
structure Descriptor where
  kind : UInt8
  size : UInt16
  deriving DecidableEq, Repr

/-- The three bytes of a descriptor. -/
def Descriptor.encode (descriptor : Descriptor) : Bytes :=
  descriptor.kind :: Bytes.ofU16 descriptor.size

/-- Reads descriptors up to the terminator and gives the bytes behind it. The descriptors read
before stand last first in `done`. -/
def readDescriptors : Bytes → List Descriptor → Except Error (List Descriptor × Bytes)
  | [], _ => .error .missingTerminator
  | kind :: rest, done =>
    if kind = terminator then .ok (done.reverse, rest)
    else
      match rest with
      | hi :: lo :: rest =>
        let size := UInt16.ofNat (hi.toNat * 256 + lo.toNat)
        if size = 0 then .error .zeroSectionSize else readDescriptors rest (⟨kind, size⟩ :: done)
      | _ => .error .shortInputForSize

/-- Descriptors that name a kind and a size read back, with the bytes behind the terminator. -/
theorem readDescriptors_encode (descriptors done : List Descriptor) (rest : Bytes)
    (proper : ∀ d ∈ descriptors, d.kind ≠ terminator ∧ d.size ≠ 0) :
    readDescriptors (descriptors.flatMap Descriptor.encode ++ terminator :: rest) done =
      .ok (done.reverse ++ descriptors, rest) := by
  induction descriptors generalizing done with
  | nil =>
    unfold readDescriptors
    simp
  | cons d tail ih =>
    obtain ⟨kind, size⟩ := proper d List.mem_cons_self
    have back := Bytes.readU16?_ofU16 d.size []
    simp only [Bytes.ofU16, List.append_nil, Bytes.readU16?, Option.some.injEq] at back
    have next := ih (d :: done) fun x mem => proper x (List.mem_cons_of_mem _ mem)
    rw [List.flatMap_cons, List.append_assoc]
    simp only [Descriptor.encode, Bytes.ofU16, List.cons_append, List.nil_append]
    unfold readDescriptors
    simp only [kind, if_false, back, size, next]
    simp

/-! ## Preambles -/

/-- The version and the descriptors of a container. -/
structure Preamble where
  version : UInt8
  /-- The descriptors in the order in which they stand. -/
  descriptors : List Descriptor
  /-- Number of bytes up to the terminator, which counts. -/
  size : Nat
  deriving DecidableEq, Repr

namespace Preamble

/-- Reads the preamble of a container. -/
def read (raw : Bytes) : Except Error Preamble :=
  if !isFormatted raw then .error .invalidMagic
  else
    match raw.drop 2 with
    | [] => .error .missingVersion
    | version :: declared =>
      if version = 0 then .error .invalidVersion
      else do
        let (descriptors, rest) ← readDescriptors declared []
        return ⟨version, descriptors, raw.length - rest.length⟩

/-- The bytes of a preamble. -/
def encode (preamble : Preamble) : Bytes :=
  magic ++ preamble.version :: preamble.descriptors.flatMap Descriptor.encode ++ [terminator]

end Preamble

end EvmObject.Container
