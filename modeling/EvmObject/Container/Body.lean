import EvmObject.Container.Header
import EvmObject.Container.Signature
import EvmObject.Failure

/-!
# Bodies

A `Body` holds what the header declares: the signatures, the code of all sections in one piece with
the offset where each ends, and the data. It may also be put together by hand, and then the ends
need not fit the code: each section is read with its own bounds, and `sections` says `none` where
these are reversed or past the end.
-/

namespace EvmObject.Container

/-- The sections of a container. -/
structure Body where
  version : UInt8
  /-- One signature per code section. -/
  signatures : Array Signature
  /-- Where each code section ends. -/
  sectionEnds : Array Nat
  /-- The code sections, one after the other. -/
  code : Bytes
  /-- The data section, empty if it is absent. -/
  data : Bytes
  /-- The signatures are not written: there is one code section, and it has the entry signature. -/
  isTypesImplicit : Bool
  deriving DecidableEq, Repr

namespace Body

/-! ## Code sections -/

/-- Number of code sections. -/
def codeCount (body : Body) : Nat := body.sectionEnds.size

/-- Where a code section starts: at the end of the one before. -/
def start? (body : Body) (index : Nat) : Option Nat :=
  if index = 0 then some 0 else body.sectionEnds[index - 1]?

/-- The bounds of a code section. -/
def bounds? (body : Body) (index : Nat) : Option (Nat × Nat) := do
  let stop ← body.sectionEnds[index]?
  let start ← body.start? index
  return (start, stop)

/-- A code section, if there is one within the bounds of the code. -/
def slice? (body : Body) (index : Nat) : Option Bytes := do
  let (start, stop) ← body.bounds? index
  Bytes.slice? body.code start stop

/-- A code section, if there is one; reading a section whose bounds are reversed or past the end of
the code crashes. -/
def read {ε : Type} (body : Body) (index : Nat) : Attempt ε (Option Bytes) :=
  match body.bounds? index with
  | none => .ok none
  | some (start, stop) =>
    match Bytes.slice? body.code start stop with
    | none => .error .crashed
    | some bytes => .ok (some bytes)

/-- The code sections in order; `none` where the bounds are reversed or past the end of the code. -/
def sections (body : Body) : List (Option Bytes) :=
  let ends := body.sectionEnds.toList
  ((0 :: ends).zip ends).map fun (start, stop) => Bytes.slice? body.code start stop

/-! ## Writing -/

/-- The bytes of a body. -/
def encode (body : Body) : Bytes :=
  (if body.isTypesImplicit then [] else body.signatures.toList.flatMap Signature.encode) ++
    body.code ++ body.data

/-- Where sections of the given sizes end if the first starts at `start`. -/
def endsFrom (start : Nat) : List UInt16 → List Nat
  | [] => []
  | size :: rest => (start + size.toNat) :: endsFrom (start + size.toNat) rest

/-- The sizes of sections with the given ends if the first starts at `start`, each in sixteen
bits. -/
def sizesFrom (start : Nat) : List Nat → List UInt16
  | [] => []
  | stop :: rest => UInt16.ofNat (stop - start) :: sizesFrom stop rest

/-- The header of a body. Sizes that do not fit in sixteen bits lose their high bits. -/
def header (body : Body) : Header where
  version := body.version
  typesSize := if body.isTypesImplicit then 0 else UInt16.ofNat (2 * body.signatures.size)
  codeSizes := (sizesFrom 0 body.sectionEnds.toList).toArray
  dataSize := UInt16.ofNat body.data.length
  codeTotal := body.code.length

/-! ## Reading -/

/-- Reads the body behind a header. The declared sections have to cover the rest of the container
exactly, and written signatures have to start with that of the entry; a types section too small for
one signature crashes. -/
def decode (raw : Bytes) (header : Header) : Attempt Error Body :=
  let size := header.size + header.bodySize
  let length := raw.length
  if length < size then .error (.refused .missingBody)
  else if size < length then .error (.refused .danglingData)
  else
    let rest := raw.drop header.size
    let behindTypes := rest.drop header.typesSize.toNat
    let body (signatures : List Signature) : Body := {
      version := header.version
      signatures := signatures.toArray
      sectionEnds := (endsFrom 0 header.codeSizes.toList).toArray
      code := behindTypes.take header.codeTotal
      data := behindTypes.drop header.codeTotal
      isTypesImplicit := !header.hasTypes }
    if header.hasTypes then
      match Signature.ofBytes (rest.take header.typesSize.toNat) with
      | [] => .error .crashed
      | first :: others =>
        if first.isEntry then .ok (body (first :: others))
        else .error (.refused .invalidFirstTypeEntry)
    else .ok (body [.entry])

/-- Sizes in sixteen bits come back from the ends that they lead to. -/
theorem sizesFrom_endsFrom (start : Nat) (sizes : List UInt16) :
    sizesFrom start (endsFrom start sizes) = sizes := by
  induction sizes generalizing start with
  | nil => rfl
  | cons size rest ih => simp [endsFrom, sizesFrom, ih]

end Body

end EvmObject.Container
