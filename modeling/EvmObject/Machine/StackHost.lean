import EvmObject.Machine.Host

/-!
# The stack-only host

Moves words, computes with them, and stands in for everything else by taking an instruction's inputs
and leaving zeros for its outputs. It keeps the list of opcodes that it carried out.
-/

namespace EvmObject.Machine.StackHost

/-! ## Single instructions -/

/-- Replaces the top word. -/
def unary (f : Word → Word) (stack : Stack) : Stack.Result Unit :=
  match stack.pop with
  | (.ok a, stack) => stack.push (f a)
  | (.error fault, stack) => (.error fault, stack)

/-- Replaces the top word `a` and the word `b` below it. -/
def binary (f : Word → Word → Word) (stack : Stack) : Stack.Result Unit :=
  match stack.popMany 2 with
  | (.ok [a, b], stack) => stack.push (f a b)
  | (.ok _, stack) => (.error .stackUnderflow, stack)
  | (.error fault, stack) => (.error fault, stack)

/-- Takes the top word off for good. -/
def discard (stack : Stack) : Stack.Result Unit :=
  match stack.pop with
  | (.ok _, stack) => (.ok (), stack)
  | (.error fault, stack) => (.error fault, stack)

/-- Takes the inputs of an instruction and leaves zeros for its outputs. -/
def placeholder (info : Opcode.Info) (stack : Stack) : Stack.Result Unit :=
  if stack.size < info.inputs then (.error .stackUnderflow, stack)
  else if !stack.hasSpace (info.outputs - info.inputs) then (.error .stackOverflow, stack)
  else (stack.truncate (stack.size - info.inputs)).pushAll (List.replicate info.outputs 0)

/-- What the host does to the stack, if the byte stands for a computation. -/
def computation? (byte : UInt8) : Option (Stack → Stack.Result Unit) :=
  match byte with
  | 0x01 => some (binary (· + ·))
  | 0x02 => some (binary (· * ·))
  | 0x03 => some (binary (· - ·))
  | 0x10 => some (binary fun a b => Word.ofBool (a < b))
  | 0x11 => some (binary fun a b => Word.ofBool (b < a))
  | 0x14 => some (binary fun a b => Word.ofBool (a = b))
  | 0x15 => some (unary fun a => Word.ofBool (a = 0))
  | 0x16 => some (binary (· &&& ·))
  | 0x17 => some (binary (· ||| ·))
  | 0x18 => some (binary (· ^^^ ·))
  | 0x19 => some (unary (~~~ ·))
  | 0x50 => some discard
  | _ => none

/-- Carries out an opcode; `none` for a push of more bytes than a word has. -/
def perform? (op : Opcode) (immediate : Bytes) (stack : Stack) : Option (Stack.Result Unit) :=
  let byte := op.byte
  if 0x5F ≤ byte ∧ byte ≤ 0x7F then stack.pushBytes? immediate
  else if 0x80 ≤ byte ∧ byte ≤ 0x8F then some (stack.dup (byte.toNat - 0x7F))
  else if 0x90 ≤ byte ∧ byte ≤ 0x9F then some (stack.swap (byte.toNat - 0x8F))
  else
    match computation? byte with
    | some compute => some (compute stack)
    | none => some (placeholder op.info stack)

/-! ## The host -/

/-- The opcodes that were carried out, the latest first. -/
abbrev Trace := List Opcode

/-- Carries out an opcode and notes it unless it failed; `none` for a push of more bytes than a word
has. -/
def execute? (op : Opcode) (immediate : Bytes) (stack : Stack) (trace : Trace) :
    Option (Effect Trace) :=
  (perform? op immediate stack).map fun
    | (.ok (), stack) => ⟨.ok (), stack, op :: trace⟩
    | (.error fault, stack) => ⟨.error fault, stack, trace⟩

end StackHost

/-- The stack-only host. A push of more bytes than a word has is no instruction; the host fails on
it. -/
def stackHost : Host StackHost.Trace where
  execute op immediate stack trace :=
    match StackHost.execute? op immediate stack trace with
    | some effect => effect
    | none => ⟨.error .host, stack, trace⟩

end EvmObject.Machine
