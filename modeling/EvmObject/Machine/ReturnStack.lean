import EvmObject.Limits
import EvmObject.Machine.Outcome

/-!
# The return stack

One frame per function that is running or waits for a return. A frame says where its caller goes on
and how many words of the data stack lie below the arguments of the function, which it cannot reach.
The frame at the bottom belongs to the function that the execution starts with.
-/

namespace EvmObject.Machine

/-- Where a call returns to and what the called function cannot reach. -/
structure Frame where
  /-- The code section to go on in. -/
  function : Nat
  /-- The offset to go on at. -/
  pc : Nat
  /-- Number of words below the arguments of the called function. A frame that no call made may say
  any number that a machine word can hold. -/
  height : Nat
  deriving DecidableEq, Repr

/-- The frame of the function that an execution starts with. -/
def Frame.bottom : Frame := ⟨0, 0, 0⟩

/-- The frames of an execution, bottom first. -/
structure ReturnStack where
  frames : Array Frame
  bounded : frames.size ≤ Limits.returnStack := by decide
  deriving DecidableEq

namespace ReturnStack

/-- The frame of the entry function and no other. -/
def initial : ReturnStack := ⟨#[.bottom], by decide⟩

/-- No frames. -/
def empty : ReturnStack := ⟨#[], by decide⟩

instance : Inhabited ReturnStack := ⟨initial⟩

/-- Number of frames. -/
def size (stack : ReturnStack) : Nat := stack.frames.size

/-- There are no frames. -/
def isEmpty (stack : ReturnStack) : Bool := stack.frames.isEmpty

/-- The frame of the running function. -/
def top? (stack : ReturnStack) : Option Frame := stack.frames.back?

/-- Number of words that the running function cannot reach. -/
def height (stack : ReturnStack) : Nat := (stack.top?.map (·.height)).getD 0

/-- Puts a frame on top. -/
def push (stack : ReturnStack) (frame : Frame) : Except Fault ReturnStack :=
  if h : stack.frames.size < Limits.returnStack then
    .ok ⟨stack.frames.push frame, by simp only [Array.size_push]; omega⟩
  else .error .returnStackOverflow

/-- Takes the top frame off. -/
def pop? (stack : ReturnStack) : Option (Frame × ReturnStack) :=
  stack.top?.map fun frame =>
    (frame, ⟨stack.frames.pop, by have := stack.bounded; simp only [Array.size_pop]; omega⟩)

/-- Puts frames on top until one does not fit. -/
def pushAll (stack : ReturnStack) : List Frame → Except Fault Unit × ReturnStack
  | [] => (.ok (), stack)
  | frame :: rest =>
    match stack.push frame with
    | .ok stack => stack.pushAll rest
    | .error fault => (.error fault, stack)

end ReturnStack

end EvmObject.Machine
