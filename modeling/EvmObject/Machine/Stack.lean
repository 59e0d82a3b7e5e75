import EvmObject.Machine.Outcome
import EvmObject.Machine.Word

/-!
# The data stack

A stack of words that never holds more than its limit. Depths count from the top, which has depth
zero; heights count from the bottom. An operation that may fail answers with a value or a fault and
hands the stack back either way.
-/

namespace EvmObject.Machine

/-- The words that instructions work on, bottom first. -/
structure Stack where
  words : Array Word
  bounded : words.size ≤ Limits.stack := by decide
  deriving DecidableEq

namespace Stack

/-- No words. -/
def empty : Stack := ⟨#[], by decide⟩

instance : Inhabited Stack := ⟨empty⟩

/-- The answer of an operation, and the stack after it. -/
abbrev Result (α : Type) := Except Fault α × Stack

/-! ## Looking -/

/-- Number of words. -/
def size (stack : Stack) : Nat := stack.words.size

/-- There are no words. -/
def isEmpty (stack : Stack) : Bool := stack.words.isEmpty

/-- Tells whether `count` more words fit. -/
def hasSpace (stack : Stack) (count : Nat) : Bool := stack.size + count ≤ Limits.stack

/-- The word at a depth. -/
def peek (stack : Stack) (depth : Nat) : Except Fault Word :=
  if h : depth < stack.words.size then .ok stack.words[stack.words.size - 1 - depth]
  else .error .stackUnderflow

/-- The words in decimal, bottom first. -/
def describe (stack : Stack) : String :=
  let texts := stack.words.toList.map fun word => toString word.toNat
  "[" ++ ", ".intercalate texts ++ "]"

/-! ## Changing -/

/-- Drops the words above a height. -/
def truncate (stack : Stack) (height : Nat) : Stack where
  words := stack.words.shrink height
  bounded := by
    have := stack.bounded
    simp only [Array.size_shrink]
    omega

/-- Puts a word on top. -/
def push (stack : Stack) (word : Word) : Result Unit :=
  if h : stack.words.size < Limits.stack then
    (.ok (), ⟨stack.words.push word, by simp only [Array.size_push]; omega⟩)
  else (.error .stackOverflow, stack)

/-- Takes the top word off. -/
def pop (stack : Stack) : Result Word :=
  match stack.peek 0 with
  | .error fault => (.error fault, stack)
  | .ok word => (.ok word, stack.truncate (stack.size - 1))

/-- Takes off `count` words and gives them, topmost first; none if there are fewer. -/
def popMany (stack : Stack) (count : Nat) : Result (List Word) :=
  if stack.size < count then (.error .stackUnderflow, stack)
  else
    let height := stack.size - count
    let taken := (stack.words.extract height stack.size).toList.reverse
    (.ok taken, stack.truncate height)

/-- Puts the `n`-th word from the top on top once more; the first is the top itself. -/
def dup (stack : Stack) (n : Nat) : Result Unit :=
  if n = 0 then (.error .stackUnderflow, stack)
  else
    match stack.peek (n - 1) with
    | .error fault => (.error fault, stack)
    | .ok word => stack.push word

/-- Exchanges the top with the word at depth `n`, which is not the top itself. -/
def swap (stack : Stack) (n : Nat) : Result Unit :=
  if n = 0 ∨ stack.size ≤ n then (.error .stackUnderflow, stack)
  else
    let top := stack.size - 1
    (.ok (), {
      words := stack.words.swapIfInBounds top (top - n)
      bounded := by simpa only [Array.size_swapIfInBounds] using stack.bounded })

/-- Puts on top the word that bytes write, high byte first; `none` if they do not fit in a word. -/
def pushBytes? (stack : Stack) (bytes : Bytes) : Option (Result Unit) :=
  (Word.ofBytes? bytes).map stack.push

/-- Puts words on top until one does not fit. -/
def pushAll (stack : Stack) : List Word → Result Unit
  | [] => (.ok (), stack)
  | word :: rest =>
    match stack.push word with
    | (.ok (), stack) => stack.pushAll rest
    | (.error fault, stack) => (.error fault, stack)

end Stack

end EvmObject.Machine
