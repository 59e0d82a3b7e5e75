import EvmObject.Bytes.BigEndian
import EvmObject.Proofs.Sequencing

/-!
# Computations that take nothing for granted

A computation is free to slice bytes, to take the first of some entries, or to go on from a value
that it knows to be there. Written with total operations it cannot go wrong there, and so it does
not tell that it never would. A `Checked` computation looks every time: it asks for the slice, the
entry or the value, and stops with a `Lapse` if there is none.

`Keeps checked attempt` says that the checked form of a computation comes to the same answer and
never lapses. It is closed under the ways that a chain is built, so it is proved for a chain by
proving it for the links. Where a link needs to know what was found before it, `Keeps.bind` hands
that over.
-/

namespace EvmObject

variable {ε φ α β : Type}

/-! ## Lapses -/

/-- What may turn out not to be there. -/
inductive Lapse where
  /-- The difference of a length and a greater one. -/
  | difference
  /-- A preamble that is as long as its header. -/
  | preambleSize
  /-- A slice of bytes, as its bounds are reversed or past the end. -/
  | slice
  /-- A whole signature in what is left of the types section. -/
  | signature
  /-- The first of the signatures. -/
  | firstSignature
  /-- A range of a jump table. -/
  | tableRange
  /-- A whole operand of an instruction that is not cut off. -/
  | operand
  /-- A code section. -/
  | codeSection
  deriving DecidableEq

/-- How a checked computation fails to give a result. -/
inductive Stop (ε : Type) where
  /-- The input is refused for this cause. -/
  | refused (cause : ε)
  /-- What the computation asked for is not there. -/
  | lapsed (lapse : Lapse)
  deriving DecidableEq

namespace Stop

/-- A lapse is a crash. -/
def failure : Stop ε → Failure ε
  | refused cause => .refused cause
  | lapsed _ => .crashed

/-- Changes the cause of a refusal. -/
def map (f : ε → φ) : Stop ε → Stop φ
  | refused cause => refused (f cause)
  | lapsed lapse => lapsed lapse

end Stop

/-- A computation that looks before it takes anything. -/
abbrev Checked (ε : Type) := Except (Stop ε)

namespace Checked

/-- Takes a value that should be there. -/
def get (lapse : Lapse) : Option α → Checked ε α
  | none => .error (.lapsed lapse)
  | some a => .ok a

/-- Refuses the input. -/
def refuse (cause : ε) : Checked ε α := .error (.refused cause)

/-- A computation that takes nothing but what it looked at. -/
def ofExcept (result : Except ε α) : Checked ε α := result.mapError .refused

/-- A computation of which it is known what a crash of it means. -/
def ofAttempt (lapse : Lapse) (attempt : Attempt ε α) : Checked ε α :=
  attempt.mapError fun
    | .refused cause => .refused cause
    | .crashed => .lapsed lapse

/-- Changes the cause of a refusal. -/
def mapCause (f : ε → φ) (checked : Checked ε α) : Checked φ α := checked.mapError (Stop.map f)

/-- Slices bytes. -/
def slice (bytes : Bytes) (start stop : Nat) : Checked ε Bytes :=
  get .slice (Bytes.slice? bytes start stop)

theorem slice_of_le {bytes : Bytes} {start stop : Nat} (hstart : start ≤ stop)
    (hstop : stop ≤ bytes.length) :
    (slice bytes start stop : Checked ε Bytes) =
      .ok ((bytes.drop start).take (stop - start)) := by
  unfold slice Bytes.slice?
  rw [if_pos ⟨hstart, hstop⟩]
  rfl

theorem slice_length {bytes : Bytes} {start : Nat} (hstart : start ≤ bytes.length) :
    (slice bytes start bytes.length : Checked ε Bytes) = .ok (bytes.drop start) := by
  rw [slice_of_le hstart (Nat.le_refl _),
    List.take_of_length_le (Nat.le_of_eq List.length_drop)]

theorem mapCause_ofExcept (f : ε → φ) (result : Except ε α) :
    mapCause f (ofExcept result) = ofExcept (result.mapError f) := by
  cases result with
  | error cause => rfl
  | ok a => rfl

theorem ofExcept_bind (x : Except ε α) (f : α → Except ε β) :
    (ofExcept (x >>= f) : Checked ε β) = ofExcept x >>= fun a => ofExcept (f a) := by
  cases x with
  | error cause => rfl
  | ok a => rfl

end Checked

namespace Attempt

theorem ofExcept_bind (x : Except ε α) (f : α → Except ε β) :
    (ofExcept (x >>= f) : Attempt ε β) = ofExcept x >>= fun a => ofExcept (f a) := by
  cases x with
  | error cause => rfl
  | ok a => rfl

theorem ofExcept_foldlM (f : β → α → Except ε β) (xs : List α) (start : β) :
    (ofExcept (xs.foldlM f start) : Attempt ε β) =
      xs.foldlM (fun state a => ofExcept (f state a)) start := by
  induction xs generalizing start with
  | nil => rfl
  | cons a xs ih =>
    rw [List.foldlM_cons, List.foldlM_cons, ofExcept_bind]
    exact congrArg _ (funext ih)

theorem mapCause_ofExcept (f : ε → φ) (result : Except ε α) :
    mapCause f (ofExcept result) = result.mapError (.refused ∘ f) := by
  cases result with
  | error cause => rfl
  | ok a => rfl

end Attempt

/-! ## Checked forms -/

/-- The checked form comes to the same answer, and never lapses on the way. -/
structure Keeps (checked : Checked ε α) (attempt : Attempt ε α) : Prop where
  answer_eq : checked.mapError Stop.failure = attempt
  no_lapse : ∀ lapse, checked ≠ .error (.lapsed lapse)

namespace Keeps

theorem ok (a : α) : Keeps (.ok a : Checked ε α) (.ok a) where
  answer_eq := rfl
  no_lapse _ hlapsed := nomatch hlapsed

theorem refuse (cause : ε) : Keeps (.refuse cause : Checked ε α) (.error (.refused cause)) where
  answer_eq := rfl
  no_lapse _ hlapsed := nomatch hlapsed

/-- What takes nothing for granted is its own checked form. -/
theorem ofExcept (result : Except ε α) : Keeps (.ofExcept result) (.ofExcept result) := by
  cases result with
  | error cause => exact refuse cause
  | ok a => exact ok a

/-- The same for a refusal with another cause. -/
theorem mapError (result : Except ε α) (f : ε → φ) :
    Keeps (.ofExcept (result.mapError f)) (result.mapError fun cause => .refused (f cause)) := by
  cases result with
  | error cause => exact refuse (f cause)
  | ok a => exact ok a

theorem mapCause {checked : Checked ε α} {attempt : Attempt ε α} (hkeeps : Keeps checked attempt)
    (f : ε → φ) : Keeps (checked.mapCause f) (attempt.mapCause f) := by
  rw [← hkeeps.answer_eq]
  cases checked with
  | error stop =>
    cases stop with
    | refused cause => exact refuse (f cause)
    | lapsed lapse => exact absurd rfl (hkeeps.no_lapse lapse)
  | ok a => exact ok a

theorem ne_crashed {checked : Checked ε α} {attempt : Attempt ε α}
    (hkeeps : Keeps checked attempt) : attempt ≠ .error .crashed := by
  rw [← hkeeps.answer_eq]
  cases checked with
  | error stop =>
    cases stop with
    | refused cause =>
      intro hcrashed
      cases hcrashed
    | lapsed lapse => exact absurd rfl (hkeeps.no_lapse lapse)
  | ok a =>
    intro hcrashed
    cases hcrashed

/-- A check in front of both. -/
theorem ite {c : Prop} [Decidable c] {left right : Checked ε α} {left' right' : Attempt ε α}
    (hleft : c → Keeps left left') (hright : ¬ c → Keeps right right') :
    Keeps (if c then left else right) (if c then left' else right') := by
  by_cases hc : c
  · rw [if_pos hc, if_pos hc]
    exact hleft hc
  · rw [if_neg hc, if_neg hc]
    exact hright hc

/-- **One link after the other.** The second may rely on what the first one found. -/
theorem bind {checked : Checked ε α} {attempt : Attempt ε α} {f : α → Checked ε β}
    {g : α → Attempt ε β} (hfirst : Keeps checked attempt)
    (hrest : ∀ a, attempt = .ok a → Keeps (f a) (g a)) :
    Keeps (checked >>= f) (attempt >>= g) := by
  have hanswer := hfirst.answer_eq
  cases checked with
  | error stop =>
    cases stop with
    | refused cause =>
      rw [← hanswer]
      exact refuse cause
    | lapsed lapse => exact absurd rfl (hfirst.no_lapse lapse)
  | ok a =>
    rw [← hanswer]
    exact hrest a hanswer.symm

/-- A chain that handles the members of a list. -/
theorem mapM {f : α → Checked ε β} {g : α → Attempt ε β} {xs : List α}
    (hkeeps : ∀ x ∈ xs, Keeps (f x) (g x)) : Keeps (xs.mapM f) (xs.mapM g) := by
  induction xs with
  | nil => exact ok []
  | cons x xs ih =>
    rw [List.mapM_cons, List.mapM_cons]
    refine (hkeeps x List.mem_cons_self).bind fun y _ => ?_
    refine (ih fun z hmem => hkeeps z (List.mem_cons_of_mem _ hmem)).bind fun ys _ => ?_
    exact ok (y :: ys)

end Keeps

end EvmObject
