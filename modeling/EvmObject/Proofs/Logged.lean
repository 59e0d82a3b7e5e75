import EvmObject.Validation.Basic

/-!
# Computations that say what they do

A refusal carries a cause, and from the cause its records follow. So an attempt leaves its records
at one stroke, and nothing in it shows where they are made. A `Logged` computation does: it leaves a
record where it says so (`leave`), before it goes on or stops, and it can stop without a word
(`stop`).

`told` turns an attempt into such a computation, by saying for each cause what error it is and which
records it is worth. It respects the ways that chains are built, as `told_bind` and `told_mapM` say.
So a chain of logged links is a told attempt if its links are; a link that stops without a word is
one only if it does not stop.
-/

namespace EvmObject

open Validation (recordsOf)

variable {ε φ ψ α β : Type}

/-- Records, and what the attempt comes to that leaves them. -/
structure Logged (ε α : Type) where
  records : List Log.Record
  attempt : Attempt ε α

namespace Logged

/-! ## Chains -/

/-- The same with records in front. -/
def behind (records : List Log.Record) (logged : Logged ε α) : Logged ε α :=
  ⟨records ++ logged.records, logged.attempt⟩

/-- There is no second computation if the first fails. -/
protected def bind (first : Logged ε α) (next : α → Logged ε β) : Logged ε β :=
  match first.attempt with
  | .error failure => ⟨first.records, .error failure⟩
  | .ok a => (next a).behind first.records

instance : Monad (Logged ε) where
  pure a := ⟨[], .ok a⟩
  bind := Logged.bind

/-- Records in front of a chain are records in front of its first link. -/
theorem behind_bind (records : List Log.Record) (first : Logged ε α) (next : α → Logged ε β) :
    first.behind records >>= next = (first >>= next).behind records := by
  obtain ⟨left, attempt⟩ := first
  cases attempt with
  | error failure => rfl
  | ok a =>
    show (next a).behind (records ++ left) = ((next a).behind left).behind records
    rw [behind, behind, behind, List.append_assoc]

instance : LawfulMonad (Logged ε) := LawfulMonad.mk' (Logged ε)
  (by
    intro α logged
    obtain ⟨records, attempt⟩ := logged
    cases attempt with
    | error failure => rfl
    | ok a =>
      show (pure a : Logged ε α).behind records = _
      rw [behind, pure]
      exact congrArg (Logged.mk · (.ok a)) (List.append_nil records))
  (fun _ _ => rfl)
  (by
    intro α β γ logged next last
    obtain ⟨records, attempt⟩ := logged
    cases attempt with
    | error failure => rfl
    | ok a => exact behind_bind records (next a) last)

/-! ## Links -/

/-- Leaves a record. -/
def leave (record : Log.Record) : Logged ε Unit := ⟨[record], .ok ()⟩

/-- Stops, without a word. -/
def stop (error : ε) : Logged ε α := ⟨[], .error (.refused error)⟩

/-- Stops, with a word. -/
def refuse (record : Log.Record) (error : ε) : Logged ε α := do
  leave record
  stop error

/-- Takes a value that should be there, and stops without a word if there is none. -/
def get (error : ε) : Option α → Logged ε α
  | none => stop error
  | some a => pure a

/-- An attempt that leaves no records. -/
def silent (attempt : Attempt ε α) : Logged ε α := ⟨[], attempt⟩

/-- Changes the error. -/
def mapError (f : ε → φ) (logged : Logged ε α) : Logged φ α :=
  ⟨logged.records, logged.attempt.mapCause f⟩

/-- Does something about an error. -/
def rescue (handle : ε → Logged φ α) (logged : Logged ε α) : Logged φ α :=
  match logged.attempt with
  | .ok a => ⟨logged.records, .ok a⟩
  | .error (.refused error) => (handle error).behind logged.records
  | .error .crashed => ⟨logged.records, .error .crashed⟩

/-- Leaves a record of an error, and stops with it all the same. -/
def note (record : ε → Log.Record) (logged : Logged ε α) : Logged ε α :=
  logged.rescue fun error => refuse (record error) error

/-! ## Attempts that are told -/

/-- A check that refuses if there is a cause to. -/
def refuseFor : Option φ → Attempt φ PUnit
  | none => .ok ⟨⟩
  | some cause => .error (.refused cause)

/-- An attempt, with the errors and the records that its causes are worth. -/
def told (error : φ → ε) (records : φ → List Log.Record) (attempt : Attempt φ α) : Logged ε α :=
  ⟨recordsOf records attempt, attempt.mapCause error⟩

section
variable {error : φ → ε} {records : φ → List Log.Record}

/-- **One link after the other.** The second may rely on what the first one found. -/
theorem told_bind {first : Attempt φ α} {next : α → Attempt φ β} {logged : α → Logged ε β}
    (hnext : ∀ a, first = .ok a → logged a = told error records (next a)) :
    told error records first >>= logged = told error records (first >>= next) := by
  cases first with
  | error failure => cases failure <;> rfl
  | ok a => exact hnext a rfl

/-- A chain that handles the members of a list. -/
theorem told_mapM {xs : List α} {f : α → Logged ε β} {g : α → Attempt φ β}
    (hmembers : ∀ x ∈ xs, f x = told error records (g x)) :
    xs.mapM f = told error records (xs.mapM g) := by
  induction xs with
  | nil => rfl
  | cons x xs ih =>
    rw [List.mapM_cons, List.mapM_cons, hmembers x List.mem_cons_self]
    refine told_bind fun y _ => ?_
    rw [ih fun x hmem => hmembers x (List.mem_cons_of_mem _ hmem)]
    exact told_bind fun ys _ => rfl

/-- A chain that folds a list. -/
theorem told_foldlM {xs : List α} {f : β → α → Logged ε β} {g : β → α → Attempt φ β}
    (hmembers : ∀ state x, f state x = told error records (g state x)) (start : β) :
    xs.foldlM f start = told error records (xs.foldlM g start) := by
  induction xs generalizing start with
  | nil => rfl
  | cons x xs ih =>
    rw [List.foldlM_cons, List.foldlM_cons, hmembers]
    exact told_bind fun next _ => ih next

/-- Checks of the members of a list, one after the other, stop at the first that has a cause. -/
theorem told_forM {xs : List α} {f : α → Logged ε PUnit} {cause? : α → Option φ}
    (hmembers : ∀ x ∈ xs, f x = told error records (refuseFor (cause? x))) :
    forM xs f = told error records (refuseFor (xs.findSome? cause?)) := by
  induction xs with
  | nil => rfl
  | cons x xs ih =>
    -- a cause ends the loop, and the search for the first cause with it
    rw [List.forM_cons, hmembers x List.mem_cons_self, List.findSome?_cons,
      ih fun x hmem => hmembers x (List.mem_cons_of_mem _ hmem)]
    cases cause? x <;> rfl

theorem told_mapCause {cause : ψ → φ} (attempt : Attempt ψ α) :
    told error records (attempt.mapCause cause) =
      told (error ∘ cause) (records ∘ cause) attempt := by
  cases attempt with
  | error failure => cases failure <;> rfl
  | ok a => rfl

theorem mapError_told {f : ε → ψ} (attempt : Attempt φ α) :
    (told error records attempt).mapError f = told (f ∘ error) records attempt := by
  cases attempt with
  | error failure => cases failure <;> rfl
  | ok a => rfl

/-- A record more, behind those of the cause. -/
theorem note_told {record : ε → Log.Record} (attempt : Attempt φ α) :
    (told error records attempt).note record =
      told error (fun cause => records cause ++ [record (error cause)]) attempt := by
  cases attempt with
  | error failure => cases failure <;> rfl
  | ok a => rfl

theorem silent_eq_told (attempt : Attempt ε α) :
    silent attempt = told id (fun _ => []) attempt := by
  cases attempt with
  | error failure => cases failure <;> rfl
  | ok a => rfl

end

end Logged

end EvmObject
