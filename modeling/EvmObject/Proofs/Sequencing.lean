import EvmObject.Failure

/-!
# What a computation went through

A chain of checks succeeds exactly if each of them succeeds in turn, and otherwise the first that
does not succeed decides how it fails. These equations peel such a chain apart from the front, for
computations that may refuse and for those that may also crash. `FailsOnly` says what all failures of
a chain have in common if those of its checks do.
-/

namespace EvmObject

variable {ε φ α β : Type}

theorem bind_eq_ok_iff {x : Except ε α} {f : α → Except ε β} {b : β} :
    (x >>= f) = .ok b ↔ ∃ a, x = .ok a ∧ f a = .ok b := by
  cases x with
  | error e => simp [bind, Except.bind]
  | ok a => simp [bind, Except.bind]

theorem pure_eq_ok_iff {a b : α} : (pure a : Except ε α) = .ok b ↔ a = b := by
  simp [pure, Except.pure]

theorem mapError_eq_ok_iff {x : Except ε α} {f : ε → φ} {a : α} :
    x.mapError f = .ok a ↔ x = .ok a := by
  cases x with
  | error e =>
    show (.error (f e) : Except φ α) = .ok a ↔ (.error e : Except ε α) = .ok a
    simp
  | ok b =>
    show (.ok b : Except φ α) = .ok a ↔ (.ok b : Except ε α) = .ok a
    simp

/-- The form in which a concrete success can be decided. -/
theorem eq_ok_of_toOption {x : Except ε α} {a : α} (h : x.toOption = some a) : x = .ok a := by
  cases x with
  | error e => cases h
  | ok b => rw [Option.some.inj h]

/-- A check in front of a chain is passed, or the chain ends there. -/
theorem ite_throw_eq_ok_iff {c : Prop} [Decidable c] {e : ε} {f : α → Except ε β}
    {x : Except ε β} {b : β} :
    (if c then throw e >>= f else x) = .ok b ↔ ¬ c ∧ x = .ok b := by
  by_cases hc : c
  · simp [hc, throw, throwThe, MonadExceptOf.throw, bind, Except.bind]
  · simp [hc]

/-- A chain that handles the members of a list succeeds exactly if each is handled; the results
stand at the places of their members. -/
theorem mapM_eq_ok_iff {f : α → Except ε β} {xs : List α} {ys : List β} :
    xs.mapM f = .ok ys ↔ ys.length = xs.length ∧
      ∀ (index : Nat) (x : α), xs[index]? = some x → ∃ y, ys[index]? = some y ∧ f x = .ok y := by
  induction xs generalizing ys with
  | nil =>
    rw [List.mapM_nil, pure_eq_ok_iff]
    constructor
    · rintro rfl
      exact ⟨rfl, fun index x hget => by simp at hget⟩
    · rintro ⟨hlength, _⟩
      exact (List.eq_nil_of_length_eq_zero hlength).symm
  | cons x xs ih =>
    simp only [List.mapM_cons, bind_eq_ok_iff, pure_eq_ok_iff]
    constructor
    · rintro ⟨y, hy, rest, hrest, rfl⟩
      obtain ⟨hlength, hmembers⟩ := ih.mp hrest
      refine ⟨by rw [List.length_cons, List.length_cons, hlength], fun index z hget => ?_⟩
      cases index with
      | zero =>
        obtain rfl := Option.some.inj hget
        exact ⟨y, rfl, hy⟩
      | succ index => exact hmembers index z hget
    · rintro ⟨hlength, hmembers⟩
      obtain ⟨y, hy, hhead⟩ := hmembers 0 x rfl
      cases ys with
      | nil => cases hy
      | cons first rest =>
        obtain rfl := Option.some.inj hy
        refine ⟨first, hhead, rest, ih.mpr ⟨Nat.succ.inj hlength, ?_⟩, rfl⟩
        intro index z hget
        exact hmembers (index + 1) z hget

/-! ## Chains that are known so far -/

@[simp] theorem ok_bind (a : α) (f : α → Except ε β) : (Except.ok a >>= f) = f a := rfl

@[simp] theorem error_bind (e : ε) (f : α → Except ε β) :
    (Except.error e >>= f) = (.error e : Except ε β) := rfl

@[simp] theorem throw_eq_error (e : ε) : (throw e : Except ε α) = .error e := rfl

@[simp] theorem mapError_ok (f : ε → φ) (a : α) :
    (Except.ok a : Except ε α).mapError f = .ok a := rfl

@[simp] theorem mapError_error (f : ε → φ) (e : ε) :
    (Except.error e : Except ε α).mapError f = .error (f e) := rfl

/-! ## Failures -/

theorem bind_eq_error_iff {x : Except ε α} {f : α → Except ε β} {e : ε} :
    (x >>= f) = .error e ↔ x = .error e ∨ ∃ a, x = .ok a ∧ f a = .error e := by
  cases x with
  | error e => simp [bind, Except.bind]
  | ok a => simp [bind, Except.bind]

theorem mapError_eq_error_iff {x : Except ε α} {f : ε → φ} {e : φ} :
    x.mapError f = .error e ↔ ∃ cause, x = .error cause ∧ f cause = e := by
  cases x with
  | error cause =>
    show (.error (f cause) : Except φ α) = .error e ↔ _
    simp
  | ok a =>
    show (.ok a : Except φ α) = .error e ↔ _
    simp

/-- The form in which a concrete failure can be decided. -/
theorem eq_error_of_match {x : Except ε α} {e : ε}
    (h : (match x with | .error cause => some cause | .ok _ => none) = some e) :
    x = .error e := by
  cases x with
  | error cause => rw [Option.some.inj h]
  | ok a => cases h

/-- A chain that handles the members of a list fails as the first of them does that is not
handled. -/
theorem mapM_eq_error_iff {f : α → Except ε β} {xs : List α} {e : ε} :
    xs.mapM f = .error e ↔ ∃ (index : Nat) (x : α), xs[index]? = some x ∧ f x = .error e ∧
      ∀ (earlier : Nat) (y : α), earlier < index → xs[earlier]? = some y →
        ∃ b, f y = .ok b := by
  induction xs with
  | nil => simp [pure, Except.pure]
  | cons x xs ih =>
    simp only [List.mapM_cons, bind_eq_error_iff]
    constructor
    · rintro (hx | ⟨b, hx, hrest | ⟨_, _, hpure⟩⟩)
      · exact ⟨0, x, rfl, hx, fun earlier y hlt => absurd hlt (Nat.not_lt_zero _)⟩
      · obtain ⟨index, z, hget, hz, hbefore⟩ := ih.mp hrest
        refine ⟨index + 1, z, hget, hz, fun earlier y hlt hy => ?_⟩
        cases earlier with
        | zero =>
          obtain rfl := Option.some.inj hy
          exact ⟨b, hx⟩
        | succ earlier => exact hbefore earlier y (Nat.lt_of_succ_lt_succ hlt) hy
      · cases hpure
    · rintro ⟨index, z, hget, hz, hbefore⟩
      cases index with
      | zero =>
        obtain rfl := Option.some.inj hget
        exact .inl hz
      | succ index =>
        obtain ⟨b, hx⟩ := hbefore 0 x (Nat.succ_pos _) rfl
        refine .inr ⟨b, hx, .inl (ih.mpr ⟨index, z, hget, hz, fun earlier y hlt hy => ?_⟩)⟩
        exact hbefore (earlier + 1) y (Nat.succ_lt_succ hlt) hy

/-- A chain that folds a list fails where its step first does: with the state that the members in
front lead to. -/
theorem foldlM_eq_error_iff {f : β → α → Except ε β} {xs : List α} {start : β} {e : ε} :
    xs.foldlM f start = .error e ↔ ∃ before x after state, xs = before ++ x :: after ∧
      before.foldlM f start = .ok state ∧ f state x = .error e := by
  induction xs generalizing start with
  | nil => simp [pure, Except.pure]
  | cons x xs ih =>
    rw [List.foldlM_cons, bind_eq_error_iff]
    constructor
    · rintro (hx | ⟨next, hx, hrest⟩)
      · exact ⟨[], x, xs, start, rfl, rfl, hx⟩
      · obtain ⟨before, y, after, state, rfl, hbefore, hy⟩ := ih.mp hrest
        refine ⟨x :: before, y, after, state, rfl, ?_, hy⟩
        rw [List.foldlM_cons, hx]
        exact hbefore
    · rintro ⟨before, y, after, state, hsplit, hbefore, hy⟩
      cases before with
      | nil =>
        obtain ⟨rfl, rfl⟩ := List.cons.inj hsplit
        obtain rfl := pure_eq_ok_iff.mp hbefore
        exact .inl hy
      | cons _ before =>
        obtain ⟨rfl, rfl⟩ := List.cons.inj hsplit
        rw [List.foldlM_cons] at hbefore
        obtain ⟨next, hx, hrest⟩ := bind_eq_ok_iff.mp hbefore
        exact .inr ⟨next, hx, ih.mpr ⟨before, y, after, state, rfl, hrest, hy⟩⟩

/-! ## What failures have in common -/

/-- Every failure of the computation has the property. -/
def FailsOnly (P : ε → Prop) (x : Except ε α) : Prop := ∀ e, x = .error e → P e

namespace FailsOnly

variable {P : ε → Prop}

theorem ok (a : α) : FailsOnly P (.ok a) := fun _ hfails => nomatch hfails

theorem error {e : ε} (he : P e) : FailsOnly P (.error e : Except ε α) := by
  intro failure hfails
  rwa [← Except.error.inj hfails]

theorem ite {c : Prop} [Decidable c] {x y : Except ε α} (hx : FailsOnly P x)
    (hy : FailsOnly P y) : FailsOnly P (if c then x else y) := by
  split
  · exact hx
  · exact hy

theorem bind {x : Except ε α} {f : α → Except ε β} (hx : FailsOnly P x)
    (hf : ∀ a, FailsOnly P (f a)) : FailsOnly P (x >>= f) := by
  intro e hfails
  rcases bind_eq_error_iff.mp hfails with hfirst | ⟨a, _, hrest⟩
  · exact hx e hfirst
  · exact hf a e hrest

theorem foldlM {f : β → α → Except ε β} (hf : ∀ state a, FailsOnly P (f state a))
    (xs : List α) (start : β) : FailsOnly P (xs.foldlM f start) := by
  induction xs generalizing start with
  | nil => exact ok start
  | cons a xs ih =>
    rw [List.foldlM_cons]
    exact (hf start a).bind ih

end FailsOnly

/-- The cause of a refusal has the property; of a crash nothing is said. -/
def Failure.ForCause (P : ε → Prop) : Failure ε → Prop
  | refused cause => P cause
  | crashed => True

theorem FailsOnly.ofExcept {P : ε → Prop} {x : Except ε α} (hx : FailsOnly P x) :
    FailsOnly (Failure.ForCause P) (Attempt.ofExcept x) := by
  intro failure hfails
  obtain ⟨cause, hcause, rfl⟩ := mapError_eq_error_iff.mp hfails
  exact hx cause hcause

namespace Attempt

@[simp] theorem mapCause_ok (f : ε → φ) (a : α) : mapCause f (.ok a) = .ok a := rfl

@[simp] theorem mapCause_refused (f : ε → φ) (cause : ε) :
    mapCause f (.error (.refused cause) : Attempt ε α) = .error (.refused (f cause)) := rfl

@[simp] theorem mapCause_crashed (f : ε → φ) :
    mapCause f (.error .crashed : Attempt ε α) = .error .crashed := rfl

theorem ofExcept_eq_ok_iff {x : Except ε α} {a : α} : ofExcept x = .ok a ↔ x = .ok a :=
  mapError_eq_ok_iff

theorem mapCause_eq_ok_iff {f : ε → φ} {x : Attempt ε α} {a : α} :
    mapCause f x = .ok a ↔ x = .ok a :=
  mapError_eq_ok_iff

end Attempt

end EvmObject
