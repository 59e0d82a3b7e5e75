import EvmObject.Proofs.Machine.Stack

/-!
# The data stack refines a plain list

`Operation` names the ways to change a data stack, and `performAll` carries out any sequence of
them, whether they fail or not. `Operation.effect` says what an operation is for a plain list of
words, topmost first: a fault, or some words that it hands out and the list that it leaves. A list
has no bound in its type, and no single operation enforces one: a push is refused at exactly
`Limits.stack` words, and nothing else looks at the limit.

* `view_performAll`: on a stack and on its list, the same operations give the same answers and leave
  the same words;
* `length_performAll_le`: a list that starts within the limit stays there;
* `Lawful`: what single operations promise, those that are made of others in particular.

`stack_refines_list` joins them for the sequences that start with the empty stack.
-/

namespace EvmObject.Machine.Stack

/-! ## Operations -/

/-- What an operation answers: the words that it hands out, topmost first. -/
abbrev Answer := Except Fault (List Word)

/-- A way to change a data stack, with what it is given. -/
inductive Operation where
  | push (word : Word)
  | pushBytes (bytes : Bytes) (hfits : bytes.length ≤ Limits.wordBytes)
  | pop
  | popMany (count : Nat)
  | dup (n : Nat)
  | swap (n : Nat)
  | truncate (height : Nat)

/-- The answer of an operation whose value stands for some words. -/
def handing {α : Type} (words : α → List Word) (result : Result α) : Answer × Stack :=
  (result.1.map words, result.2)

theorem isSome_pushBytes? {bytes : Bytes} (hfits : bytes.length ≤ Limits.wordBytes)
    (stack : Stack) : (stack.pushBytes? bytes).isSome = true := by
  rw [pushBytes?_of_le hfits, Option.isSome_some]

/-- Carries out an operation on a stack. -/
def perform (stack : Stack) : Operation → Answer × Stack
  | .push word => handing (fun _ => []) (stack.push word)
  | .pushBytes bytes hfits =>
    handing (fun _ => []) ((stack.pushBytes? bytes).get (isSome_pushBytes? hfits stack))
  | .pop => handing (fun word => [word]) stack.pop
  | .popMany count => stack.popMany count
  | .dup n => handing (fun _ => []) (stack.dup n)
  | .swap n => handing (fun _ => []) (stack.swap n)
  | .truncate height => (.ok [], stack.truncate height)

/-- Carries out operations one after the other, whether they fail or not. -/
def performAll {σ : Type} (act : σ → Operation → Answer × σ) (state : σ) :
    List Operation → List Answer × σ
  | [] => ([], state)
  | op :: rest =>
    let (answer, next) := act state op
    let (answers, last) := performAll act next rest
    (answer :: answers, last)

theorem performAll_cons {σ : Type} (act : σ → Operation → Answer × σ) (state : σ) (op : Operation)
    (rest : List Operation) :
    performAll act state (op :: rest) =
      ((act state op).1 :: (performAll act (act state op).2 rest).1,
        (performAll act (act state op).2 rest).2) := rfl

/-! ## Operations on a plain list -/

/-- Puts a word in front of a list, unless that has as many words as a stack may have. -/
def pushEffect (words : List Word) (word : Word) : Except Fault (List Word × List Word) :=
  if words.length = Limits.stack then .error .stackOverflow else .ok ([], word :: words)

/-- The words that an operation hands out from a plain list, topmost first, and the list that it
leaves. -/
def Operation.effect (words : List Word) : Operation → Except Fault (List Word × List Word)
  | push word => pushEffect words word
  | pushBytes bytes _ => pushEffect words (BitVec.ofNat 256 (Bytes.toNat bytes))
  | pop =>
    match words with
    | [] => .error .stackUnderflow
    | word :: rest => .ok ([word], rest)
  | popMany count =>
    if words.length < count then .error .stackUnderflow
    else .ok (words.take count, words.drop count)
  | dup 0 => .error .stackUnderflow
  | dup (depth + 1) =>
    match words[depth]? with
    | none => .error .stackUnderflow
    | some word => pushEffect words word
  | swap 0 => .error .stackUnderflow
  | swap (depth + 1) =>
    match words with
    | [] => .error .stackUnderflow
    | top :: rest =>
      match rest[depth]? with
      | none => .error .stackUnderflow
      | some word => .ok ([], word :: rest.set depth top)
  | truncate height => .ok ([], words.drop (words.length - height))

/-- The answer, and the list after it. A fault leaves the list as it was. -/
def settle (words : List Word) : Except Fault (List Word × List Word) → Answer × List Word
  | .error fault => (.error fault, words)
  | .ok (given, after) => (.ok given, after)

/-- Carries out an operation on a plain list. -/
def performOn (words : List Word) (op : Operation) : Answer × List Word :=
  settle words (op.effect words)

/-! ## The limit of a plain list -/

section
variable {words given after : List Word} {op : Operation}

theorem length_pushEffect_le (hbound : words.length ≤ Limits.stack) {word : Word}
    (heffect : pushEffect words word = .ok (given, after)) : after.length ≤ Limits.stack := by
  unfold pushEffect at heffect
  split at heffect
  · cases heffect
  · next hroom =>
    cases heffect
    -- the list is within the limit and not at it
    show words.length + 1 ≤ Limits.stack
    omega

/-- **An operation keeps a list within the limit.** -/
theorem length_effect_le (hbound : words.length ≤ Limits.stack)
    (heffect : op.effect words = .ok (given, after)) : after.length ≤ Limits.stack := by
  cases op with
  | push word => exact length_pushEffect_le hbound heffect
  | pushBytes bytes _ => exact length_pushEffect_le hbound heffect
  | pop =>
    cases words with
    | nil => cases heffect
    | cons word rest =>
      cases heffect
      exact Nat.le_of_succ_le hbound
  | popMany count =>
    simp only [Operation.effect] at heffect
    split at heffect
    · cases heffect
    · cases heffect
      exact Nat.le_trans (List.drop_sublist count words).length_le hbound
  | dup n =>
    cases n with
    | zero => cases heffect
    | succ depth =>
      simp only [Operation.effect] at heffect
      split at heffect
      · cases heffect
      · exact length_pushEffect_le hbound heffect
  | swap n =>
    cases n with
    | zero => cases heffect
    | succ depth =>
      cases words with
      | nil => cases heffect
      | cons top rest =>
        simp only [Operation.effect] at heffect
        split at heffect
        · cases heffect
        · cases heffect
          rw [List.length_cons, List.length_set]
          exact hbound
  | truncate height =>
    cases heffect
    exact Nat.le_trans (List.drop_sublist _ words).length_le hbound

theorem length_performOn_le (hbound : words.length ≤ Limits.stack) (op : Operation) :
    (performOn words op).2.length ≤ Limits.stack := by
  rw [performOn]
  cases heffect : op.effect words with
  | error fault => exact hbound
  | ok result => exact length_effect_le hbound heffect

/-- **Any sequence of operations keeps a list within the limit.** -/
theorem length_performAll_le (hbound : words.length ≤ Limits.stack) (ops : List Operation) :
    (performAll performOn words ops).2.length ≤ Limits.stack := by
  induction ops generalizing words with
  | nil => exact hbound
  | cons op rest ih => exact ih (length_performOn_le hbound op)

/-- Pushes of some words all succeed exactly if there is room for so many. -/
theorem answers_pushes_iff (pushed : List Word) (hbound : words.length ≤ Limits.stack) :
    (performAll performOn words (pushed.map .push)).1 = List.replicate pushed.length (.ok []) ↔
      words.length + pushed.length ≤ Limits.stack := by
  induction pushed generalizing words with
  | nil =>
    show [] = [] ↔ words.length ≤ Limits.stack
    simp only [hbound]
  | cons word rest ih =>
    rw [List.map_cons, performAll_cons, List.length_cons, List.replicate_succ, List.cons.injEq]
    rcases Nat.lt_or_eq_of_le hbound with hroom | hfull
    · have hpush : performOn words (.push word) = (.ok [], word :: words) := by
        rw [performOn, Operation.effect, pushEffect, if_neg (Nat.ne_of_lt hroom), settle]
      have hnext : (word :: words).length ≤ Limits.stack := hroom
      rw [hpush, eq_self, true_and, ih hnext, List.length_cons]
      omega
    · -- the first push is refused already
      have hpush : performOn words (.push word) = (.error .stackOverflow, words) := by
        rw [performOn, Operation.effect, pushEffect, if_pos hfull, settle]
      simp only [hpush, reduceCtorEq, false_and, false_iff]
      omega

end

/-! ## The list of a stack -/

/-- The words, topmost first. -/
def view (stack : Stack) : List Word := stack.toList.reverse

variable {stack : Stack}

theorem length_view (stack : Stack) : stack.view.length = stack.size := by
  rw [view, List.length_reverse, length_toList]

theorem length_view_le (stack : Stack) : stack.view.length ≤ Limits.stack := by
  rw [length_view]
  exact stack.size_le

theorem toList_of_view {words : List Word} (hview : stack.view = words) :
    stack.toList = words.reverse := by
  rw [← hview, view, List.reverse_reverse]

theorem view_of_toList {words : List Word} (hwords : stack.toList = words.reverse) :
    stack.view = words := by
  rw [view, hwords, List.reverse_reverse]

theorem eq_of_view {other : Stack} (hview : stack.view = other.view) : stack = other := by
  have hwords : stack.words = other.words := Array.toList_inj.mp (List.reverse_inj.mp hview)
  cases stack
  cases other
  cases hwords
  rfl

theorem pop_of_view {word : Word} {rest : List Word} (hview : stack.view = word :: rest) :
    ∃ after, stack.pop = (.ok word, after) ∧ after.view = rest := by
  have hwords := toList_of_view hview
  rw [List.reverse_cons] at hwords
  obtain ⟨after, hpop, hafter⟩ := pop_of_append hwords
  exact ⟨after, hpop, view_of_toList hafter⟩

theorem popMany_of_view {taken rest : List Word} (hview : stack.view = taken ++ rest) :
    ∃ after, stack.popMany taken.length = (.ok taken, after) ∧ after.view = rest := by
  have hwords := toList_of_view hview
  rw [List.reverse_append] at hwords
  obtain ⟨after, hpop, hafter⟩ := popMany_of_append hwords
  rw [List.length_reverse, List.reverse_reverse] at hpop
  exact ⟨after, hpop, view_of_toList hafter⟩

theorem peek_of_view {above below : List Word} {word : Word}
    (hview : stack.view = above ++ word :: below) : stack.peek above.length = .ok word := by
  have hwords := toList_of_view hview
  rw [List.reverse_append, List.reverse_cons, List.append_assoc, List.singleton_append] at hwords
  have hpeek := peek_of_append hwords
  rw [List.length_reverse] at hpeek
  exact hpeek

theorem dup_of_view {above below : List Word} {word : Word}
    (hview : stack.view = above ++ word :: below) :
    stack.dup (above.length + 1) = stack.push word := by
  rw [dup, if_neg (Nat.succ_ne_zero _), Nat.add_sub_cancel, peek_of_view hview]

theorem dup_of_short {depth : Nat} (hshort : stack.size ≤ depth) :
    stack.dup (depth + 1) = (.error .stackUnderflow, stack) := by
  rw [dup, if_neg (Nat.succ_ne_zero _), Nat.add_sub_cancel, peek_of_short hshort]

theorem swap_of_view {middle below : List Word} {top word : Word}
    (hview : stack.view = top :: (middle ++ word :: below)) :
    ∃ after, stack.swap (middle.length + 1) = (.ok (), after) ∧
      after.view = word :: (middle ++ top :: below) := by
  have hwords : stack.toList = below.reverse ++ word :: (middle.reverse ++ [top]) := by
    rw [toList_of_view hview]
    simp
  obtain ⟨after, hswap, hafter⟩ := swap_of_append hwords
  rw [List.length_reverse] at hswap
  refine ⟨after, hswap, view_of_toList ?_⟩
  rw [hafter]
  simp

theorem swap_of_short {n : Nat} (hshort : n = 0 ∨ stack.size ≤ n) :
    stack.swap n = (.error .stackUnderflow, stack) := by
  rw [swap, if_pos hshort]

/-- The words around the one at a depth. -/
theorem exists_view_around {depth : Nat} (hdepth : depth < stack.size) :
    ∃ above word below, stack.view = above ++ word :: below ∧ above.length = depth := by
  rw [← length_view] at hdepth
  refine ⟨stack.view.take depth, stack.view[depth], stack.view.drop (depth + 1), ?_, ?_⟩
  · rw [List.getElem_cons_drop, List.take_append_drop]
  · exact List.length_take_of_le (Nat.le_of_lt hdepth)

/-- The words around two of them: the top, and one further down. -/
theorem exists_view_between {depth : Nat} (hdepth : depth + 1 < stack.size) :
    ∃ top middle word below, stack.view = top :: (middle ++ word :: below) ∧
      middle.length = depth := by
  obtain ⟨above, word, below, hview, hlength⟩ := exists_view_around hdepth
  cases above with
  | nil => cases hlength
  | cons top middle => exact ⟨top, middle, word, below, hview, Nat.succ.inj hlength⟩

/-! ## Operations on both -/

section
variable {op : Operation}

theorem view_of_fault {fault : Fault} (hperform : stack.perform op = (.error fault, stack))
    (heffect : op.effect stack.view = .error fault) :
    Prod.map id view (stack.perform op) = performOn stack.view op := by
  rw [hperform, performOn, heffect]
  rfl

theorem view_of_done {given : List Word} {after : Stack}
    (hperform : stack.perform op = (.ok given, after))
    (heffect : op.effect stack.view = .ok (given, after.view)) :
    Prod.map id view (stack.perform op) = performOn stack.view op := by
  rw [hperform, performOn, heffect]
  rfl

end

theorem view_push (stack : Stack) (word : Word) :
    Prod.map id view (stack.perform (.push word)) = performOn stack.view (.push word) := by
  rcases Nat.lt_or_ge stack.size Limits.stack with hroom | hfull
  · obtain ⟨after, hpush, hafter⟩ := push_of_lt hroom word
    have hview : after.view = word :: stack.view := by
      rw [view, hafter, List.reverse_append]
      rfl
    apply view_of_done
    · rw [perform, hpush]
      rfl
    · rw [hview, Operation.effect, pushEffect, length_view, if_neg (Nat.ne_of_lt hroom)]
  · have hsize : stack.size = Limits.stack := Nat.le_antisymm stack.size_le hfull
    apply view_of_fault
    · rw [perform, push_of_full hfull]
      rfl
    · rw [Operation.effect, pushEffect, length_view, if_pos hsize]

theorem view_pop (stack : Stack) :
    Prod.map id view (stack.perform .pop) = performOn stack.view .pop := by
  rcases Nat.eq_zero_or_pos stack.size with hempty | hpos
  · have hnil : stack.view = [] := List.eq_nil_of_length_eq_zero (length_view stack ▸ hempty)
    apply view_of_fault
    · rw [perform, pop_of_empty hempty]
      rfl
    · rw [hnil, Operation.effect]
  · rw [← length_view] at hpos
    obtain ⟨word, rest, hview⟩ := List.exists_cons_of_length_pos hpos
    obtain ⟨after, hpop, hafter⟩ := pop_of_view hview
    apply view_of_done
    · rw [perform, hpop]
      rfl
    · rw [hview, Operation.effect, hafter]

theorem view_popMany (stack : Stack) (count : Nat) :
    Prod.map id view (stack.perform (.popMany count)) = performOn stack.view (.popMany count) := by
  rcases Nat.lt_or_ge stack.size count with hshort | henough
  · apply view_of_fault
    · rw [perform, popMany_of_short hshort]
    · rw [Operation.effect, length_view, if_pos hshort]
  · have hcount : (stack.view.take count).length = count := by
      rw [List.length_take, length_view, Nat.min_eq_left henough]
    obtain ⟨after, hpop, hafter⟩ := popMany_of_view (List.take_append_drop count stack.view).symm
    rw [hcount] at hpop
    apply view_of_done
    · rw [perform, hpop]
    · rw [Operation.effect, length_view, if_neg (Nat.not_lt.mpr henough), hafter]

theorem view_dup (stack : Stack) (n : Nat) :
    Prod.map id view (stack.perform (.dup n)) = performOn stack.view (.dup n) := by
  cases n with
  | zero => rfl
  | succ depth =>
    rcases Nat.lt_or_ge depth stack.size with hdepth | hshort
    · obtain ⟨above, word, below, hview, rfl⟩ := exists_view_around hdepth
      -- the copy is a push of the word, and so is its effect
      have heffect : (Operation.dup (above.length + 1)).effect stack.view =
          (Operation.push word).effect stack.view := by
        simp [Operation.effect, hview]
      rw [perform, dup_of_view hview, performOn, heffect]
      exact view_push stack word
    · have hnone : stack.view[depth]? = none := by
        rw [List.getElem?_eq_none_iff, length_view]
        exact hshort
      apply view_of_fault
      · rw [perform, dup_of_short hshort]
        rfl
      · simp only [Operation.effect, hnone]

theorem view_swap (stack : Stack) (n : Nat) :
    Prod.map id view (stack.perform (.swap n)) = performOn stack.view (.swap n) := by
  cases n with
  | zero => rfl
  | succ depth =>
    rcases Nat.lt_or_ge (depth + 1) stack.size with hdepth | hshort
    · obtain ⟨top, middle, word, below, hview, rfl⟩ := exists_view_between hdepth
      obtain ⟨after, hswap, hafter⟩ := swap_of_view hview
      apply view_of_done
      · rw [perform, hswap]
        rfl
      · simp [Operation.effect, hview, hafter]
    · apply view_of_fault
      · rw [perform, swap_of_short (.inr hshort)]
        rfl
      · rw [← length_view] at hshort
        cases hview : stack.view with
        | nil => rfl
        | cons top rest =>
          rw [hview, List.length_cons] at hshort
          have hnone : rest[depth]? = none :=
            List.getElem?_eq_none (Nat.le_of_succ_le_succ hshort)
          simp only [Operation.effect, hnone]

/-- **On a stack and on its list, an operation gives the same answer and leaves the same words.** -/
theorem view_perform (stack : Stack) (op : Operation) :
    Prod.map id view (stack.perform op) = performOn stack.view op := by
  cases op with
  | push word => exact view_push stack word
  | pushBytes bytes hfits =>
    -- a push of the word that the bytes write
    simp only [perform, pushBytes?_of_le hfits, Option.get_some]
    exact view_push stack (BitVec.ofNat 256 (Bytes.toNat bytes))
  | pop => exact view_pop stack
  | popMany count => exact view_popMany stack count
  | dup n => exact view_dup stack n
  | swap n => exact view_swap stack n
  | truncate height =>
    have hview : (stack.truncate height).view =
        stack.view.drop (stack.view.length - height) := by
      rw [view, toList_truncate, List.reverse_take, length_view, length_toList, view]
    apply view_of_done
    · rw [perform]
    · rw [hview, Operation.effect]

theorem answer_performOn (stack : Stack) (op : Operation) :
    (performOn stack.view op).1 = (stack.perform op).1 := by
  rw [← view_perform]
  rfl

theorem list_performOn (stack : Stack) (op : Operation) :
    (performOn stack.view op).2 = (stack.perform op).2.view := by
  rw [← view_perform]
  rfl

/-- **So do any operations in sequence.** -/
theorem view_performAll (stack : Stack) (ops : List Operation) :
    Prod.map id view (performAll perform stack ops) = performAll performOn stack.view ops := by
  induction ops generalizing stack with
  | nil => rfl
  | cons op rest ih =>
    rw [performAll_cons, performAll_cons, answer_performOn, list_performOn, ← ih]
    rfl

/-! ## What the operations promise -/

/-- What the operations promise on a stack. Those that are made of single pushes and pops are said
in terms of these. -/
structure Lawful (stack : Stack) : Prop where
  /-- An operation that fails leaves the words as they are. -/
  unchanged : ∀ op fault, (stack.perform op).1 = .error fault → (stack.perform op).2 = stack
  /-- More words than there are cannot be taken off. -/
  popMany_short : ∀ count, stack.size < count →
    stack.popMany count = (.error .stackUnderflow, stack)
  /-- Otherwise they are those that `count` pops give, topmost first. -/
  popMany_pops : ∀ count, count ≤ stack.size → ∃ words after,
    stack.popMany count = (.ok words, after) ∧
      performAll perform stack (List.replicate count .pop) =
        (words.map fun word => .ok [word], after)
  /-- A copy fails for want of the word, and only then for want of room. -/
  dup_answer : ∀ n, (stack.dup n).1 =
    if n = 0 ∨ stack.size < n then .error .stackUnderflow
    else if stack.size = Limits.stack then .error .stackOverflow
    else .ok ()
  /-- An exchange undoes itself, or fails twice. -/
  swap_twice : ∀ n, (stack.swap n).2.swap n = ((stack.swap n).1, stack)
  /-- There is space for `count` words exactly if so many pushes all succeed. Counts do not wrap
  around. -/
  hasSpace_iff : ∀ count, stack.hasSpace count = true ↔ ∀ words : List Word,
    words.length = count →
      (performAll perform stack (words.map .push)).1 = List.replicate count (.ok [])

theorem unchanged_of_error {op : Operation} {fault : Fault}
    (hfault : (stack.perform op).1 = .error fault) : (stack.perform op).2 = stack := by
  apply eq_of_view
  rw [← list_performOn]
  rw [← answer_performOn] at hfault
  unfold performOn at hfault ⊢
  -- the answer is a fault only if the effect is one, and then the list stays
  cases heffect : op.effect stack.view with
  | error _ => rfl
  | ok result =>
    rw [heffect] at hfault
    cases hfault

/-- Pops give the topmost words, one by one. -/
theorem pops_of_view {taken rest : List Word} (hview : stack.view = taken ++ rest) :
    ∃ after, performAll perform stack (List.replicate taken.length .pop) =
      (taken.map fun word => .ok [word], after) ∧ after.view = rest := by
  induction taken generalizing stack with
  | nil => exact ⟨stack, rfl, hview⟩
  | cons word taken ih =>
    obtain ⟨next, hpop, hnext⟩ := pop_of_view hview
    obtain ⟨after, hpops, hafter⟩ := ih hnext
    have hperform : stack.perform .pop = (.ok [word], next) := by
      rw [perform, hpop]
      rfl
    refine ⟨after, ?_, hafter⟩
    rw [List.length_cons, List.replicate_succ, performAll_cons, hperform, hpops]
    rfl

theorem popMany_eq_pops {count : Nat} (henough : count ≤ stack.size) :
    ∃ words after, stack.popMany count = (.ok words, after) ∧
      performAll perform stack (List.replicate count .pop) =
        (words.map fun word => .ok [word], after) := by
  have hview := (List.take_append_drop count stack.view).symm
  have hcount : (stack.view.take count).length = count := by
    rw [List.length_take, length_view, Nat.min_eq_left henough]
  obtain ⟨after, hpop, hafter⟩ := popMany_of_view hview
  obtain ⟨last, hpops, hlast⟩ := pops_of_view hview
  -- both ways leave the same words
  obtain rfl : after = last := eq_of_view (hafter.trans hlast.symm)
  rw [hcount] at hpop hpops
  exact ⟨_, after, hpop, hpops⟩

theorem dup_answer (stack : Stack) (n : Nat) :
    (stack.dup n).1 =
      if n = 0 ∨ stack.size < n then .error .stackUnderflow
      else if stack.size = Limits.stack then .error .stackOverflow
      else .ok () := by
  by_cases hn : n = 0
  · rw [dup, if_pos hn, if_pos (.inl hn)]
  have hdup := rewrites_dup hn
  have hle := stack.size_le
  rcases Nat.lt_or_ge stack.size n with hshort | henough
  · rw [hdup.short stack hshort, if_pos (.inr hshort)]
  · rw [if_neg (by omega)]
    rcases hdup.cases_of_le henough with ⟨hfull, hfails⟩ | ⟨hroom, after, hdone, _⟩
    · rw [hfails, if_pos (by omega)]
    · rw [hdone, if_neg (by omega)]

theorem swap_twice (stack : Stack) (n : Nat) :
    (stack.swap n).2.swap n = ((stack.swap n).1, stack) := by
  by_cases hshort : n = 0 ∨ stack.size ≤ n
  · rw [swap_of_short hshort, swap_of_short hshort]
  · obtain ⟨hn, hnot⟩ := not_or.mp hshort
    obtain ⟨depth, rfl⟩ := Nat.exists_eq_succ_of_ne_zero hn
    obtain ⟨top, middle, word, below, hview, hdepth⟩ := exists_view_between (Nat.not_le.mp hnot)
    obtain ⟨once, hswap, honce⟩ := swap_of_view hview
    obtain ⟨twice, hback, htwice⟩ := swap_of_view honce
    have hsame : twice = stack := eq_of_view (htwice.trans hview.symm)
    rw [← hdepth, hswap, hback, hsame]

theorem hasSpace_iff_pushes (stack : Stack) (count : Nat) :
    stack.hasSpace count = true ↔ ∀ words : List Word, words.length = count →
      (performAll perform stack (words.map .push)).1 = List.replicate count (.ok []) := by
  have hpushes (words : List Word) :
      (performAll perform stack (words.map .push)).1 = List.replicate words.length (.ok []) ↔
        stack.size + words.length ≤ Limits.stack := by
    have hiff := answers_pushes_iff words stack.length_view_le
    rw [← view_performAll, length_view] at hiff
    exact hiff
  rw [hasSpace, decide_eq_true_iff]
  constructor
  · rintro hspace words rfl
    exact (hpushes words).mpr hspace
  · intro hall
    have hzeros := hall (List.replicate count 0) List.length_replicate
    have hspace := hpushes (List.replicate count 0)
    rw [List.length_replicate] at hspace
    exact hspace.mp hzeros

theorem lawful (stack : Stack) : stack.Lawful where
  unchanged _ _ := unchanged_of_error
  popMany_short _ := popMany_of_short
  popMany_pops _ := popMany_eq_pops
  dup_answer := stack.dup_answer
  swap_twice := stack.swap_twice
  hasSpace_iff := stack.hasSpace_iff_pushes

/-! ## From the empty stack -/

/-- **The data stack refines a plain list.** Whatever operations follow one another from the empty
stack on, they answer as they do on a plain list that starts empty, and leave the same words, never
more than 1024. On the stack that they lead to, an operation that fails changes nothing. Several
words are taken off exactly if there are so many, and are those that single pops give. A copy fails
by underflow exactly if there is no such word, and otherwise by overflow exactly if the stack is
full. An exchange made twice cancels out. There is space for some words exactly if pushing so many
succeeds. -/
theorem stack_refines_list (ops : List Operation) :
    let reached := performAll perform empty ops
    let listed := performAll performOn [] ops
    reached.1 = listed.1 ∧ reached.2.view = listed.2 ∧
      listed.2.length ≤ 1024 ∧ reached.2.size = listed.2.length ∧ reached.2.Lawful := by
  intro reached listed
  have hview : Prod.map id view reached = listed := view_performAll empty ops
  have hbound : listed.2.length ≤ Limits.stack := length_performAll_le (Nat.zero_le _) ops
  rw [← hview] at hbound ⊢
  exact ⟨rfl, rfl, hbound, (length_view reached.2).symm, reached.2.lawful⟩

/-- Three words, the lowest copied to the top and exchanged with the one below it; then there is no
word at depth four, and no fifth one to copy. -/
example : performAll perform empty [.push 1, .push 2, .push 3, .dup 3, .swap 1, .swap 4, .dup 5] =
    ([.ok [], .ok [], .ok [], .ok [], .ok [], .error .stackUnderflow, .error .stackUnderflow],
      ⟨#[1, 2, 1, 3], by decide⟩) := by
  rfl

end EvmObject.Machine.Stack
