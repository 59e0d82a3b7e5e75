import EvmObject.Machine.Stack

/-!
# The data stack as a list

`Stack.toList` is the view that the proofs take: the words, bottom first. Each operation is stated
through it, on a stack that is known as what lies below and what is taken off.

`Stack.Rewrites` is what the instructions of a stack machine have in common. Such an operation
replaces the topmost words by others, and what it puts there depends on the words it took and on
nothing below them. If there are too few words, or too many afterwards, it fails and does nothing.
What follows from that is stated for a base in the stack that the taken words do not reach: the
words below the base stay (`Rewrites.sameBelow`), and what happens above does not depend on them
(`Rewrites.sameAbove`).
-/

namespace EvmObject.Machine.Stack

/-- The words, bottom first. -/
def toList (stack : Stack) : List Word := stack.words.toList

variable {stack left right : Stack}

@[simp] theorem toList_empty : empty.toList = [] := rfl

theorem length_toList (stack : Stack) : stack.toList.length = stack.size := Array.length_toList

theorem size_le (stack : Stack) : stack.size ≤ Limits.stack := stack.bounded

theorem length_le_of_append {below taken : List Word} (hwords : stack.toList = below ++ taken) :
    below.length + taken.length ≤ Limits.stack := by
  rw [← List.length_append, ← hwords, length_toList]
  exact stack.size_le

/-! ## One word -/

theorem push_of_lt (hroom : stack.size < Limits.stack) (word : Word) :
    ∃ after, stack.push word = (.ok (), after) ∧ after.toList = stack.toList ++ [word] := by
  have hless : stack.words.size < Limits.stack := hroom
  refine ⟨⟨stack.words.push word, ?_⟩, ?_, Array.toList_push⟩
  · rw [Array.size_push]
    exact hless
  · rw [push, dif_pos hless]

theorem push_of_full (hfull : Limits.stack ≤ stack.size) (word : Word) :
    stack.push word = (.error .stackOverflow, stack) := by
  have hnot : ¬ stack.words.size < Limits.stack := Nat.not_lt.mpr hfull
  rw [push, dif_neg hnot]

theorem pushBytes?_of_le {bytes : Bytes} (hfits : bytes.length ≤ Limits.wordBytes)
    (stack : Stack) :
    stack.pushBytes? bytes = some (stack.push (BitVec.ofNat 256 (Bytes.toNat bytes))) := by
  rw [pushBytes?, Word.ofBytes?, if_pos hfits, Option.map_some]

theorem peek_of_append {below above : List Word} {word : Word}
    (hwords : stack.toList = below ++ word :: above) : stack.peek above.length = .ok word := by
  have hsize : stack.words.size = below.length + (above.length + 1) := by
    rw [← Array.length_toList, show stack.words.toList = _ from hwords, List.length_append,
      List.length_cons]
  have hdepth : above.length < stack.words.size := by omega
  have hindex : stack.words.size - 1 - above.length = below.length := by omega
  rw [peek, dif_pos hdepth, Except.ok.injEq]
  apply Option.some.inj
  rw [← Array.getElem?_eq_getElem, hindex, ← Array.getElem?_toList,
    show stack.words.toList = _ from hwords, List.getElem?_append_right (Nat.le_refl _),
    Nat.sub_self, List.getElem?_cons_zero]

theorem peek_of_short {depth : Nat} (hshort : stack.size ≤ depth) :
    stack.peek depth = .error .stackUnderflow := by
  have hnot : ¬ depth < stack.words.size := Nat.not_lt.mpr hshort
  rw [peek, dif_neg hnot]

theorem peek_eq_error_iff {depth : Nat} {fault : Fault} :
    stack.peek depth = .error fault ↔ stack.size ≤ depth ∧ fault = .stackUnderflow := by
  constructor
  · intro hpeek
    unfold peek at hpeek
    split at hpeek
    · cases hpeek
    · next hshort => exact ⟨Nat.le_of_not_lt hshort, (Except.error.inj hpeek).symm⟩
  · rintro ⟨hshort, rfl⟩
    exact peek_of_short hshort

@[simp] theorem toList_truncate (stack : Stack) (height : Nat) :
    (stack.truncate height).toList = stack.toList.take height := by
  show (stack.words.shrink height).toList = stack.words.toList.take height
  simp

theorem toList_truncate_of_append {below taken : List Word}
    (hwords : stack.toList = below ++ taken) :
    (stack.truncate (stack.size - taken.length)).toList = below := by
  rw [toList_truncate, ← length_toList, hwords, List.length_append, Nat.add_sub_cancel]
  exact List.take_left' rfl

theorem pop_of_append {below : List Word} {word : Word}
    (hwords : stack.toList = below ++ [word]) :
    ∃ after, stack.pop = (.ok word, after) ∧ after.toList = below := by
  have hpeek : stack.peek 0 = .ok word := peek_of_append hwords
  refine ⟨stack.truncate (stack.size - 1), ?_, toList_truncate_of_append hwords⟩
  rw [pop, hpeek]

theorem pop_of_empty (hempty : stack.size = 0) : stack.pop = (.error .stackUnderflow, stack) := by
  rw [pop, peek_of_short (Nat.le_of_eq hempty)]

/-! ## Several words -/

theorem popMany_of_append {below taken : List Word} (hwords : stack.toList = below ++ taken) :
    ∃ after, stack.popMany taken.length = (.ok taken.reverse, after) ∧ after.toList = below := by
  have hsize : stack.size = below.length + taken.length := by
    rw [← length_toList, hwords, List.length_append]
  have htaken : (stack.words.extract below.length stack.size).toList = taken := by
    rw [Array.toList_extract, List.extract_eq_take_drop, show stack.words.toList = _ from hwords,
      List.drop_left' rfl, hsize, Nat.add_sub_cancel_left]
    exact List.take_of_length_le (Nat.le_refl _)
  refine ⟨stack.truncate (stack.size - taken.length), ?_, toList_truncate_of_append hwords⟩
  rw [popMany, if_neg (by omega)]
  simp only [hsize, Nat.add_sub_cancel] at htaken ⊢
  rw [htaken]

theorem popMany_of_short {count : Nat} (hshort : stack.size < count) :
    stack.popMany count = (.error .stackUnderflow, stack) := by
  rw [popMany, if_pos hshort]

theorem pushAll_of_le {words : List Word} (hroom : stack.size + words.length ≤ Limits.stack) :
    ∃ after, stack.pushAll words = (.ok (), after) ∧ after.toList = stack.toList ++ words := by
  induction words generalizing stack with
  | nil => exact ⟨stack, rfl, (List.append_nil _).symm⟩
  | cons word rest ih =>
    rw [List.length_cons] at hroom
    have hless : stack.size < Limits.stack := by omega
    obtain ⟨next, hpush, hnext⟩ := push_of_lt hless word
    have hsize : next.size = stack.size + 1 := by
      rw [← length_toList, hnext, List.length_append, length_toList, List.length_singleton]
    have hrestRoom : next.size + rest.length ≤ Limits.stack := by omega
    obtain ⟨after, hrest, hafter⟩ := ih hrestRoom
    refine ⟨after, ?_, ?_⟩
    · rw [pushAll, hpush]
      exact hrest
    · rw [hafter, hnext, List.append_assoc]
      rfl

/-! ## Operations on the topmost words -/

/-- The operation replaces the topmost `inputs` words by `outputs` others that `f` makes of them. It
fails for want of words, then for want of room, and does nothing when it fails. -/
structure Rewrites (act : Stack → Result Unit) (inputs outputs : Nat)
    (f : List Word → List Word) : Prop where
  length_eq : ∀ taken, taken.length = inputs → (f taken).length = outputs
  short : ∀ stack, stack.size < inputs → act stack = (.error .stackUnderflow, stack)
  full : ∀ stack, inputs ≤ stack.size → Limits.stack < stack.size - inputs + outputs →
    act stack = (.error .stackOverflow, stack)
  done : ∀ stack below taken, stack.toList = below ++ taken → taken.length = inputs →
    below.length + outputs ≤ Limits.stack →
      ∃ after, act stack = (.ok (), after) ∧ after.toList = below ++ f taken

/-- An operation that leaves no more words than it takes always has room. -/
theorem rewrites_of_le {act : Stack → Result Unit} {inputs outputs : Nat}
    {f : List Word → List Word} (hle : outputs ≤ inputs)
    (hlength : ∀ taken, taken.length = inputs → (f taken).length = outputs)
    (hshort : ∀ stack, stack.size < inputs → act stack = (.error .stackUnderflow, stack))
    (hdone : ∀ stack below taken, stack.toList = below ++ taken → taken.length = inputs →
      ∃ after, act stack = (.ok (), after) ∧ after.toList = below ++ f taken) :
    Rewrites act inputs outputs f where
  length_eq := hlength
  short := hshort
  full stack henough hfull := by
    have := stack.size_le
    omega
  done stack below taken hwords htaken _ := hdone stack below taken hwords htaken

theorem rewrites_push (word : Word) : Rewrites (push · word) 0 1 fun _ => [word] where
  length_eq _ _ := rfl
  short stack hshort := absurd hshort (Nat.not_lt_zero _)
  full stack _ hfull := push_of_full (by omega) word
  done stack below taken hwords htaken hroom := by
    obtain rfl := List.eq_nil_of_length_eq_zero htaken
    rw [List.append_nil] at hwords
    rw [← hwords] at hroom ⊢
    exact push_of_lt (by rw [← length_toList]; omega) word

theorem rewrites_dup {n : Nat} (hn : n ≠ 0) :
    Rewrites (dup · n) n (n + 1) fun taken => taken ++ taken.take 1 where
  length_eq taken htaken := by
    rw [List.length_append, List.length_take]
    omega
  short stack hshort := by
    show stack.dup n = _
    rw [dup, if_neg hn, peek_of_short (by omega)]
  full stack henough hfull := by
    have hle := stack.size_le
    have hdepth : n - 1 < stack.words.size := by
      show n - 1 < stack.size
      omega
    show stack.dup n = _
    rw [dup, if_neg hn, peek, dif_pos hdepth]
    exact push_of_full (by omega) _
  done stack below taken hwords htaken hroom := by
    -- the lowest of the taken words is the one that is copied
    cases taken with
    | nil => exact absurd htaken.symm hn
    | cons word rest =>
      have hpeek := peek_of_append hwords
      rw [List.length_cons] at htaken
      rw [show rest.length = n - 1 by omega] at hpeek
      have hsize : stack.size < Limits.stack := by
        rw [← length_toList, hwords, List.length_append, List.length_cons]
        omega
      obtain ⟨after, hpush, hafter⟩ := push_of_lt hsize word
      refine ⟨after, ?_, ?_⟩
      · show stack.dup n = _
        rw [dup, if_neg hn, hpeek]
        exact hpush
      · rw [hafter, hwords, List.append_assoc]
        rfl

/-- Exchanges the first and the last word of a list. -/
def exchangeEnds : List Word → List Word
  | [] => []
  | word :: rest =>
    match rest.getLast? with
    | none => [word]
    | some last => last :: (rest.dropLast ++ [word])

theorem exchangeEnds_cons_append (first last : Word) (middle : List Word) :
    exchangeEnds (first :: (middle ++ [last])) = last :: (middle ++ [first]) := by
  simp [exchangeEnds]

/-- The top goes where the lowest of the taken words was, and the words between them stay. -/
theorem swap_of_append {below middle : List Word} {first last : Word}
    (hwords : stack.toList = below ++ first :: (middle ++ [last])) :
    ∃ after, stack.swap (middle.length + 1) = (.ok (), after) ∧
      after.toList = below ++ last :: (middle ++ [first]) := by
  have hsize : stack.size = below.length + (middle.length + 2) := by
    rw [← length_toList, hwords]
    simp
  have henough : ¬ (middle.length + 1 = 0 ∨ stack.size ≤ middle.length + 1) := by omega
  refine ⟨_, by rw [swap, if_neg henough], ?_⟩
  have htop : stack.size - 1 = below.length + (middle.length + 1) := by omega
  have hdepth : stack.size - 1 - (middle.length + 1) = below.length := by omega
  simp only [toList, htop, Nat.add_sub_cancel]
  have hupper : below.length + (middle.length + 1) < stack.words.size := by
    show _ < stack.size
    omega
  have hlower : below.length < stack.words.size := by omega
  have hfirst : stack.words[below.length] = first := by
    rw [← Array.getElem_toList]
    simp [show stack.words.toList = _ from hwords]
  have hlast : stack.words[below.length + (middle.length + 1)] = last := by
    rw [← Array.getElem_toList]
    simp [show stack.words.toList = _ from hwords]
  rw [Array.swapIfInBounds_def, dif_pos hupper, dif_pos hlower, Array.toList_swap, hfirst, hlast,
    show stack.words.toList = _ from hwords]
  simp

theorem rewrites_swap {n : Nat} (hn : n ≠ 0) :
    Rewrites (swap · n) (n + 1) (n + 1) exchangeEnds := by
  have hends (taken : List Word) (htaken : taken.length = n + 1) :
      ∃ first middle last, taken = first :: (middle ++ [last]) ∧ middle.length + 1 = n := by
    match taken with
    | first :: rest =>
      rw [List.length_cons, Nat.succ.injEq] at htaken
      have hne : rest ≠ [] := fun hnil => hn (by rw [← htaken, hnil, List.length_nil])
      refine ⟨first, rest.dropLast, rest.getLast hne, ?_, ?_⟩
      · rw [List.dropLast_concat_getLast]
      · rw [List.length_dropLast]
        omega
  apply rewrites_of_le (Nat.le_refl _)
  · intro taken htaken
    obtain ⟨first, middle, last, rfl, _⟩ := hends taken htaken
    rw [exchangeEnds_cons_append, ← htaken]
    simp
  · intro stack hshort
    rw [swap, if_pos (.inr (Nat.le_of_lt_succ hshort))]
  · intro stack below taken hwords htaken
    obtain ⟨first, middle, last, rfl, rfl⟩ := hends taken htaken
    rw [exchangeEnds_cons_append]
    exact swap_of_append hwords

/-! ## A base that the taken words do not reach -/

/-- The stacks hold the same words below a height. -/
def SameBelow (height : Nat) (left right : Stack) : Prop :=
  left.toList.take height = right.toList.take height

/-- The stacks are equally high and hold the same words from a height on. -/
structure SameAbove (height : Nat) (left right : Stack) : Prop where
  size_eq : left.size = right.size
  drop_eq : left.toList.drop height = right.toList.drop height

/-- A stack that has the words below a height is at least as high. -/
theorem SameBelow.le_size {height : Nat} (hsame : SameBelow height left right)
    (hheight : height ≤ right.size) : height ≤ left.size := by
  have hlength := congrArg List.length hsame
  rw [List.length_take, List.length_take, length_toList, length_toList] at hlength
  omega

theorem SameBelow.trans {height : Nat} {other : Stack} (hleft : SameBelow height left right)
    (hright : SameBelow height right other) : SameBelow height left other :=
  Eq.trans hleft hright

theorem toList_pop (stack : Stack) : stack.pop.2.toList = stack.toList.dropLast := by
  rw [pop]
  split
  · next fault hpeek =>
    -- there is no word to take off
    unfold peek at hpeek
    split at hpeek
    · cases hpeek
    · next hempty =>
      have hnil : stack.toList.length = 0 := by
        rw [length_toList]
        exact Nat.eq_zero_of_not_pos hempty
      rw [List.eq_nil_of_length_eq_zero hnil]
      rfl
  · rw [toList_truncate, List.dropLast_eq_take, length_toList]

theorem SameBelow.pop {height : Nat} (hheight : height < stack.size) :
    SameBelow height stack.pop.2 stack := by
  rw [SameBelow, toList_pop, List.dropLast_eq_take, List.take_take, length_toList]
  rw [Nat.min_eq_left (by omega)]

theorem SameAbove.pop {height : Nat} (hsame : SameAbove height left right)
    (hheight : height < left.size) :
    left.peek 0 = right.peek 0 ∧ SameAbove height left.pop.2 right.pop.2 := by
  obtain ⟨hsize, hdrop⟩ := hsame
  refine ⟨?_, ?_, ?_⟩
  · -- the top word is the last of those above the height
    have htop (stack : Stack) (hheight : height < stack.size) :
        stack.peek 0 = .ok ((stack.toList.drop height).getLast?.getD 0) := by
      have hne : stack.toList ≠ [] := by
        intro hnil
        rw [← length_toList, hnil] at hheight
        exact absurd hheight (Nat.not_lt_zero _)
      have hlast : stack.peek 0 = .ok (stack.toList.getLast hne) :=
        peek_of_append (List.dropLast_concat_getLast hne).symm
      have hbelow : ¬ stack.toList.length ≤ height := by
        rw [length_toList]
        omega
      rw [List.getLast?_drop, if_neg hbelow, List.getLast?_eq_some_getLast hne]
      exact hlast
    rw [htop left hheight, htop right (hsize ▸ hheight), hdrop]
  · rw [← length_toList, ← length_toList, toList_pop, toList_pop, List.length_dropLast,
      List.length_dropLast, length_toList, length_toList, hsize]
  · rw [toList_pop, toList_pop, List.dropLast_eq_take, List.dropLast_eq_take, List.drop_take,
      List.drop_take, hdrop, length_toList, length_toList, hsize]

namespace Rewrites

variable {act : Stack → Result Unit} {inputs outputs base : Nat} {f : List Word → List Word}
  (hact : Rewrites act inputs outputs f)
include hact

/-- A stack with enough words is what lies below the taken words, and these. -/
theorem cases_of_le (henough : inputs ≤ stack.size) :
    (Limits.stack < stack.size - inputs + outputs ∧ act stack = (.error .stackOverflow, stack)) ∨
      (stack.size - inputs + outputs ≤ Limits.stack ∧ ∃ after, act stack = (.ok (), after) ∧
        after.toList = stack.toList.take (stack.size - inputs) ++
          f (stack.toList.drop (stack.size - inputs))) := by
  rcases Nat.lt_or_ge Limits.stack (stack.size - inputs + outputs) with hfull | hroom
  · exact .inl ⟨hfull, hact.full stack henough hfull⟩
  · refine .inr ⟨hroom, hact.done stack _ _ (List.take_append_drop _ _).symm ?_ ?_⟩
    · rw [List.length_drop, length_toList]
      omega
    · rw [List.length_take, length_toList]
      omega

/-- **An operation that fails does nothing.** -/
theorem eq_of_error {fault : Fault} (hfault : (act stack).1 = .error fault) :
    act stack = (.error fault, stack) := by
  rcases Nat.lt_or_ge stack.size inputs with hshort | henough
  · have hfails := hact.short stack hshort
    rw [hfails] at hfault ⊢
    rw [Except.error.inj hfault]
  · rcases hact.cases_of_le henough with ⟨_, hfails⟩ | ⟨_, after, hdone, _⟩
    · rw [hfails] at hfault ⊢
      rw [Except.error.inj hfault]
    · rw [hdone] at hfault
      cases hfault

/-- **What lies below the taken words stays.** -/
theorem sameBelow (hreach : base + inputs ≤ stack.size) : SameBelow base (act stack).2 stack := by
  have henough : inputs ≤ stack.size := by omega
  rcases hact.cases_of_le henough with ⟨_, hfails⟩ | ⟨_, after, hdone, hafter⟩
  · rw [hfails]
    exact rfl
  · rw [SameBelow, hdone, hafter, List.take_append_of_le_length, List.take_take]
    · rw [Nat.min_eq_left (by omega)]
    · rw [List.length_take, length_toList]
      omega

/-- **What happens above a base does not depend on the words below it.** -/
theorem sameAbove (hsame : SameAbove base left right) (hreach : base + inputs ≤ left.size) :
    (act left).1 = (act right).1 ∧ SameAbove base (act left).2 (act right).2 := by
  obtain ⟨hsize, hdrop⟩ := hsame
  -- the taken words lie above the base, and are the same in both stacks
  have hshift (stack : Stack) (hreach : base + inputs ≤ stack.size) :
      stack.toList.drop (stack.size - inputs) =
        (stack.toList.drop base).drop (stack.size - inputs - base) := by
    rw [List.drop_drop, Nat.add_sub_cancel' (by omega)]
  have htaken : left.toList.drop (left.size - inputs) = right.toList.drop (left.size - inputs) := by
    rw [hshift left hreach, hdrop, hsize, ← hshift right (hsize ▸ hreach)]
  have hbetween : (left.toList.take (left.size - inputs)).drop base =
      (right.toList.take (left.size - inputs)).drop base := by
    rw [List.drop_take, List.drop_take, hdrop]
  have hleft : inputs ≤ left.size := by omega
  have hright : inputs ≤ right.size := by omega
  rcases hact.cases_of_le hleft with ⟨hfull, hfails⟩ | ⟨hroom, after, hdone, hafter⟩
  · have hfails' := hact.full right hright (hsize ▸ hfull)
    rw [hfails, hfails']
    exact ⟨rfl, hsize, hdrop⟩
  · rcases hact.cases_of_le hright with ⟨hfull, _⟩ | ⟨_, after', hdone', hafter'⟩
    · omega
    · rw [← hsize, ← htaken] at hafter'
      rw [hdone, hdone']
      refine ⟨rfl, ?_, ?_⟩
      · show after.size = after'.size
        rw [← length_toList, ← length_toList, hafter, hafter', List.length_append,
          List.length_append, List.length_take, List.length_take, length_toList, length_toList,
          hsize]
      · show after.toList.drop base = after'.toList.drop base
        have hlength (stack : Stack) (hsame : stack.size = left.size) :
            base ≤ (stack.toList.take (left.size - inputs)).length := by
          rw [List.length_take, length_toList]
          omega
        rw [hafter, hafter', List.drop_append_of_le_length (hlength left rfl),
          List.drop_append_of_le_length (hlength right hsize.symm), hbetween]

end Rewrites

end EvmObject.Machine.Stack
