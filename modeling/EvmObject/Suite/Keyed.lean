/-!
# Entries in the order of their keys

A finite map from texts, kept as a list of entries with strictly ascending keys. Texts are compared
character by character by code point. Main statement: `get?_alter`, changing the entry of a key
leaves all others as they are.
-/

namespace EvmObject.Suite

/-- A finite map from texts. -/
structure Keyed (α : Type) where
  /-- The keys with their values. -/
  entries : List (String × α)
  ascending : entries.Pairwise fun a b => a.1 < b.1
  deriving DecidableEq, Repr

namespace Keyed

variable {α : Type}

/-- No keys. -/
def empty : Keyed α := ⟨[], .nil⟩

/-- The value of a key. -/
def get? (keyed : Keyed α) (key : String) : Option α := keyed.entries.lookup key

/-! ## Changing one entry -/

/-- Changes the value of a key in ascending entries; it may not have one yet. -/
def alterIn (key : String) (change : Option α → α) : List (String × α) → List (String × α)
  | [] => [(key, change none)]
  | (k, value) :: rest =>
    if k = key then (k, change (some value)) :: rest
    else if key < k then (key, change none) :: (k, value) :: rest
    else (k, value) :: alterIn key change rest

/-- No other key comes in. -/
theorem key_of_mem_alterIn {key : String} {change : Option α → α} {entries : List (String × α)}
    {entry : String × α} (mem : entry ∈ alterIn key change entries) :
    entry.1 = key ∨ ∃ old ∈ entries, old.1 = entry.1 := by
  fun_induction alterIn key change entries <;> grind

/-- Ascending entries stay ascending. -/
theorem ascending_alterIn (key : String) (change : Option α → α) {entries : List (String × α)}
    (ascending : entries.Pairwise fun a b => a.1 < b.1) :
    (alterIn key change entries).Pairwise fun a b => a.1 < b.1 := by
  fun_induction alterIn key change entries with
  | case1 => simp
  | case2 => exact .cons (fun _ mem => List.rel_of_pairwise_cons ascending mem) ascending.of_cons
  | case3 k value rest apart less =>
    have above : ∀ entry ∈ rest, k < entry.1 := fun _ => List.rel_of_pairwise_cons ascending
    refine .cons (fun entry mem => ?_) ascending
    rcases List.mem_cons.mp mem with rfl | mem
    · exact less
    · exact String.lt_trans less (above entry mem)
  | case4 k value rest apart less ih =>
    have above : ∀ entry ∈ rest, k < entry.1 := fun _ => List.rel_of_pairwise_cons ascending
    refine .cons (fun entry mem => ?_) (ih ascending.of_cons)
    rcases key_of_mem_alterIn mem with same | ⟨old, mem, same⟩
    · grind
    · exact same ▸ above old mem

/-- Changes the value of a key, which may not have one yet. -/
def alter (key : String) (change : Option α → α) (keyed : Keyed α) : Keyed α :=
  ⟨alterIn key change keyed.entries, ascending_alterIn key change keyed.ascending⟩

/-- The changed key has the changed value, and all others keep theirs. -/
theorem get?_alter (key other : String) (change : Option α → α) (keyed : Keyed α) :
    (keyed.alter key change).get? other =
      if other = key then some (change (keyed.get? key)) else keyed.get? other := by
  obtain ⟨entries, ascending⟩ := keyed
  simp only [alter, get?]
  fun_induction alterIn key change entries with
  | case1 => grind
  | case2 => grind
  | case3 k value rest apart less =>
    have absent : List.lookup key ((k, value) :: rest) = none := by
      refine List.lookup_eq_none_iff.mpr fun entry mem => ?_
      rcases List.mem_cons.mp mem with rfl | mem
      · simpa using Ne.symm apart
      · have above := List.rel_of_pairwise_cons ascending mem
        grind
    rw [absent, List.lookup_cons]
    by_cases same : other = key
    · simp [same]
    · simp [same, beq_false_of_ne same]
  | case4 k value rest apart less ih =>
    have := ih ascending.of_cons
    grind

/-! ## Operations -/

/-- Gives a key a value, in place of the one it may have. -/
def put (key : String) (value : α) (keyed : Keyed α) : Keyed α :=
  keyed.alter key fun _ => value

/-- Adds to the count of a key. -/
def count (key : String) (amount : Nat) (keyed : Keyed Nat) : Keyed Nat :=
  keyed.alter key fun old => old.getD 0 + amount

/-- Puts entries in order; of two with the same key the later one stays. -/
def ofEntries (entries : List (String × α)) : Keyed α :=
  entries.foldl (fun keyed (key, value) => keyed.put key value) empty

end Keyed

end EvmObject.Suite
