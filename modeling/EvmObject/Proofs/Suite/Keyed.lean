import Mathlib.Algebra.GroupWithZero.Nat
import Mathlib.Data.List.Sort
import EvmObject.Suite.Keyed

/-!
# Counts under keys

A `Keyed` is determined by its values (`ext_get?`), since its entries are in order and no key
occurs twice. Counts are added to counts in the order in which the one side holds them, but what
comes out at a key is the sum of what the two sides hold there (`get?_foldl_count`), and over all
keys the sum of the two sides (`sum_foldl_count`).
-/

namespace EvmObject.Suite.Keyed

/-! ## Values determine a map -/

section
variable {α : Type}

theorem mem_iff_lookup {entries : List (String × α)}
    (hascending : entries.Pairwise fun a b => a.1 < b.1) {key : String} {value : α} :
    (key, value) ∈ entries ↔ entries.lookup key = some value := by
  induction hascending with
  | nil => simp
  | @cons entry rest hbelow _ ih =>
    obtain ⟨k, v⟩ := entry
    rw [List.lookup_cons]
    by_cases hkey : key = k
    · subst hkey
      -- no entry behind has the key, since all of those are above it
      have habsent : (key, value) ∉ rest := fun hmem => String.lt_irrefl _ (hbelow (key, value) hmem)
      simp [habsent, eq_comm]
    · simp [hkey, beq_false_of_ne hkey, ih]

theorem mem_entries_iff {keyed : Keyed α} {key : String} {value : α} :
    (key, value) ∈ keyed.entries ↔ keyed.get? key = some value :=
  mem_iff_lookup keyed.ascending

/-- Maps with the same values are the same map. -/
theorem ext_get? {left right : Keyed α} (hget : ∀ key, left.get? key = right.get? key) :
    left = right := by
  have hentries : left.entries = right.entries := by
    have hirrefl : Std.Irrefl fun a b : String × α => a.1 < b.1 :=
      ⟨fun entry => String.lt_irrefl entry.1⟩
    have hantisymm : Std.Antisymm fun a b : String × α => a.1 < b.1 :=
      ⟨fun _ _ hless hgreater => absurd hgreater (String.lt_asymm hless)⟩
    refine left.ascending.eq_of_mem_iff right.ascending fun (key, value) => ?_
    rw [mem_entries_iff, mem_entries_iff, hget]
  obtain ⟨_, _⟩ := left
  obtain ⟨_, _⟩ := right
  rw [Keyed.mk.injEq]
  exact hentries

end

/-! ## Counting -/

/-- The sum of all counts. -/
def sum (keyed : Keyed Nat) : Nat := (keyed.entries.map (·.2)).sum

@[simp] theorem get?_empty {α : Type} (key : String) : (empty : Keyed α).get? key = none := rfl

@[simp] theorem sum_empty : (empty : Keyed Nat).sum = 0 := rfl

theorem get?_count (key other : String) (amount : Nat) (keyed : Keyed Nat) :
    (keyed.count key amount).get? other =
      if other = key then some ((keyed.get? key).getD 0 + amount) else keyed.get? other :=
  get?_alter key other _ keyed

theorem sum_alterIn (key : String) (amount : Nat) (entries : List (String × Nat)) :
    ((alterIn key (fun old => old.getD 0 + amount) entries).map (·.2)).sum =
      (entries.map (·.2)).sum + amount := by
  fun_induction alterIn key (fun old => old.getD 0 + amount) entries with
  | case1 => simp
  | case2 value rest => simp only [List.map_cons, List.sum_cons, Option.getD_some]; omega
  | case3 => simp only [List.map_cons, List.sum_cons, Option.getD_none]; omega
  | case4 k value rest _ _ ih => simp only [List.map_cons, List.sum_cons, ih]; omega

@[simp] theorem sum_count (key : String) (amount : Nat) (keyed : Keyed Nat) :
    (keyed.count key amount).sum = keyed.sum + amount :=
  sum_alterIn key amount keyed.entries

/-! ## Adding counts to counts -/

/-- What is counted under a key once the entries are added. The entries have different keys, so at
most one of them changes what the key had. -/
theorem get?_foldl_count {entries : List (String × Nat)}
    (hascending : entries.Pairwise fun a b => a.1 < b.1) (keyed : Keyed Nat) (other : String) :
    (entries.foldl (fun keyed (key, amount) => keyed.count key amount) keyed).get? other =
      Option.merge (· + ·) (keyed.get? other) (entries.lookup other) := by
  induction hascending generalizing keyed with
  | nil => simp
  | @cons entry rest hbelow hrest ih =>
    obtain ⟨key, amount⟩ := entry
    rw [List.foldl_cons, ih, get?_count, List.lookup_cons]
    by_cases hkey : other = key
    · subst hkey
      have habsent : rest.lookup other = none := by
        refine List.lookup_eq_none_iff.mpr fun entry hmem => ?_
        have hless := hbelow entry hmem
        exact bne_iff_ne.mpr (String.ne_of_lt hless)
      cases keyed.get? other <;> simp [habsent]
    · simp [hkey, beq_false_of_ne hkey]

theorem sum_foldl_count (entries : List (String × Nat)) (keyed : Keyed Nat) :
    (entries.foldl (fun keyed (key, amount) => keyed.count key amount) keyed).sum =
      keyed.sum + (entries.map (·.2)).sum := by
  induction entries generalizing keyed with
  | nil => simp
  | cons entry rest ih =>
    rw [List.foldl_cons, ih, sum_count, List.map_cons, List.sum_cons, Nat.add_assoc]

end EvmObject.Suite.Keyed
