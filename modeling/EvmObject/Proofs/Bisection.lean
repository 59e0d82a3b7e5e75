import EvmObject.Bisection

/-!
# Bisection finds the end of the first part

On an array that is partitioned by a test, so that the test holds up to some index and nowhere from
there on, halving the range ends at that index. `partitionPoint_eq` states this with the index
given, and `partitionPoint_eq_length_takeWhile` names the index of an array on which the test, once
it fails, does not hold again.
-/

namespace EvmObject

variable {α : Type} {test : α → Bool} {values : Array α} {n : Nat}

/-! ## One index to find -/

section
variable (hparted : ∀ (index : Nat) (value : α), values[index]? = some value →
  (test value = true ↔ index < n))
include hparted

theorem any_test_iff {index : Nat} (hindex : index < values.size) :
    values[index]?.any test = true ↔ index < n := by
  rw [Array.getElem?_eq_getElem hindex, Option.any_some]
  exact hparted index _ (Array.getElem?_eq_getElem hindex)

/-- The range keeps the index that is looked for: it is not in front of the base, and not behind the
end of the range. -/
theorem bisect_bounds (base size : Nat) (hbase : base ≤ n) (hn : n ≤ base + size)
    (hsize : base + size ≤ values.size) :
    bisect test values base size ≤ n ∧ n ≤ bisect test values base size + 1 := by
  -- the induction is on the calls of `bisect`, each with about half the range
  fun_induction bisect test values base size with
  | case1 base size hsmall => omega
  | case2 base size hlarge half middle ih =>
    have hhalf : half = size / 2 := rfl
    have hmiddle : middle = base + half := rfl
    have hinside : middle < values.size := by omega
    have hiff := any_test_iff hparted hinside
    apply ih
    · split
      · next htest => exact Nat.le_of_lt (hiff.mp htest)
      · exact hbase
    · split
      · omega
      · next htest =>
        have hle : n ≤ middle := Nat.le_of_not_lt fun hlt => htest (hiff.mpr hlt)
        omega
    · split
      · omega
      · omega

/-- **The partition point is the index from which on the test fails.** -/
theorem partitionPoint_eq (hn : n ≤ values.size) : partitionPoint test values = n := by
  obtain ⟨hle, hlast⟩ := bisect_bounds hparted 0 values.size (Nat.zero_le n) (by omega) (by omega)
  rw [partitionPoint]
  by_cases hempty : bisect test values 0 values.size < values.size
  · have hiff := any_test_iff hparted hempty
    split
    · next htest =>
      have := hiff.mp htest
      omega
    · next htest =>
      have hnot : ¬ bisect test values 0 values.size < n := fun hlt => htest (hiff.mpr hlt)
      omega
  · -- there is no element to look at, so the array is empty
    have hnone : values[bisect test values 0 values.size]? = none :=
      Array.getElem?_eq_none (by omega)
    rw [hnone, Option.any_none, if_neg Bool.false_ne_true]
    omega

end

/-! ## A test that fails for good -/

/-- Where a test fails for good, it holds exactly in front of its first failure. -/
theorem test_iff_lt_length_takeWhile {xs : List α}
    (hfails : xs.Pairwise fun a b => test b = true → test a = true) {index : Nat} {x : α}
    (hget : xs[index]? = some x) :
    test x = true ↔ index < (xs.takeWhile test).length := by
  induction xs generalizing index with
  | nil => simp at hget
  | cons first rest ih =>
    obtain ⟨hfirst, hrest⟩ := List.pairwise_cons.mp hfails
    by_cases htest : test first = true
    · rw [List.takeWhile_cons_of_pos htest, List.length_cons]
      cases index with
      | zero =>
        obtain rfl := Option.some.inj hget
        simp [htest]
      | succ index =>
        rw [Nat.succ_lt_succ_iff]
        exact ih hrest hget
    · rw [List.takeWhile_cons_of_neg htest, List.length_nil]
      simp only [Nat.not_lt_zero, iff_false]
      intro hx
      rcases List.mem_cons.mp (List.mem_of_getElem? hget) with rfl | hmem
      · exact htest hx
      · exact htest (hfirst x hmem hx)

theorem partitionPoint_eq_length_takeWhile (values : List α)
    (hfails : values.Pairwise fun a b => test b = true → test a = true) :
    partitionPoint test values.toArray = (values.takeWhile test).length := by
  apply partitionPoint_eq
  · intro index value hget
    rw [List.getElem?_toArray] at hget
    exact test_iff_lt_length_takeWhile hfails hget
  · rw [List.size_toArray]
    exact (List.takeWhile_prefix test).length_le

end EvmObject
