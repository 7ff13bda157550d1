import Mathlib.Data.List.Sort

/-!
# Percentiles by nearest rank

The percentile of a list is the least of its elements with at least so many percent of the elements
at or below it.

* `atOrBelow` — how many elements are
* `NearestRank` — the percentile
* `nearestRank_getElem` — where it is in a sorted list
-/

namespace Infra

universe u

variable {α : Type u} [LinearOrder α] {xs ys : List α} {x y : α} {i p : Nat}

/-- How many elements are at most `x`. -/
def atOrBelow (xs : List α) (x : α) : Nat := xs.countP (· ≤ x)

/-- `x` is the least element with at least `p` percent of the elements at or below it. -/
structure NearestRank (p : Nat) (xs : List α) (x : α) : Prop where
  mem : x ∈ xs
  reaches : p * xs.length ≤ 100 * atOrBelow xs x
  least : ∀ y ∈ xs, p * xs.length ≤ 100 * atOrBelow xs y → x ≤ y

theorem NearestRank.unique (hx : NearestRank p xs x) (hy : NearestRank p xs y) : x = y :=
  le_antisymm (hx.least y hy.mem hy.reaches) (hy.least x hx.mem hx.reaches)

theorem NearestRank.perm (h : NearestRank p xs x) (hp : xs.Perm ys) : NearestRank p ys x where
  mem := hp.mem_iff.mp h.mem
  reaches := by
    rw [← hp.length_eq, atOrBelow, ← hp.countP_eq]
    exact h.reaches
  least := by
    intro y hy hreach
    rw [← hp.length_eq, atOrBelow, ← hp.countP_eq] at hreach
    exact h.least y (hp.mem_iff.mpr hy) hreach

/-! ## Sorted lists -/

section Sorted

theorem getElem_mono (hs : xs.Pairwise (· ≤ ·)) {j : Nat} (hij : i ≤ j) (hj : j < xs.length) :
    xs[i] ≤ xs[j] := by
  rcases Nat.lt_or_eq_of_le hij with hlt | rfl
  · exact List.pairwise_iff_getElem.mp hs i j _ hj hlt
  · exact le_refl _

variable (hs : xs.Pairwise (· ≤ ·)) (hi : i < xs.length)

include hs hi

theorem succ_le_atOrBelow : i + 1 ≤ atOrBelow xs xs[i] := by
  have hall : ∀ z ∈ xs.take (i + 1), z ≤ xs[i] := by
    intro z hz
    obtain ⟨j, hj, rfl⟩ := List.getElem_of_mem hz
    rw [List.getElem_take]
    rw [List.length_take] at hj
    exact getElem_mono hs (by omega) hi
  have htake : (xs.take (i + 1)).countP (· ≤ xs[i]) = i + 1 := by
    rw [List.countP_eq_length.mpr (by simpa using hall), List.length_take, Nat.min_eq_left hi]
  have hsplit : xs.countP (· ≤ xs[i]) = (xs.take (i + 1)).countP (· ≤ xs[i]) +
      (xs.drop (i + 1)).countP (· ≤ xs[i]) := by
    rw [← List.countP_append, List.take_append_drop]
  rw [htake] at hsplit
  rw [atOrBelow, hsplit]
  exact Nat.le_add_right _ _

theorem atOrBelow_le (hy : y < xs[i]) : atOrBelow xs y ≤ i := by
  have hnone : ∀ z ∈ xs.drop i, ¬ z ≤ y := by
    intro z hz
    obtain ⟨j, hj, rfl⟩ := List.getElem_of_mem hz
    rw [List.getElem_drop]
    rw [List.length_drop] at hj
    exact not_le_of_gt (lt_of_lt_of_le hy (getElem_mono hs (Nat.le_add_right i j) (by omega)))
  have hdrop : (xs.drop i).countP (· ≤ y) = 0 :=
    List.countP_eq_zero.mpr (by simpa using hnone)
  have hsplit : xs.countP (· ≤ y) = (xs.take i).countP (· ≤ y) + (xs.drop i).countP (· ≤ y) := by
    rw [← List.countP_append, List.take_append_drop]
  rw [hdrop, Nat.add_zero] at hsplit
  rw [atOrBelow, hsplit]
  exact (List.countP_le_length).trans ((List.length_take_le _ _))

/-- **In a sorted list the percentile is where so many percent of the list end.** -/
theorem nearestRank_getElem (hlt : 100 * i < p * xs.length)
    (hle : p * xs.length ≤ 100 * (i + 1)) : NearestRank p xs xs[i] where
  mem := List.getElem_mem hi
  reaches := hle.trans (Nat.mul_le_mul_left _ (succ_le_atOrBelow hs hi))
  least := by
    intro y _ hreach
    by_contra hlow
    have hcount := atOrBelow_le hs hi (not_le.mp hlow)
    omega

end Sorted

end Infra
