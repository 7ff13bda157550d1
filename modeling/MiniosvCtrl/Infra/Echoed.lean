import Mathlib.Data.List.Basic
import Mathlib.Data.List.Chain

/-!
# Lists with echoes

A sequence that is sent over a line which now and then repeats what it was just sent.

* `Echoed` — each element once, or twice in a row
* `Echoed.filter` — the elements of one kind are echoed as all are
* `Echoed.filter_eq_iff` — when none of a kind is
-/

namespace Infra

universe u

variable {α : Type u} {x : α} {xs ys : List α} {p : α → Bool}

/-- The second list is the first one with some elements repeated at once. -/
inductive Echoed : List α → List α → Prop
  | nil : Echoed [] []
  | once (x : α) {xs ys : List α} (h : Echoed xs ys) : Echoed (x :: xs) (x :: ys)
  | twice (x : α) {xs ys : List α} (h : Echoed xs ys) : Echoed (x :: xs) (x :: x :: ys)

namespace Echoed

theorem refl (xs : List α) : Echoed xs xs := by
  induction xs with
  | nil => exact nil
  | cons x xs ih => exact once x ih

theorem mem_iff (h : Echoed xs ys) : x ∈ ys ↔ x ∈ xs := by
  induction h with
  | nil => rfl
  | once y _ ih => rw [List.mem_cons, List.mem_cons, ih]
  | twice y _ ih => rw [List.mem_cons, List.mem_cons, List.mem_cons, ih, ← or_assoc, or_self]

theorem length_le (h : Echoed xs ys) : xs.length ≤ ys.length := by
  induction h with
  | nil => exact Nat.le_refl 0
  | once y _ ih => exact Nat.succ_le_succ ih
  | twice y _ ih => exact Nat.succ_le_succ (Nat.le_succ_of_le ih)

/-- Without more elements there is no echo. -/
theorem eq_of_length (h : Echoed xs ys) (hlength : ys.length = xs.length) : ys = xs := by
  induction h with
  | nil => rfl
  | once y _ ih => rw [ih (Nat.succ.inj hlength)]
  | twice y h ih =>
    have hle := h.length_le
    rw [List.length_cons, List.length_cons, List.length_cons] at hlength
    omega

theorem filter (h : Echoed xs ys) (p : α → Bool) : Echoed (xs.filter p) (ys.filter p) := by
  induction h with
  | nil => exact nil
  | once y _ ih =>
    cases hy : p y with
    | true =>
      rw [List.filter_cons_of_pos hy, List.filter_cons_of_pos hy]
      exact once y ih
    | false =>
      rw [List.filter_cons_of_neg (by simp [hy]), List.filter_cons_of_neg (by simp [hy])]
      exact ih
  | twice y _ ih =>
    cases hy : p y with
    | true =>
      rw [List.filter_cons_of_pos hy, List.filter_cons_of_pos hy, List.filter_cons_of_pos hy]
      exact twice y ih
    | false =>
      rw [List.filter_cons_of_neg (by simp [hy]), List.filter_cons_of_neg (by simp [hy]),
        List.filter_cons_of_neg (by simp [hy])]
      exact ih

end Echoed

/-- No element of the kind is followed by itself. -/
def Unrepeated (p : α → Bool) (xs : List α) : Prop :=
  xs.IsChain fun x y => x = y → p x = false

theorem unrepeated_of_filter (h : (xs.filter p).IsChain (· ≠ ·)) : Unrepeated p xs := by
  induction xs with
  | nil => exact .nil
  | cons x xs ih =>
    have htail : Unrepeated p xs := by
      cases hx : p x with
      | true =>
        rw [List.filter_cons_of_pos hx] at h
        exact ih h.tail
      | false =>
        rw [List.filter_cons_of_neg (by simp [hx])] at h
        exact ih h
    cases xs with
    | nil => exact .singleton x
    | cons y xs =>
      refine List.isChain_cons_cons.mpr ⟨?_, htail⟩
      rintro rfl
      cases hx : p x with
      | false => rfl
      | true =>
        rw [List.filter_cons_of_pos hx, List.filter_cons_of_pos hx] at h
        exact absurd rfl (List.isChain_cons_cons.mp h).1

theorem Echoed.filter_eq (h : Echoed xs ys) (hys : Unrepeated p ys) :
    ys.filter p = xs.filter p := by
  induction h with
  | nil => rfl
  | once x _ ih => rw [List.filter_cons, List.filter_cons, ih hys.tail]
  | twice x _ ih =>
    obtain ⟨hx, hys⟩ := List.isChain_cons_cons.mp hys
    have hneg : ¬ p x = true := by simp [hx rfl]
    rw [List.filter_cons_of_neg hneg, List.filter_cons_of_neg hneg, List.filter_cons_of_neg hneg,
      ih hys.tail]

/-- **Elements that differ from the next of their kind are as many as before exactly if none of
them follows itself.** -/
theorem Echoed.filter_eq_iff (h : Echoed xs ys) (hxs : (xs.filter p).IsChain (· ≠ ·)) :
    (ys.filter p).length = (xs.filter p).length ↔ Unrepeated p ys := by
  constructor
  · intro hlength
    refine unrepeated_of_filter ?_
    rw [(h.filter p).eq_of_length hlength]
    exact hxs
  · intro hys
    rw [h.filter_eq hys]

end Infra
