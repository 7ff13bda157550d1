import Mathlib.Data.Int.CardIntervalMod

/-!
# Places in turn

Some elements of a list are taken, and each that is gets the next of `n` places, around and
around.

* `spread` — the elements that are taken, with their places
* `map_fst_spread`, `map_snd_spread` — who is taken, and where they go
* `countP_spread` — every place gets as many as any other, or one less
-/

namespace Infra

universe u

variable {α : Type u} (taken : α → Bool) (n : Nat)

/-- From the `k`-th place on. -/
def spread : Nat → List α → List (α × Nat)
  | _, [] => []
  | k, x :: l => if taken x then (x, k % n) :: spread (k + 1) l else spread k l

theorem map_fst_spread (k : Nat) (l : List α) :
    (spread taken n k l).map Prod.fst = l.filter taken := by
  induction l generalizing k with
  | nil => rfl
  | cons x l ih =>
    rw [spread]
    by_cases hx : taken x = true
    · rw [if_pos hx, List.map_cons, ih, List.filter_cons_of_pos hx]
    · rw [if_neg hx, ih, List.filter_cons_of_neg hx]

theorem map_snd_spread (k : Nat) (l : List α) : (spread taken n k l).map Prod.snd =
    (List.range' k (l.filter taken).length).map (· % n) := by
  induction l generalizing k with
  | nil => rfl
  | cons x l ih =>
    rw [spread]
    by_cases hx : taken x = true
    · rw [if_pos hx, List.map_cons, ih, List.filter_cons_of_pos hx, List.length_cons,
        List.range'_succ, List.map_cons]
    · rw [if_neg hx, ih, List.filter_cons_of_neg hx]

theorem snd_lt_of_mem_spread {n : Nat} (hn : 0 < n) {k : Nat} {l : List α} {p : α × Nat}
    (h : p ∈ spread taken n k l) : p.2 < n := by
  have hmem : p.2 ∈ (spread taken n k l).map Prod.snd := List.mem_map_of_mem h
  rw [map_snd_spread] at hmem
  obtain ⟨i, -, hi⟩ := List.mem_map.mp hmem
  rw [← hi]
  exact Nat.mod_lt i hn

/-- **From the first place on, the first `m % n` places get one more than the others.** -/
theorem countP_spread {n : Nat} (hn : 0 < n) (l : List α) {c : Nat} (hc : c < n) :
    (spread taken n 0 l).countP (·.2 = c) =
      (l.filter taken).length / n + if c < (l.filter taken).length % n then 1 else 0 := by
  have hmap : (spread taken n 0 l).countP (·.2 = c) =
      ((spread taken n 0 l).map Prod.snd).countP (· = c) := by
    rw [List.countP_map]
    rfl
  have hcount := Nat.count_modEq_card (r := n) (l.filter taken).length hn c
  rw [Nat.mod_eq_of_lt hc] at hcount
  rw [hmap, map_snd_spread, ← List.range_eq_range', List.countP_map, ← hcount, Nat.count]
  refine List.countP_congr fun i _ => ?_
  simp [Nat.ModEq, Nat.mod_eq_of_lt hc]

end Infra
