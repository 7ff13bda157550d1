import Mathlib.Tactic.Linarith
import MiniosvCtrl.DuckdbLinux.HttpStats
import MiniosvCtrl.Infra.Intervals

/-!
# The islands of `active_ms`

The extents of the islands and the length of the union are both sums over the rows in the order of
the second window.

* `counted`, `activeMs_eq` — the extents, row by row
* `counted_eq_iff` — no row adds less than it covers; when each adds as much
-/

namespace HttpStats

open Infra

/-! ## The islands -/

theorem le_island {n : Nat} {vs : List Iv} : ∀ row ∈ isl n vs, n ≤ row.island := by
  induction vs generalizing n with
  | nil => simp [isl]
  | cons v vs ih =>
    intro row hrow
    rcases List.mem_cons.mp hrow with rfl | hrow
    · exact Nat.le_add_right n _
    · exact (Nat.le_add_right n _).trans (ih row hrow)

/-- A row that is alone in its island. -/
theorem extents_cons {row : Isl} {rows : List Isl} (h : ∀ row' ∈ rows, row'.island ≠ row.island) :
    extents (row :: rows) = (row.e - row.s) :: extents rows := by
  have hnotMem : row.island ∉ rows.map Isl.island := by
    intro hmem
    obtain ⟨row', hrow', heq⟩ := List.mem_map.mp hmem
    exact h row' hrow' heq
  have halone : (row :: rows).filter (fun r => r.island = row.island) = [row] := by
    rw [List.filter_cons_of_pos (by simp), List.filter_eq_nil_iff.mpr (by simpa using h)]
  have hothers : ∀ i ∈ (rows.map Isl.island).dedup,
      extent ((row :: rows).filter fun r => r.island = i) =
        extent (rows.filter fun r => r.island = i) := by
    intro i hi
    have hne : row.island ≠ i := fun heq => hnotMem (heq ▸ List.mem_dedup.mp hi)
    rw [List.filter_cons_of_neg (by simpa using hne)]
  rw [extents, List.map_cons, List.dedup_cons_of_notMem hnotMem, List.filterMap_cons, halone,
    List.filterMap_congr hothers]
  rfl

theorem extents_ne_nil (row : Isl) (rows : List Isl) : extents (row :: rows) ≠ [] := by
  intro hnil
  have hmem : row.island ∈ ((row :: rows).map Isl.island).dedup :=
    List.mem_dedup.mpr List.mem_cons_self
  have hnone := List.filterMap_eq_nil_iff.mp hnil row.island hmem
  rw [List.filter_cons_of_pos (by simp)] at hnone
  simp [extent] at hnone

/-- Two rows of an island count as one that ends with the later. -/
theorem extents_merge (row row' : Isl) (rows : List Isl) (hisland : row'.island = row.island)
    (hs : row.s ≤ row'.s) :
    extents (row :: row' :: rows) = extents ({ row with e := max row.e row'.e } :: rows) := by
  have hdedup : ((row :: row' :: rows).map Isl.island).dedup =
      (({ row with e := max row.e row'.e } :: rows).map Isl.island).dedup := by
    simp only [List.map_cons, hisland]
    exact List.dedup_cons_of_mem List.mem_cons_self
  rw [extents, extents, hdedup]
  refine List.filterMap_congr fun i _ => ?_
  by_cases hi : row.island = i
  · have hi' : row'.island = i := hisland.trans hi
    simp only [List.filter_cons, hi, hi', decide_true, if_true, extent, List.map_cons]
    rw [List.max?_cons', List.max?_cons', List.min?_cons', List.min?_cons', List.foldl_cons,
      List.foldl_cons, min_eq_left hs]
  · have hi' : row'.island ≠ i := fun heq => hi (hisland.symm.trans heq)
    simp only [List.filter_cons, hi, hi', decide_false, Bool.false_eq_true, if_false]

/-- What the rows add to the extents, where the island so far ends with `g`. -/
def counted : Rat → List Iv → Rat
  | _, [] => 0
  | g, v :: vs =>
    if v.begins then (v.e - v.s) + counted v.e vs else (max g v.e - g) + counted (max g v.e) vs

theorem sum_extents {n : Nat} {s g : Rat} {vs : List Iv} (hs : ∀ v ∈ vs, s ≤ v.s)
    (hsorted : vs.Pairwise fun a b => a.s ≤ b.s) :
    (extents (⟨s, g, n⟩ :: isl n vs)).sum = (g - s) + counted g vs := by
  induction vs generalizing n s g with
  | nil => simp [isl, counted, extents, extent]
  | cons v vs ih =>
    obtain ⟨hfirst, hsorted⟩ := List.pairwise_cons.mp hsorted
    obtain ⟨hv, hs⟩ := List.forall_mem_cons.mp hs
    cases hbegins : v.begins with
    | true =>
      have halone : ∀ row ∈ (⟨v.s, v.e, n + 1⟩ :: isl (n + 1) vs : List Isl),
          row.island ≠ n := by
        intro row hrow
        rcases List.mem_cons.mp hrow with rfl | hrow
        · exact Nat.succ_ne_self n
        · exact Nat.ne_of_gt (le_island row hrow)
      simp only [isl, counted, hbegins, if_true]
      rw [extents_cons halone, List.sum_cons, ih hfirst hsorted]
    | false =>
      simp only [isl, counted, hbegins, Bool.false_eq_true, if_false, Nat.add_zero]
      have hmerge := extents_merge ⟨s, g, n⟩ ⟨v.s, v.e, n⟩ (isl n vs) rfl hv
      rw [hmerge, ih hs hsorted]
      ring

/-- `active_ms`, row by row. -/
theorem activeMs_eq {r : List Request} {o : Orders r} {v : Iv} {vs : List Iv}
    (hsecond : o.second = v :: vs) :
    o.activeMs = some (((v.e - v.s) + counted v.e vs) / 1000) := by
  have hsorted := o.second_sorted
  rw [hsecond] at hsorted
  obtain ⟨hfirst, hsorted⟩ := List.pairwise_cons.mp hsorted
  have hsum : (extents (isl 0 (v :: vs))).sum = (v.e - v.s) + counted v.e vs :=
    sum_extents hfirst hsorted
  rw [Orders.activeMs, hsecond, act, ← hsum]
  cases hextents : extents (isl 0 (v :: vs)) with
  | nil => exact absurd hextents (extents_ne_nil _ _)
  | cons x xs => rfl

/-! ## What each row covers -/

/-- Start and end of the rows. -/
def pairs (vs : List Iv) : List (Rat × Rat) := vs.map fun v => (v.s, v.e)

/-- The row adds what it covers beyond `m`, where the island so far ends with `g`. -/
def Exact (g m : Rat) (v : Iv) : Prop :=
  if v.begins then v.s ≤ m → v.e = v.s ∨ m = v.s else v.s ≤ m ∧ (g = m ∨ v.e ≤ g)

def AllExact : Rat → Rat → List Iv → Prop
  | _, _, [] => True
  | g, m, v :: vs =>
    Exact g m v ∧ AllExact (if v.begins then v.e else max g v.e) (max m v.e) vs

section Step

variable {g m : Rat} {v : Iv}

theorem step_begins (hv : v.s ≤ v.e) (hbegins : v.begins = true) :
    max (max v.s m) v.e - max v.s m ≤ v.e - v.s ∧
      (v.e - v.s = max (max v.s m) v.e - max v.s m ↔ Exact g m v) := by
  rw [Exact, if_pos hbegins]
  rcases le_or_gt v.s m with hle | hlt
  · rw [max_eq_right hle]
    rcases le_or_gt v.e m with hem | hem
    · rw [max_eq_left hem]
      refine ⟨by linarith, fun h _ => .inl (by linarith), fun h => ?_⟩
      rcases h hle with h | h <;> linarith
    · rw [max_eq_right hem.le]
      refine ⟨by linarith, fun h _ => .inr (by linarith), fun h => ?_⟩
      rcases h hle with h | h <;> linarith
  · rw [max_eq_left hlt.le, max_eq_right hv]
    exact ⟨le_refl _, fun _ h => absurd hlt (not_lt_of_ge h), fun _ => rfl⟩

theorem step_goes_on (hgm : g ≤ m) (hv : v.s ≤ v.e) (hbegins : v.begins = false) :
    max (max v.s m) v.e - max v.s m ≤ max g v.e - g ∧
      (max g v.e - g = max (max v.s m) v.e - max v.s m ↔ Exact g m v) := by
  rw [Exact, if_neg (by simp [hbegins])]
  rcases le_or_gt v.s m with hle | hlt
  · rw [max_eq_right hle]
    rcases le_or_gt v.e g with heg | heg
    · rw [max_eq_left heg, max_eq_left (heg.trans hgm)]
      exact ⟨by linarith, fun _ => ⟨hle, .inr heg⟩, fun _ => by linarith⟩
    · rw [max_eq_right heg.le]
      rcases le_or_gt v.e m with hem | hem
      · rw [max_eq_left hem]
        refine ⟨by linarith, fun h => absurd heg (by linarith), fun h => ?_⟩
        rcases h.2 with h | h <;> linarith
      · rw [max_eq_right hem.le]
        refine ⟨by linarith, fun h => ⟨hle, .inl (by linarith)⟩, fun h => ?_⟩
        rcases h.2 with h | h <;> linarith
  · -- The row is beyond all before it, and is taken into their island.
    rw [max_eq_left hlt.le, max_eq_right hv, max_eq_right (by linarith)]
    exact ⟨by linarith, fun h => absurd hlt (by linarith), fun h => absurd hlt (by linarith [h.1])⟩

end Step

/-- **No row adds less than it covers, and the sums are equal if and only if each adds as much.** -/
theorem counted_eq_iff {g m : Rat} {vs : List Iv} (hgm : g ≤ m) (hvs : ∀ v ∈ vs, v.s ≤ v.e) :
    covered m (pairs vs) ≤ counted g vs ∧
      (counted g vs = covered m (pairs vs) ↔ AllExact g m vs) := by
  induction vs generalizing g m with
  | nil => exact ⟨le_refl _, fun _ => trivial, fun _ => rfl⟩
  | cons v vs ih =>
    obtain ⟨hv, hvs⟩ := List.forall_mem_cons.mp hvs
    show max (max v.s m) v.e - max v.s m + covered (max m v.e) (pairs vs) ≤ _ ∧
      (_ = max (max v.s m) v.e - max v.s m + covered (max m v.e) (pairs vs) ↔ _)
    cases hbegins : v.begins with
    | true =>
      obtain ⟨hle, hiff⟩ := step_begins (g := g) (m := m) hv hbegins
      obtain ⟨hle', hiff'⟩ := ih (le_max_right m v.e) hvs
      simp only [counted, AllExact, hbegins, if_true]
      rw [← hiff, ← hiff']
      exact ⟨by linarith, fun h => ⟨by linarith, by linarith⟩, fun h => by rw [h.1, h.2]⟩
    | false =>
      obtain ⟨hle, hiff⟩ := step_goes_on hgm hv hbegins
      obtain ⟨hle', hiff'⟩ := ih (max_le_max hgm (le_refl v.e)) hvs
      simp only [counted, AllExact, hbegins, Bool.false_eq_true, if_false]
      rw [← hiff, ← hiff']
      exact ⟨by linarith, fun h => ⟨by linarith, by linarith⟩, fun h => by rw [h.1, h.2]⟩

end HttpStats
