import Mathlib.MeasureTheory.Measure.Lebesgue.Basic
import Mathlib.MeasureTheory.Measure.Real

/-!
# The length of a union of intervals

The intervals are taken in the order of their starts. Each adds what of it lies beyond the last end
so far.

* `covered`
* `volume_union` — together they add up to the measure of the union
-/

namespace Infra

open MeasureTheory Set

/-- What the intervals add to what is covered up to `m`. -/
def covered {K : Type} [LinearOrder K] [Sub K] [Add K] [Zero K] : K → List (K × K) → K
  | _, [] => 0
  | m, v :: vs => (max (max v.1 m) v.2 - max v.1 m) + covered (max m v.2) vs

theorem covered_cast (m : ℚ) (vs : List (ℚ × ℚ)) :
    ((covered m vs : ℚ) : ℝ) = covered (m : ℝ) (vs.map fun v => ((v.1 : ℝ), (v.2 : ℝ))) := by
  induction vs generalizing m with
  | nil => exact Rat.cast_zero
  | cons v vs ih =>
    rw [covered, Rat.cast_add, ih, List.map_cons, covered]
    push_cast
    rfl

/-! ## One more interval -/

section Step

variable {A : Set ℝ} {m s e : ℝ}

/-- An interval that starts beyond `m`. -/
theorem volume_union_Icc_of_lt (hA : volume A ≠ ⊤) (hle : A ⊆ Iic m) (hse : s ≤ e) (hlt : m < s) :
    volume.real (A ∪ Icc s e) = volume.real A + (e - s) := by
  have hdisjoint : Disjoint A (Icc s e) := by
    refine disjoint_left.mpr fun x hxA hx => ?_
    exact absurd (hlt.trans_le hx.1) (not_lt_of_ge (hle hxA))
  rw [measureReal_union hdisjoint measurableSet_Icc hA measure_Icc_lt_top.ne,
    Real.volume_real_Icc_of_le hse]

/-- An interval that starts where all is covered up to `m`. -/
theorem volume_union_Icc_of_le (hA : volume A ≠ ⊤) (hle : A ⊆ Iic m) (hcover : Icc s m ⊆ A)
    (hsm : s ≤ m) : volume.real (A ∪ Icc s e) = volume.real A + (max m e - m) := by
  have hunion : A ∪ Icc s e = A ∪ Ioc m (max m e) := by
    ext x
    simp only [mem_union, mem_Icc, mem_Ioc]
    constructor
    · rintro (hx | ⟨hs, he⟩)
      · exact .inl hx
      · rcases le_or_gt x m with hm | hm
        · exact .inl (hcover ⟨hs, hm⟩)
        · exact .inr ⟨hm, le_max_of_le_right he⟩
    · rintro (hx | ⟨hm, hx⟩)
      · exact .inl hx
      · exact .inr ⟨hsm.trans hm.le, (le_max_iff.mp hx).resolve_left (not_le_of_gt hm)⟩
  have hdisjoint : Disjoint A (Ioc m (max m e)) :=
    disjoint_left.mpr fun x hxA hx => absurd hx.1 (not_lt_of_ge (hle hxA))
  rw [hunion, measureReal_union hdisjoint measurableSet_Ioc hA measure_Ioc_lt_top.ne,
    Real.volume_real_Ioc_of_le (le_max_left m e)]

end Step

/-! ## All intervals -/

theorem volume_union_covered {vs : List (ℝ × ℝ)} (hvs : ∀ v ∈ vs, v.1 ≤ v.2)
    (hsorted : vs.Pairwise fun v w => v.1 ≤ w.1) {A : Set ℝ} {m : ℝ} (hA : volume A ≠ ⊤)
    (hle : A ⊆ Iic m) (hcover : ∀ v ∈ vs, Icc v.1 m ⊆ A) :
    volume.real (A ∪ ⋃ v ∈ vs, Icc v.1 v.2) = volume.real A + covered m vs := by
  induction vs generalizing A m with
  | nil => simp [covered]
  | cons v vs ih =>
    obtain ⟨hse, hvs⟩ := List.forall_mem_cons.mp hvs
    obtain ⟨hcover, hrest⟩ := List.forall_mem_cons.mp hcover
    obtain ⟨hfirst, hsorted⟩ := List.pairwise_cons.mp hsorted
    -- an interval adds the part of it that lies beyond what is covered
    have hnext : volume.real (A ∪ Icc v.1 v.2) =
        volume.real A + (max (max v.1 m) v.2 - max v.1 m) := by
      rcases lt_or_ge m v.1 with hlt | hge
      · rw [volume_union_Icc_of_lt hA hle hse hlt, max_eq_left hlt.le, max_eq_right hse]
      · rw [volume_union_Icc_of_le hA hle hcover hge, max_eq_right hge]
    have hfinite : volume (A ∪ Icc v.1 v.2) ≠ ⊤ :=
      measure_union_ne_top hA measure_Icc_lt_top.ne
    have hle' : A ∪ Icc v.1 v.2 ⊆ Iic (max m v.2) :=
      union_subset (hle.trans (Iic_subset_Iic.mpr (le_max_left _ _)))
        fun x hx => le_max_of_le_right hx.2
    have hcover' : ∀ w ∈ vs, Icc w.1 (max m v.2) ⊆ A ∪ Icc v.1 v.2 := by
      intro w hw x hx
      rcases le_or_gt x m with hm | hm
      · exact .inl (hrest w hw ⟨hx.1, hm⟩)
      · have hxe : x ≤ v.2 := (le_max_iff.mp hx.2).resolve_left (not_le_of_gt hm)
        exact .inr ⟨(hfirst w hw).trans hx.1, hxe⟩
    have hset : A ∪ ⋃ w ∈ v :: vs, Icc w.1 w.2 = A ∪ Icc v.1 v.2 ∪ ⋃ w ∈ vs, Icc w.1 w.2 := by
      ext x
      simp only [mem_union, mem_iUnion, List.mem_cons, exists_prop, exists_eq_or_imp, or_assoc]
    rw [hset, ih hvs hsorted hfinite hle' hcover', hnext, covered, add_assoc]

/-- **The measure of a union of intervals that are sorted by their starts.** -/
theorem volume_union {v : ℝ × ℝ} {vs : List (ℝ × ℝ)} (hvs : ∀ w ∈ v :: vs, w.1 ≤ w.2)
    (hsorted : (v :: vs).Pairwise fun v w => v.1 ≤ w.1) :
    volume.real (⋃ w ∈ v :: vs, Icc w.1 w.2) = (v.2 - v.1) + covered v.2 vs := by
  obtain ⟨hse, hvs⟩ := List.forall_mem_cons.mp hvs
  obtain ⟨hfirst, hsorted⟩ := List.pairwise_cons.mp hsorted
  have hset : ⋃ w ∈ v :: vs, Icc w.1 w.2 = Icc v.1 v.2 ∪ ⋃ w ∈ vs, Icc w.1 w.2 := by
    ext x
    simp only [mem_union, mem_iUnion, List.mem_cons, exists_prop, exists_eq_or_imp]
  rw [hset, volume_union_covered hvs hsorted measure_Icc_lt_top.ne (fun x hx => hx.2)
    (fun w hw => Icc_subset_Icc_left (hfirst w hw)), Real.volume_real_Icc_of_le hse]

end Infra
