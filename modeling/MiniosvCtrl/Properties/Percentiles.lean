import Mathlib.Data.List.GetD
import MiniosvCtrl.AnyBlob.Dist
import MiniosvCtrl.Infra.Ranks
import MiniosvCtrl.LinuxS3.Summary

/-!
# Percentiles on either stack

linux-s3 and the AnyBlob client print the same figures about their requests, and one parser reads
both. linux-s3 takes the nearest rank; the AnyBlob client takes the value at the truncated product,
which is one place further where the product is a whole number.

* `linuxS3Index_spec`, `anyBlobIndex_eq` — the places in the sorted list
* `SameFigures` — both stacks give the nearest rank
* `sameFigures_iff` — which samples they do so for
-/

namespace Percentiles

open Infra

/-! ## Places in the list -/

/-- The index that linux-s3's `rank` takes, of `n` values. -/
def linuxS3Index (p n : Nat) : Nat := Nat.min (Nat.max ((n * p + 99) / 100) 1 - 1) (n - 1)

variable {n p : Nat}

theorem linuxS3Index_lt (hn : 0 < n) : linuxS3Index p n < n :=
  Nat.lt_of_le_of_lt (Nat.min_le_right _ _) (by omega)

theorem anyBlobIndex_lt (hn : 0 < n) : AnyBlob.Dist.index p n < n :=
  Nat.lt_of_le_of_lt (Nat.min_le_left _ _) (by omega)

/-- linux-s3 takes the nearest rank. -/
theorem linuxS3Index_spec (hn : 0 < n) (hp : 0 < p) (hle : p ≤ 100) :
    100 * linuxS3Index p n < p * n ∧ p * n ≤ 100 * (linuxS3Index p n + 1) := by
  have hpos : 0 < n * p := Nat.mul_pos hn hp
  have hbound : n * p ≤ n * 100 := Nat.mul_le_mul_left n hle
  have hindex : linuxS3Index p n = (n * p + 99) / 100 - 1 := by
    rw [linuxS3Index]
    show min (max _ 1 - 1) _ = _
    omega
  rw [hindex, Nat.mul_comm p n]
  omega

/-- The AnyBlob client takes the same, or the next one where the product is a whole number. -/
theorem anyBlobIndex_eq (hn : 0 < n) (hp : 0 < p) (hlt : p < 100) :
    AnyBlob.Dist.index p n =
      if 100 ∣ p * n then linuxS3Index p n + 1 else linuxS3Index p n := by
  obtain ⟨hbelow, habove⟩ := linuxS3Index_spec hn hp (Nat.le_of_lt hlt)
  have hbound : p * n ≤ 99 * n := Nat.mul_le_mul_right n (by omega)
  rw [AnyBlob.Dist.index]
  split <;> omega

/-! ## The figures -/

/-- The samples, in microseconds. -/
def micros (ns : List UInt64) : List UInt64 := ns.map (· / 1000)

/-- Both stacks print the same figures of these nanoseconds, and the percentiles are the nearest
rank's, at a place in the list. -/
structure SameFigures (ns : List UInt64) : Prop where
  n : (LinuxS3.Dist.of ns).n = (AnyBlob.Dist.of (micros ns)).n
  avg : (LinuxS3.Dist.of ns).avg = (AnyBlob.Dist.of (micros ns)).avg
  p50 : (LinuxS3.Dist.of ns).p50 = (AnyBlob.Dist.of (micros ns)).p50
  p90 : (LinuxS3.Dist.of ns).p90 = (AnyBlob.Dist.of (micros ns)).p90
  max : (LinuxS3.Dist.of ns).max = (AnyBlob.Dist.of (micros ns)).max
  median : NearestRank 50 ((micros ns).map UInt64.toNat) (LinuxS3.Dist.of ns).p50.toNat
  ninety : NearestRank 90 ((micros ns).map UInt64.toNat) (LinuxS3.Dist.of ns).p90.toNat
  inside : ∀ p ∈ [50, 90], linuxS3Index p ns.length < ns.length ∧
    AnyBlob.Dist.index p ns.length < ns.length

/-- The microseconds in order. -/
def sorted (ns : List UInt64) : List UInt64 :=
  (micros ns).mergeSort fun a b => decide (a ≤ b)

/-- The samples at and before a whole number of hundredths of the list are equal. -/
def Level (p : Nat) (ns : List UInt64) : Prop :=
  100 ∣ p * ns.length →
    (sorted ns)[p * ns.length / 100 - 1]? = (sorted ns)[p * ns.length / 100]?

section Figures

variable {ns : List UInt64}

theorem length_sorted (ns : List UInt64) : (sorted ns).length = ns.length := by
  rw [sorted, List.length_mergeSort, micros, List.length_map]

theorem sorted_perm (ns : List UInt64) :
    ((sorted ns).map UInt64.toNat).Perm ((micros ns).map UInt64.toNat) :=
  (List.mergeSort_perm _ _).map _

theorem pairwise_sorted (ns : List UInt64) : ((sorted ns).map UInt64.toNat).Pairwise (· ≤ ·) := by
  have h := @List.pairwise_mergeSort UInt64 (fun a b => decide (a ≤ b))
    (fun a b c hab hbc => by
      simp only [decide_eq_true_eq, UInt64.le_iff_toNat_le] at hab hbc ⊢
      exact Nat.le_trans hab hbc)
    (fun a b => by
      simp only [Bool.or_eq_true, decide_eq_true_eq, UInt64.le_iff_toNat_le]
      exact Nat.le_total _ _) (micros ns)
  refine List.pairwise_map.mpr (h.imp fun hab => ?_)
  exact UInt64.le_iff_toNat_le.mp (of_decide_eq_true hab)

theorem micros_ne_nil (h : ns ≠ []) : micros ns ≠ [] := by
  simpa [micros] using h

theorem linuxS3_of (h : ns ≠ []) : LinuxS3.Dist.of ns =
    { n := UInt64.ofNat (sorted ns).length
      avg := (sorted ns).sum / UInt64.ofNat (sorted ns).length
      p50 := (sorted ns).getD (linuxS3Index 50 (sorted ns).length) 0
      p90 := (sorted ns).getD (linuxS3Index 90 (sorted ns).length) 0
      max := (sorted ns).getLastD 0 } := by
  have hne : sorted ns ≠ [] := by
    intro hnil
    have hlength := length_sorted ns
    rw [hnil, List.length_nil] at hlength
    exact h (List.length_eq_zero_iff.mp hlength.symm)
  exact if_neg hne

theorem anyBlob_of (h : ns ≠ []) : AnyBlob.Dist.of (micros ns) =
    { n := UInt64.ofNat (sorted ns).length
      avg := (sorted ns).foldl (· + ·) 0 / UInt64.ofNat (sorted ns).length
      p50 := (sorted ns).getD (AnyBlob.Dist.index 50 (sorted ns).length) 0
      p90 := (sorted ns).getD (AnyBlob.Dist.index 90 (sorted ns).length) 0
      p99 := (sorted ns).getD (AnyBlob.Dist.index 99 (sorted ns).length) 0
      max := (sorted ns).getLastD 0 } :=
  if_neg (micros_ne_nil h)

/-- The nearest rank is what linux-s3 takes. -/
theorem nearestRank_linuxS3 {p : Nat} (h : ns ≠ []) (hp : 0 < p) (hle : p ≤ 100) :
    NearestRank p ((micros ns).map UInt64.toNat)
      ((sorted ns).getD (linuxS3Index p (sorted ns).length) 0).toNat := by
  have hlength : 0 < (sorted ns).length := by
    rw [length_sorted]
    exact List.length_pos_iff.mpr h
  have hlt := linuxS3Index_lt (p := p) hlength
  have hlt' : linuxS3Index p (sorted ns).length < ((sorted ns).map UInt64.toNat).length := by
    rwa [List.length_map]
  obtain ⟨hbelow, habove⟩ := linuxS3Index_spec hlength hp hle
  have hrank := nearestRank_getElem (p := p) (pairwise_sorted ns) hlt' (by rwa [List.length_map])
    (by rwa [List.length_map])
  rw [List.getElem_map] at hrank
  rw [List.getD_eq_getElem _ _ hlt]
  exact hrank.perm (sorted_perm ns)

/-- The stacks take the same sample exactly if it is level where they take two. -/
theorem getD_eq_iff {p : Nat} (h : ns ≠ []) (hp : 0 < p) (hlt : p < 100) :
    (sorted ns).getD (linuxS3Index p (sorted ns).length) 0 =
      (sorted ns).getD (AnyBlob.Dist.index p (sorted ns).length) 0 ↔ Level p ns := by
  have hlength : 0 < (sorted ns).length := by
    rw [length_sorted]
    exact List.length_pos_iff.mpr h
  have hrust := linuxS3Index_lt (p := p) hlength
  have hcpp := anyBlobIndex_lt (p := p) hlength
  obtain ⟨hbelow, habove⟩ := linuxS3Index_spec hlength hp (Nat.le_of_lt hlt)
  have hindex := anyBlobIndex_eq hlength hp hlt
  rw [Level, ← length_sorted ns]
  by_cases hdvd : 100 ∣ p * (sorted ns).length
  · rw [if_pos hdvd] at hindex
    have hplace : linuxS3Index p (sorted ns).length = p * (sorted ns).length / 100 - 1 := by omega
    have hnext : AnyBlob.Dist.index p (sorted ns).length = p * (sorted ns).length / 100 := by omega
    rw [← hplace, ← hnext, List.getD_eq_getElem _ _ hrust, List.getD_eq_getElem _ _ hcpp,
      List.getElem?_eq_getElem hrust, List.getElem?_eq_getElem hcpp, Option.some_inj]
    exact ⟨fun heq _ => heq, fun heq => heq hdvd⟩
  · rw [if_neg hdvd] at hindex
    rw [hindex]
    exact iff_of_true rfl fun h => absurd h hdvd

/-- **The stacks print the same figures exactly if, of an even number of samples, the two in the
middle are equal and, of a multiple of ten, the two at nine tenths.** -/
theorem sameFigures_iff (ns : List UInt64) (h : ns ≠ []) :
    SameFigures ns ↔ Level 50 ns ∧ Level 90 ns := by
  have hlinux := linuxS3_of h
  have hany := anyBlob_of h
  have hfifty := getD_eq_iff (p := 50) h (by decide) (by decide)
  have hninety := getD_eq_iff (p := 90) h (by decide) (by decide)
  constructor
  · intro hsame
    have hp50 := hsame.p50
    have hp90 := hsame.p90
    rw [hlinux, hany] at hp50 hp90
    exact ⟨hfifty.mp hp50, hninety.mp hp90⟩
  · rintro ⟨hlevel50, hlevel90⟩
    have hlength : 0 < ns.length := List.length_pos_iff.mpr h
    refine ⟨?_, ?_, ?_, ?_, ?_, ?_, ?_, fun p _ => ⟨linuxS3Index_lt hlength,
      anyBlobIndex_lt hlength⟩⟩ <;> rw [hlinux] <;> try rw [hany]
    · rw [List.sum_eq_foldl]
    · exact hfifty.mpr hlevel50
    · exact hninety.mpr hlevel90
    · exact nearestRank_linuxS3 h (by decide) (by decide)
    · exact nearestRank_linuxS3 h (by decide) (by decide)

/-- One sample is its own median. -/
theorem sameFigures_iff_one : SameFigures [5000] ↔ Level 50 [5000] ∧ Level 90 [5000] :=
  sameFigures_iff [5000] (by decide)

/-- Of two samples, the AnyBlob client takes the larger one for the median. -/
theorem not_sameFigures_two : ¬ SameFigures [1000, 2000] := by
  intro h
  have hsorted : sorted [1000, 2000] = [1, 2] := List.mergeSort_of_pairwise (by decide)
  have hp50 := h.p50
  rw [linuxS3_of (by decide), anyBlob_of (by decide), hsorted] at hp50
  exact absurd hp50 (by decide)

end Figures

end Percentiles
