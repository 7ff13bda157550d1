import Mathlib.Tactic.FieldSimp
import Mathlib.Tactic.Linarith
import Mathlib.Tactic.Positivity
import MiniosvCtrl.Infra.Lists
import MiniosvCtrl.LinuxS3.Wire

/-!
# The best second is the best second

* `Wire.secondAfter`, `Wire.rates` — the rates over all seconds, sample by sample
* `compared_eq` — the scan compares a sample with the first one a second after it
* `peak_best` — the scan finds the highest rate
-/

namespace Wire

open Infra

variable {samples : List Sample} {s t : Sample}

/-! ## The rates over all seconds -/

/-- A second, in nanoseconds. -/
def second : Nat := 10 ^ 9

/-- The first sample at least a second after `s`. -/
def secondAfter (samples : List Sample) (s : Sample) : Option Sample :=
  samples.find? fun t => s.1.toNat + second ≤ t.1.toNat

/-- Gigabits in a second, from `s` to `t`. -/
def rateBetween (s t : Sample) : Rat :=
  8 * ((t.2.toNat : Rat) - s.2.toNat) / ((t.1.toNat : Rat) - s.1.toNat)

def rates (samples : List Sample) : List Rat :=
  samples.filterMap fun s => (secondAfter samples s).map (rateBetween s)

/-- The highest of them; 0 if there is none. -/
def bestSecond (samples : List Sample) : Rat := (rates samples).max?.getD 0

/-- Neither the time nor the counter goes back. -/
def Ordered (samples : List Sample) : Prop := samples.Pairwise fun s t => s.1 ≤ t.1 ∧ s.2 ≤ t.2

instance (samples : List Sample) : Decidable (Ordered samples) :=
  inferInstanceAs (Decidable (List.Pairwise _ _))

/-- A second later is still a 64-bit number. -/
def Fits (samples : List Sample) : Prop := ∀ s ∈ samples, s.1.toNat + second < 2 ^ 64

instance (samples : List Sample) : Decidable (Fits samples) :=
  List.decidableBAll (fun s : Sample => s.1.toNat + second < 2 ^ 64) samples

/-! ## The scan -/

/-- The inner loop passes the samples that are too early, and stops at one that is not. -/
theorem advance_spec (limit : UInt64) (l : List Sample) (j : Nat) :
    ∃ n, advance limit l j = j + n ∧ (∀ t ∈ l.take n, t.1 < limit) ∧
      ∀ t, l[n]? = some t → ¬ t.1 < limit := by
  induction l generalizing j with
  | nil => exact ⟨0, rfl, nofun, nofun⟩
  | cons s l ih =>
    rw [advance]
    by_cases hs : s.1 < limit
    · obtain ⟨n, hn, hearly, hstop⟩ := ih (j + 1)
      refine ⟨n + 1, ?_, ?_, ?_⟩
      · rw [if_pos hs, hn]
        omega
      · rw [List.take_succ_cons]
        exact List.forall_mem_cons.mpr ⟨hs, hearly⟩
      · rw [List.getElem?_cons_succ]
        exact hstop
    · refine ⟨0, if_neg hs, nofun, fun t ht => ?_⟩
      rw [List.getElem?_cons_zero] at ht
      cases ht
      exact hs

/-- What the index has left behind stays too early for later samples. -/
def Behind (samples : List Sample) (j : Nat) (limit : UInt64) : Prop :=
  ∀ t ∈ samples.take j, t.1 < limit

theorem Behind.advance {j : Nat} {limit : UInt64} (h : Behind samples j limit) :
    Behind samples (advance limit (samples.drop j) j) limit ∧
      samples[Wire.advance limit (samples.drop j) j]? =
        samples.find? fun t => decide (¬ t.1 < limit) := by
  obtain ⟨n, hn, hearly, hstop⟩ := advance_spec limit (samples.drop j) j
  have hbehind : Behind samples (j + n) limit := by
    intro t ht
    rw [List.take_add, List.mem_append] at ht
    exact ht.elim (h t) (hearly t)
  rw [hn]
  refine ⟨hbehind, (find?_eq_getElem? (fun t ht => ?_) fun t ht => ?_).symm⟩
  · simpa using hbehind t ht
  · rw [← List.getElem?_drop] at ht
    simpa using hstop t ht

/-- **The scan compares every sample with the first one a second after it, if there is one.** -/
theorem compared_eq (hordered : Ordered samples) (hfits : Fits samples) :
    compared samples =
      samples.filterMap fun s => (secondAfter samples s).map fun t => (s, t) := by
  have hlimit : ∀ s ∈ samples, (s.1 + 1000000000).toNat = s.1.toNat + second := by
    intro s hs
    rw [UInt64.toNat_add]
    exact Nat.mod_eq_of_lt (hfits s hs)
  -- the limits do not go back, so what is behind one sample's is behind the next one's
  have hfrom : ∀ rest, rest <:+ samples → ∀ j,
      (∀ s ∈ rest.head?, Behind samples j (s.1 + 1000000000)) →
      comparedFrom samples rest j =
        rest.filterMap fun s => (secondAfter samples s).map fun t => (s, t) := by
    intro rest hrest
    induction rest with
    | nil => exact fun _ _ => rfl
    | cons s rest ih =>
      intro j hj
      have hs : s ∈ samples := hrest.subset List.mem_cons_self
      obtain ⟨hbehind, hfound⟩ := (hj s rfl).advance
      have hafter : samples[advance (s.1 + 1000000000) (samples.drop j) j]? =
          secondAfter samples s := by
        rw [hfound, secondAfter]
        refine congrArg (fun p => samples.find? p) (funext fun t => ?_)
        rw [decide_eq_decide, UInt64.lt_iff_toNat_lt, hlimit s hs, Nat.not_lt]
      have hnext : ∀ s' ∈ rest.head?,
          Behind samples (advance (s.1 + 1000000000) (samples.drop j) j) (s'.1 + 1000000000) := by
        intro s' hs' t ht
        have hmem : s' ∈ rest := List.mem_of_mem_head? hs'
        have hle := ((List.pairwise_cons.mp (hordered.sublist hrest.sublist)).1 s' hmem).1
        have hlt := hbehind t ht
        rw [UInt64.lt_iff_toNat_lt] at hlt ⊢
        rw [hlimit s hs] at hlt
        rw [hlimit s' (hrest.subset (List.mem_cons_of_mem _ hmem))]
        rw [UInt64.le_iff_toNat_le] at hle
        omega
      rw [comparedFrom, List.filterMap_cons]
      simp only [hafter]
      rw [ih ((List.suffix_cons s rest).trans hrest) _ hnext]
      cases secondAfter samples s <;> rfl
  exact hfrom samples List.suffix_rfl 0 fun s _ t ht => by cases ht

/-! ## The highest rate -/

/-- A sample and the first one a second after it. -/
theorem le_of_secondAfter (hordered : Ordered samples) (hs : s ∈ samples)
    (h : secondAfter samples s = some t) :
    t ∈ samples ∧ s.1.toNat + second ≤ t.1.toNat ∧ s.1 ≤ t.1 ∧ s.2 ≤ t.2 := by
  have hmem := List.mem_of_find?_eq_some h
  have hlater : s.1.toNat + second ≤ t.1.toNat := by simpa using List.find?_some h
  have hpos : 0 < second := by decide
  obtain ⟨i, hi, rfl⟩ := List.mem_iff_getElem.mp hs
  obtain ⟨j, hj, rfl⟩ := List.mem_iff_getElem.mp hmem
  have hpairs := List.pairwise_iff_getElem.mp hordered
  -- a sample that stands earlier is not later
  have hij : i < j := by
    by_contra hnot
    rcases Nat.eq_or_lt_of_not_lt hnot with rfl | hji
    · omega
    · have hle := UInt64.le_iff_toNat_le.mp (hpairs j i hj hi hji).1
      omega
  exact ⟨hmem, hlater, hpairs i j hi hj hij⟩

theorem foldl_max_eq (l : List Rat) (h : ∀ x ∈ l, 0 ≤ x) :
    l.foldl max 0 = l.max?.getD 0 := by
  cases l with
  | nil => rfl
  | cons x l =>
    rw [List.max?_cons', Option.getD_some, List.foldl_cons, max_eq_right (h x List.mem_cons_self)]

/-- A rate that is right for samples a second apart finds the best second. -/
theorem peak_eq {rate : UInt64 → UInt64 → Rat} (hordered : Ordered samples) (hfits : Fits samples)
    (hrate : ∀ s t : Sample, s.1.toNat + second ≤ t.1.toNat → s.1 ≤ t.1 → s.2 ≤ t.2 →
      rate (t.2 - s.2) (t.1 - s.1) = rateBetween s t) :
    peak rate samples = bestSecond samples := by
  have hrates : (compared samples).map (fun p => rate (p.2.2 - p.1.2) (p.2.1 - p.1.1)) =
      rates samples := by
    rw [compared_eq hordered hfits, List.map_filterMap]
    refine List.filterMap_congr fun s hs => ?_
    cases h : secondAfter samples s with
    | none => rfl
    | some t =>
      obtain ⟨-, hlater, htime, hbytes⟩ := le_of_secondAfter hordered hs h
      exact congrArg some (hrate s t hlater htime hbytes)
  have hpos : ∀ x ∈ rates samples, 0 ≤ x := by
    intro x hx
    obtain ⟨s, hs, hx⟩ := List.mem_filterMap.mp hx
    obtain ⟨t, ht, rfl⟩ := Option.map_eq_some_iff.mp hx
    obtain ⟨-, -, htime, hbytes⟩ := le_of_secondAfter hordered hs ht
    have htime : (s.1.toNat : Rat) ≤ t.1.toNat := by exact_mod_cast UInt64.le_iff_toNat_le.mp htime
    have hbytes : (s.2.toNat : Rat) ≤ t.2.toNat := by
      exact_mod_cast UInt64.le_iff_toNat_le.mp hbytes
    exact div_nonneg (mul_nonneg (by norm_num) (sub_nonneg.mpr hbytes)) (sub_nonneg.mpr htime)
  rw [peak, bestSecond, ← foldl_max_eq _ hpos, ← hrates, List.foldl_map]

theorem gbps_eq (hlater : s.1.toNat + second ≤ t.1.toNat) (htime : s.1 ≤ t.1)
    (hbytes : s.2 ≤ t.2) : LinuxS3.gbps (t.2 - s.2) (t.1 - s.1) = rateBetween s t := by
  have hns : ((t.1 - s.1).toNat : Rat) = t.1.toNat - s.1.toNat := by
    rw [UInt64.toNat_sub_of_le _ _ htime, Nat.cast_sub (UInt64.le_iff_toNat_le.mp htime)]
  have hcount : ((t.2 - s.2).toNat : Rat) = t.2.toNat - s.2.toNat := by
    rw [UInt64.toNat_sub_of_le _ _ hbytes, Nat.cast_sub (UInt64.le_iff_toNat_le.mp hbytes)]
  have hsecond : (1000000000 : Rat) ≤ t.1.toNat - s.1.toNat := by
    have hcast : ((s.1.toNat + second : Nat) : Rat) ≤ (t.1.toNat : Nat) := by exact_mod_cast hlater
    rw [second] at hcast
    push_cast at hcast
    linarith
  have hlong : (1 / 1000000000 : Rat) ≤ (t.1.toNat - s.1.toNat) / 1000000000 := by
    rw [div_le_div_iff_of_pos_right (by norm_num)]
    linarith
  have hne : (t.1.toNat : Rat) - s.1.toNat ≠ 0 := by linarith
  rw [LinuxS3.gbps, hns, hcount, max_eq_left hlong, rateBetween]
  field_simp

/--
**The scan finds the highest rate over all seconds that the samples have**, and 0 if they have
none; what it subtracts are samples in order.
-/
theorem peak_best (hordered : Ordered samples) (hfits : Fits samples) :
    LinuxS3.peak samples = bestSecond samples ∧ AnyBlob.peak samples = bestSecond samples ∧
      ∀ p ∈ compared samples, p.1 ∈ samples ∧ p.2 ∈ samples ∧ p.1.1 ≤ p.2.1 ∧ p.1.2 ≤ p.2.2 := by
  have hrate : peak LinuxS3.gbps samples = bestSecond samples :=
    peak_eq hordered hfits fun s t => gbps_eq
  refine ⟨hrate, hrate, fun p hp => ?_⟩
  rw [compared_eq hordered hfits] at hp
  obtain ⟨s, hs, hp⟩ := List.mem_filterMap.mp hp
  obtain ⟨t, ht, rfl⟩ := Option.map_eq_some_iff.mp hp
  obtain ⟨hmem, -, hle⟩ := le_of_secondAfter hordered hs ht
  exact ⟨hs, hmem, hle⟩

/-- Two samples at the same time, one half a second later, and two that are a second later. -/
theorem peak_best_halfSecond :
    LinuxS3.peak [(0, 0), (0, 8), (500000000, 100), (1000000000, 1000), (1500000000, 1100)] =
      bestSecond [(0, 0), (0, 8), (500000000, 100), (1000000000, 1000), (1500000000, 1100)] :=
  (peak_best (by decide) (by decide)).1

/--
A second after the last nanosecond that 64 bits hold is an early one: then the scan compares a
sample with the one before it, and finds a rate where there is no second.
-/
theorem peak_wrapped :
    Ordered [(18446744073709551611, 0), (18446744073709551615, 10)] ∧
      bestSecond [(18446744073709551611, 0), (18446744073709551615, 10)] = 0 ∧
      LinuxS3.peak [(18446744073709551611, 0), (18446744073709551615, 10)] ≠ 0 ∧
      ((18446744073709551615, 10), (18446744073709551611, 0)) ∈
        compared [(18446744073709551611, 0), (18446744073709551615, 10)] := by
  decide +kernel

end Wire
