import Mathlib.Algebra.BigOperators.Group.Finset.Basic
import Mathlib.Data.List.Nodup

/-!
# Entries gathered by key

A dictionary to which one element after the other is added, each to the entry of its key, and what
the entries come to: a sum for each key that occurs.

* `upsert` — an entry is made if it is not there, and changed
* `Gathered` — an entry for each key, with the sum of the key's elements
* `sum_gathered` — a sum over the entries is one over the keys
* `sum_weightOf_congr` — and the same for keys that tell the same elements apart
-/

namespace Infra

universe u v w x

variable {κ : Type u} {α : Type v} {β : Type w} {M : Type x} [DecidableEq κ] {k : κ} {a : α}
  {f : α → α} {d : List (κ × α)}

/-- `d.setdefault(k, a)`, and what is done with it. -/
def upsert (k : κ) (a : α) (f : α → α) : List (κ × α) → List (κ × α)
  | [] => [(k, f a)]
  | e :: d => if e.1 = k then (k, f e.2) :: d else e :: upsert k a f d

theorem mem_keys_upsert {k' : κ} :
    k' ∈ (upsert k a f d).map Prod.fst ↔ k' = k ∨ k' ∈ d.map Prod.fst := by
  induction d with
  | nil => simp [upsert]
  | cons e d ih =>
    rw [upsert]
    split
    · rename_i he
      simp [← he]
    · rw [List.map_cons, List.mem_cons, ih, List.map_cons, List.mem_cons]
      exact or_left_comm

theorem nodup_keys_upsert (h : (d.map Prod.fst).Nodup) :
    ((upsert k a f d).map Prod.fst).Nodup := by
  induction d with
  | nil => exact List.nodup_singleton k
  | cons e d ih =>
    obtain ⟨he, hd⟩ := List.nodup_cons.mp h
    rw [upsert]
    split
    · rename_i hk
      rw [List.map_cons, ← hk]
      exact h
    · rename_i hk
      refine List.nodup_cons.mpr ⟨fun hmem => ?_, ih hd⟩
      rcases mem_keys_upsert.mp hmem with heq | hmem
      · exact hk heq
      · exact he hmem

section

variable [AddCommMonoid M] {m : α → M}

/-- What is added to one entry is added to the sum of all. -/
theorem sum_upsert {c : M} (hzero : m a = 0) (hadd : ∀ v, m (f v) = m v + c) :
    ((upsert k a f d).map fun e => m e.2).sum = (d.map fun e => m e.2).sum + c := by
  induction d with
  | nil => simp [upsert, hadd, hzero]
  | cons e d ih =>
    rw [upsert]
    split
    · simp only [List.map_cons, List.sum_cons, hadd]
      exact add_right_comm _ _ _
    · simp only [List.map_cons, List.sum_cons, ih]
      exact (add_assoc _ _ _).symm

variable {key : β → κ} {weight : β → M} {l : List β} {y : β}

/-- The weight of a key's elements. -/
def weightOf (key : β → κ) (weight : β → M) (l : List β) (k : κ) : M :=
  ((l.filter fun y => key y = k).map weight).sum

/-- An entry for each key that occurs, with the weight of its elements. -/
structure Gathered (key : β → κ) (weight : β → M) (m : α → M) (l : List β) (d : List (κ × α)) :
    Prop where
  nodup : (d.map Prod.fst).Nodup
  mem_keys : ∀ k, k ∈ d.map Prod.fst ↔ k ∈ l.map key
  weight_eq : ∀ e ∈ d, m e.2 = weightOf key weight l e.1

theorem gathered_nil : Gathered key weight m [] [] where
  nodup := List.nodup_nil
  mem_keys := fun _ => Iff.rfl
  weight_eq := fun _ h => absurd h List.not_mem_nil

theorem weightOf_concat (k : κ) : weightOf key weight (l ++ [y]) k =
    weightOf key weight l k + if key y = k then weight y else 0 := by
  rw [weightOf, weightOf, List.filter_append, List.map_append, List.sum_append]
  by_cases h : key y = k <;> simp [h]

theorem weightOf_of_not_mem (h : k ∉ l.map key) : weightOf key weight l k = 0 := by
  have hnil : (l.filter fun y => key y = k) = [] := by
    refine List.filter_eq_nil_iff.mpr fun y hy hk => h ?_
    rw [← of_decide_eq_true hk]
    exact List.mem_map_of_mem hy
  rw [weightOf, hnil, List.map_nil, List.sum_nil]

theorem mem_upsert {e : κ × α} (h : (d.map Prod.fst).Nodup) (he : e ∈ upsert k a f d) :
    e.1 ≠ k ∧ e ∈ d ∨
      e.1 = k ∧ ((∃ v, (k, v) ∈ d ∧ e.2 = f v) ∨ k ∉ d.map Prod.fst ∧ e.2 = f a) := by
  induction d with
  | nil =>
    obtain rfl := List.mem_singleton.mp he
    exact .inr ⟨rfl, .inr ⟨List.not_mem_nil, rfl⟩⟩
  | cons e' d ih =>
    obtain ⟨he', hd⟩ := List.nodup_cons.mp h
    rw [upsert] at he
    split at he
    · rename_i hk
      rcases List.mem_cons.mp he with rfl | he
      · exact .inr ⟨rfl, .inl ⟨e'.2, by rw [← hk]; exact List.mem_cons_self, rfl⟩⟩
      · refine .inl ⟨?_, List.mem_cons_of_mem _ he⟩
        rintro heq
        exact he' (by rw [hk, ← heq]; exact List.mem_map_of_mem he)
    · rename_i hk
      rcases List.mem_cons.mp he with rfl | he
      · exact .inl ⟨hk, List.mem_cons_self⟩
      · rcases ih hd he with ⟨hne, hmem⟩ | ⟨heq, ⟨v, hv, hf⟩ | ⟨hnot, hf⟩⟩
        · exact .inl ⟨hne, List.mem_cons_of_mem _ hmem⟩
        · exact .inr ⟨heq, .inl ⟨v, List.mem_cons_of_mem _ hv, hf⟩⟩
        · refine .inr ⟨heq, .inr ⟨fun hmem => ?_, hf⟩⟩
          rcases List.mem_cons.mp hmem with heq' | hmem
          · exact hk heq'.symm
          · exact hnot hmem

/-- **One more element.** -/
theorem Gathered.upsert (h : Gathered key weight m l d) (hzero : m a = 0)
    (hadd : ∀ v, m (f v) = m v + weight y) :
    Gathered key weight m (l ++ [y]) (upsert (key y) a f d) where
  nodup := nodup_keys_upsert h.nodup
  mem_keys := by
    intro k'
    rw [mem_keys_upsert, h.mem_keys, List.map_append, List.mem_append, List.map_singleton,
      List.mem_singleton, or_comm]
  weight_eq := by
    intro e he
    rw [weightOf_concat]
    rcases mem_upsert h.nodup he with ⟨hne, hmem⟩ | ⟨heq, ⟨v, hv, hf⟩ | ⟨hnot, hf⟩⟩
    · rw [if_neg hne.symm, add_zero, h.weight_eq e hmem]
    · rw [if_pos heq.symm, hf, hadd, h.weight_eq _ hv, heq]
    · rw [h.mem_keys] at hnot
      rw [if_pos heq.symm, hf, hadd, hzero, heq, weightOf_of_not_mem hnot]

/-- **A sum over the entries is one over the keys.** -/
theorem sum_gathered {N : Type*} [AddCommMonoid N] (h : Gathered key weight m l d) (g : M → N) :
    (d.map fun e => g (m e.2)).sum = ∑ k ∈ (l.map key).toFinset, g (weightOf key weight l k) := by
  have hkeys : (l.map key).toFinset = (d.map Prod.fst).toFinset := by
    ext k
    rw [List.mem_toFinset, List.mem_toFinset, h.mem_keys]
  rw [hkeys, List.sum_toFinset _ h.nodup, List.map_map]
  exact congrArg List.sum (List.map_congr_left fun e he => congrArg g (h.weight_eq e he))

/-- Two keys that tell the same elements apart have the same sums. -/
theorem sum_weightOf_congr {κ' : Type*} [DecidableEq κ'] {key' : β → κ'} {N : Type*}
    [AddCommMonoid N] (h : ∀ y ∈ l, ∀ z ∈ l, key y = key z ↔ key' y = key' z) (g : M → N) :
    ∑ k ∈ (l.map key).toFinset, g (weightOf key weight l k) =
      ∑ k ∈ (l.map key').toFinset, g (weightOf key' weight l k) := by
  have hone : ∀ k ∈ (l.map key).toFinset, ∃ y ∈ l, key y = k := fun k hk =>
    List.mem_map.mp (List.mem_toFinset.mp hk)
  choose y hy hk using hone
  refine Finset.sum_bij (fun k hmem => key' (y k hmem)) ?_ ?_ ?_ ?_
  · exact fun k hmem => List.mem_toFinset.mpr (List.mem_map_of_mem (hy k hmem))
  · intro k hmem k' hmem' heq
    rw [← hk k hmem, ← hk k' hmem']
    exact (h _ (hy k hmem) _ (hy k' hmem')).mpr heq
  · intro k' hmem'
    obtain ⟨z, hz, rfl⟩ := List.mem_map.mp (List.mem_toFinset.mp hmem')
    have hmem : key z ∈ (l.map key).toFinset := List.mem_toFinset.mpr (List.mem_map_of_mem hz)
    exact ⟨key z, hmem, (h _ (hy _ hmem) z hz).mp (hk _ hmem)⟩
  · intro k hmem
    refine congrArg g (congrArg (fun l => (l.map weight).sum) (List.filter_congr fun z hz => ?_))
    have hiff := h z hz _ (hy k hmem)
    rw [hk k hmem] at hiff
    exact decide_eq_decide.mpr hiff

end

end Infra
