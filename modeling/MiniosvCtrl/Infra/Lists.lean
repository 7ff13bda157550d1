import Mathlib.Data.List.Basic
import Mathlib.Data.List.Nodup

/-!
# Lists grouped by a key, and tables

* `flatMap_filter_perm` — taking a list key by key loses nothing
* `length_flatMap_le` — a bound for each key is a bound for all of them
* `filter_key_eq_singleton`, `lookup_of_mem` — among distinct keys, one element for each
* `lookup_filter_fst`, `lookup_map_snd`, `lookup_perm` — what is found in a table
* `mapM_eq_some_iff`, `mapM_eq_some_of_subset`, `ok_of_bind` — results that may fail
* `find?_eq_getElem?` — what is found first
* `countP_eq_countP_iff` — as many of one kind as of a wider one
-/

namespace Infra

universe u v w

variable {α : Type u} {κ : Type v} {β : Type w}

/-- The elements of a list, key after key, are the elements of the list. -/
theorem flatMap_filter_perm [DecidableEq κ] (f : α → κ) {keys : List κ} (hn : keys.Nodup)
    {l : List α} (h : ∀ x ∈ l, f x ∈ keys) :
    (keys.flatMap fun k => l.filter fun x => f x = k).Perm l := by
  induction keys generalizing l with
  | nil =>
    cases l with
    | nil => exact List.Perm.nil
    | cons x l => exact absurd (h x List.mem_cons_self) List.not_mem_nil
  | cons k keys ih =>
    obtain ⟨hk, hkeys⟩ := List.nodup_cons.mp hn
    have hrest : (keys.flatMap fun k' => l.filter fun x => f x = k') =
        keys.flatMap fun k' => (l.filter fun x => !decide (f x = k)).filter fun x => f x = k' := by
      refine List.flatMap_congr fun k' hk' => ?_
      rw [List.filter_filter]
      refine List.filter_congr fun x _ => ?_
      by_cases hx : f x = k'
      · have hne : k' ≠ k := fun he => hk (he ▸ hk')
        simp [hx, hne]
      · simp [hx]
    rw [List.flatMap_cons, hrest]
    refine List.Perm.trans (List.Perm.append_left _ (ih hkeys ?_)) (List.filter_append_perm _ l)
    intro x hx
    obtain ⟨hxl, hxk⟩ := List.mem_filter.mp hx
    exact (List.mem_cons.mp (h x hxl)).resolve_left (by simpa using hxk)

theorem length_flatMap_le {f : κ → List α} {g : κ → List β} {a b : Nat} (keys : List κ)
    (h : ∀ k ∈ keys, (f k).length ≤ a * (g k).length + b) :
    (keys.flatMap f).length ≤ a * (keys.flatMap g).length + b * keys.length := by
  induction keys with
  | nil => exact Nat.zero_le _
  | cons k keys ih =>
    have hk := h k List.mem_cons_self
    have hkeys := ih fun k' hk' => h k' (List.mem_cons_of_mem _ hk')
    rw [List.flatMap_cons, List.flatMap_cons, List.length_append, List.length_append,
      List.length_cons, Nat.mul_add, Nat.mul_succ]
    omega

theorem filter_key_eq_singleton [DecidableEq κ] {f : α → κ} {l : List α} (hn : (l.map f).Nodup)
    {x : α} (hx : x ∈ l) : (l.filter fun y => f y = f x) = [x] := by
  induction l with
  | nil => exact absurd hx List.not_mem_nil
  | cons y l ih =>
    obtain ⟨hy, hl⟩ := List.nodup_cons.mp hn
    rcases List.mem_cons.mp hx with rfl | hx
    · have hnil : (l.filter fun z => f z = f x) = [] := by
        rw [List.filter_eq_nil_iff]
        intro z hz
        rw [decide_eq_true_eq]
        exact fun he => hy (he ▸ List.mem_map_of_mem hz)
      simp [hnil]
    · have hne : f y ≠ f x := fun he => hy (he ▸ List.mem_map_of_mem hx)
      rw [← ih hl hx]
      simp [hne]

/-- Among distinct keys, every entry is found at its key. -/
theorem lookup_of_mem [DecidableEq κ] {l : List (κ × β)} (hn : (l.map Prod.fst).Nodup)
    {kv : κ × β} (h : kv ∈ l) : l.lookup kv.1 = some kv.2 := by
  induction l with
  | nil => exact absurd h List.not_mem_nil
  | cons e l ih =>
    obtain ⟨he, hl⟩ := List.nodup_cons.mp hn
    rcases List.mem_cons.mp h with rfl | hmem
    · exact List.lookup_cons_self
    · have hne : kv.1 ≠ e.1 := fun heq => he (heq ▸ List.mem_map_of_mem hmem)
      rw [List.lookup_cons, beq_false_of_ne hne]
      exact ih hl hmem

/-! ## Tables of keys and values -/

theorem lookup_of_not_mem [DecidableEq κ] {l : List (κ × β)} {k : κ} (h : k ∉ l.map Prod.fst) :
    l.lookup k = none := by
  refine List.lookup_eq_none_iff.mpr fun kv hkv => bne_iff_ne.mpr ?_
  rintro rfl
  exact h (List.mem_map_of_mem hkv)

theorem lookup_map_snd [DecidableEq κ] (f : β → α) (l : List (κ × β)) (k : κ) :
    (l.map fun kv => (kv.1, f kv.2)).lookup k = (l.lookup k).map f := by
  induction l with
  | nil => rfl
  | cons e l ih =>
    rw [List.map_cons, List.lookup_cons, List.lookup_cons]
    cases k == e.1 with
    | true => rfl
    | false => exact ih

theorem lookup_filter_fst [DecidableEq κ] (p : κ → Bool) (l : List (κ × β)) (k : κ) :
    (l.filter fun kv => p kv.1).lookup k = if p k then l.lookup k else none := by
  induction l with
  | nil => simp
  | cons e l ih =>
    rw [List.filter_cons, List.lookup_cons]
    by_cases hk : k = e.1
    · subst hk
      cases hp : p e.1 with
      | true =>
        rw [if_pos rfl, if_pos rfl, List.lookup_cons, beq_self_eq_true]
      | false =>
        rw [if_neg (by simp), ih, hp]
        simp
    · rw [beq_false_of_ne hk]
      cases hp : p e.1 with
      | true =>
        rw [if_pos rfl, List.lookup_cons, beq_false_of_ne hk]
        exact ih
      | false =>
        rw [if_neg (by simp)]
        exact ih

theorem lookup_eq_some_iff_mem [DecidableEq κ] {l : List (κ × β)} (hn : (l.map Prod.fst).Nodup)
    {k : κ} {v : β} : l.lookup k = some v ↔ (k, v) ∈ l := by
  refine ⟨fun h => ?_, fun h => lookup_of_mem hn h⟩
  obtain ⟨l₁, l₂, rfl, -⟩ := List.lookup_eq_some_iff.mp h
  exact List.mem_append_right _ List.mem_cons_self

/-- A table may be reordered. -/
theorem lookup_perm [DecidableEq κ] {l l' : List (κ × β)} (h : l.Perm l')
    (hn : (l.map Prod.fst).Nodup) (k : κ) : l.lookup k = l'.lookup k := by
  have hn' : (l'.map Prod.fst).Nodup := (h.map Prod.fst).nodup_iff.mp hn
  refine Option.ext fun v => ?_
  rw [lookup_eq_some_iff_mem hn, lookup_eq_some_iff_mem hn', h.mem_iff]

/-! ## Functions that may fail -/

theorem mapM_eq_some_iff {f : α → Option β} {l : List α} {m : List β} :
    l.mapM f = some m ↔ l.map f = m.map some := by
  induction l generalizing m with
  | nil => cases m <;> simp
  | cons a l ih =>
    cases hf : f a with
    | none => cases m <;> simp [List.mapM_cons, hf]
    | some b =>
      cases m with
      | nil => cases hr : l.mapM f <;> simp [List.mapM_cons, hf, hr]
      | cons c m =>
        rw [List.map_cons, List.map_cons, List.cons.injEq, ← ih, hf, Option.some_inj]
        cases hr : l.mapM f <;> simp [List.mapM_cons, hf, hr]

theorem ok_of_bind {ε α β : Type} {x : Except ε α} {f : α → Except ε β} {b : β}
    (h : x >>= f = .ok b) : ∃ a, x = .ok a ∧ f a = .ok b := by
  cases x with
  | error e => cases h
  | ok a => exact ⟨a, rfl, h⟩

theorem length_of_mapM {f : α → Option β} {l : List α} {m : List β} (hm : l.mapM f = some m) :
    m.length = l.length := by
  have h := congrArg List.length (mapM_eq_some_iff.mp hm)
  simpa using h.symm

theorem exists_mem_of_mapM {f : α → Option β} {l : List α} {m : List β} (hm : l.mapM f = some m)
    {b : β} (hb : b ∈ m) : ∃ a ∈ l, f a = some b := by
  have hmem : some b ∈ l.map f := mapM_eq_some_iff.mp hm ▸ List.mem_map_of_mem hb
  exact List.mem_map.mp hmem

theorem exists_of_mem_of_mapM {f : α → Option β} {l : List α} {m : List β}
    (hm : l.mapM f = some m) {a : α} (ha : a ∈ l) : ∃ b ∈ m, f a = some b := by
  have hmem : f a ∈ m.map some := mapM_eq_some_iff.mp hm ▸ List.mem_map_of_mem ha
  obtain ⟨b, hb, he⟩ := List.mem_map.mp hmem
  exact ⟨b, hb, he.symm⟩

theorem mapM_eq_some_of_subset {f : α → Option β} {l l' : List α} (h : l' ⊆ l) {m : List β}
    (hm : l.mapM f = some m) : ∃ m', l'.mapM f = some m' ∧ m' ⊆ m := by
  induction l' with
  | nil => exact ⟨[], rfl, List.nil_subset _⟩
  | cons a l' ih =>
    obtain ⟨b, hb, hf⟩ := exists_of_mem_of_mapM hm (h List.mem_cons_self)
    obtain ⟨m', hm', hsub⟩ := ih fun a' ha' => h (List.mem_cons_of_mem _ ha')
    refine ⟨b :: m', by simp [List.mapM_cons, hf, hm'], fun b' hb' => ?_⟩
    rcases List.mem_cons.mp hb' with rfl | hb'
    · exact hb
    · exact hsub hb'

theorem isSome_mapM {f : α → Option β} {l : List α} (h : ∀ a ∈ l, (f a).isSome) :
    (l.mapM f).isSome := by
  induction l with
  | nil => rfl
  | cons a l ih =>
    obtain ⟨b, hb⟩ := Option.isSome_iff_exists.mp (h a List.mem_cons_self)
    obtain ⟨m, hm⟩ := Option.isSome_iff_exists.mp
      (ih fun a' ha' => h a' (List.mem_cons_of_mem a ha'))
    simp [List.mapM_cons, hb, hm]

/-! ## The first element -/

/-- What is found is where everything before it was passed over. -/
theorem find?_eq_getElem? {p : α → Bool} {l : List α} {n : Nat}
    (hbefore : ∀ x ∈ l.take n, p x = false) (hat : ∀ x, l[n]? = some x → p x = true) :
    l.find? p = l[n]? := by
  induction l generalizing n with
  | nil => rfl
  | cons x l ih =>
    cases n with
    | zero => rw [List.find?_cons_of_pos (hat x rfl), List.getElem?_cons_zero]
    | succ n =>
      have hx := hbefore x List.mem_cons_self
      rw [List.find?_cons_of_neg (by rw [hx]; exact Bool.false_ne_true), List.getElem?_cons_succ]
      exact ih (fun y hy => hbefore y (List.mem_cons_of_mem _ hy)) hat

/-- As many of one kind as of a wider one: the two are one kind. -/
theorem countP_eq_countP_iff {p q : α → Bool} {l : List α}
    (h : ∀ x ∈ l, p x = true → q x = true) :
    l.countP p = l.countP q ↔ ∀ x ∈ l, q x = true → p x = true := by
  induction l with
  | nil => simp
  | cons x l ih =>
    have hl : ∀ y ∈ l, p y = true → q y = true := fun y hy => h y (List.mem_cons_of_mem x hy)
    have hle : l.countP p ≤ l.countP q := List.countP_mono_left hl
    rw [List.countP_cons, List.countP_cons, List.forall_mem_cons, ← ih hl]
    cases hp : p x with
    | true => simp [h x List.mem_cons_self hp]
    | false =>
      cases hq : q x with
      | true =>
        simp only [Bool.false_eq_true, if_false, if_true]
        exact ⟨fun he => by omega, fun he => nomatch he.1 trivial⟩
      | false => simp

end Infra
