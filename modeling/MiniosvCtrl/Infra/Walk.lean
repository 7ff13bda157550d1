import Mathlib.Data.List.Flatten
import Mathlib.Data.List.Nodup
import Mathlib.Data.List.Perm.Lattice
import Mathlib.Logic.Relation

/-!
# Walks without a visited set

A walk from a root over a graph, with a stack of what is still to be visited and no record of what
has been. Where no node is a child of two, and the root is not below itself, it ends, and has
listed what is below the root, each node once.

* `walk` — the walk, with a bound on the nodes it visits
* `Forest` — the graph below a root is a tree
* `Walked` — where a walk is
* `walk_spec` — what the walk lists
-/

namespace Infra

universe u

variable {α : Type u}

/--
Lists the children of the first node of the stack, and pushes each of them, until the stack is
empty; `none` is a walk that has not ended after so many nodes.
-/
def walk (kids : α → List α) : Nat → List α → List α → Option (List α)
  | _, [], out => some out
  | 0, _ :: _, _ => none
  | n + 1, p :: todo, out => walk kids n ((kids p).reverse ++ todo) (out ++ kids p)

/-- `q` is below `p`. -/
abbrev Under (kids : α → List α) : α → α → Prop := Relation.TransGen fun p q => q ∈ kids p

/-- What is below the root is a tree, with all of its nodes among `nodes`. -/
structure Forest (kids : α → List α) (nodes : List α) (root : α) : Prop where
  nodup : ∀ p, (kids p).Nodup
  parent : ∀ p q x, x ∈ kids p → x ∈ kids q → p = q
  acyclic : ¬ Under kids root root
  finite : ∀ p x, x ∈ kids p → x ∈ nodes

/-- The walk has visited `done`, listed their children, and has still to visit `todo`. -/
structure Walked (kids : α → List α) (root : α) (done todo out : List α) : Prop where
  visited : (done ++ todo).Perm (root :: out)
  listed : ∀ x, x ∈ out ↔ ∃ p ∈ done, x ∈ kids p
  nodup : (root :: out).Nodup
  under : ∀ x ∈ out, Under kids root x

variable {kids : α → List α} {nodes done todo out : List α} {root p : α} {n m : Nat}

theorem walk_mono (h : walk kids n todo out = some done) (hle : n ≤ m) :
    walk kids m todo out = some done := by
  induction n generalizing m todo out with
  | zero =>
    cases todo with
    | nil => cases m <;> exact h
    | cons p todo => cases h
  | succ n ih =>
    cases todo with
    | nil => cases m <;> exact h
    | cons p todo =>
      cases m with
      | zero => omega
      | succ m =>
        have hnext : walk kids n ((kids p).reverse ++ todo) (out ++ kids p) = some done := h
        exact ih (m := m) hnext (by omega)

namespace Walked

theorem start : Walked kids root [] [root] [] where
  visited := List.Perm.refl _
  listed := by simp
  nodup := by simp
  under := by simp

/-- The next node has not been visited before, and is the root or below it. -/
theorem mem_root_out (h : Walked kids root done (p :: todo) out) : p = root ∨ p ∈ out :=
  List.mem_cons.mp (h.visited.subset (List.mem_append_right done List.mem_cons_self))

theorem not_mem_done (h : Walked kids root done (p :: todo) out) : p ∉ done := fun hp =>
  List.disjoint_of_nodup_append (h.visited.nodup_iff.mpr h.nodup) hp List.mem_cons_self

theorem under_of_kid (h : Walked kids root done (p :: todo) out) {x : α} (hx : x ∈ kids p) :
    Under kids root x := by
  rcases h.mem_root_out with rfl | hp
  · exact .single hx
  · exact (h.under p hp).tail hx

/-- None of its children has been listed, as none has another parent. -/
theorem not_mem_of_kid (hf : Forest kids nodes root) (h : Walked kids root done (p :: todo) out)
    {x : α} (hx : x ∈ kids p) : x ∉ root :: out := by
  intro hmem
  rcases List.mem_cons.mp hmem with rfl | hout
  · exact hf.acyclic (h.under_of_kid hx)
  · obtain ⟨q, hq, hxq⟩ := (h.listed x).mp hout
    exact h.not_mem_done (hf.parent p q x hx hxq ▸ hq)

/-- **One more node is visited.** -/
theorem step (hf : Forest kids nodes root) (h : Walked kids root done (p :: todo) out) :
    Walked kids root (p :: done) ((kids p).reverse ++ todo) (out ++ kids p) where
  visited := by
    have hrest : ((kids p).reverse ++ todo).Perm (kids p ++ todo) :=
      (List.reverse_perm _).append_right _
    calc List.Perm (p :: done ++ ((kids p).reverse ++ todo)) (p :: done ++ (kids p ++ todo)) :=
          hrest.append_left _
      List.Perm _ (kids p ++ (p :: done ++ todo)) := List.perm_append_comm_assoc ..
      List.Perm _ (kids p ++ (done ++ p :: todo)) := List.perm_middle.symm.append_left _
      List.Perm _ (kids p ++ root :: out) := h.visited.append_left _
      List.Perm _ (root :: (out ++ kids p)) := List.perm_append_comm
  listed x := by
    rw [List.mem_append, h.listed x, List.exists_mem_cons_iff]
    exact or_comm
  nodup := by
    rw [← List.cons_append]
    exact List.Nodup.append h.nodup (hf.nodup p) fun x hx hkid => not_mem_of_kid hf h hkid hx
  under x hx := by
    rcases List.mem_append.mp hx with hx | hx
    · exact h.under x hx
    · exact h.under_of_kid hx

theorem length_le (hf : Forest kids nodes root) (h : Walked kids root done todo out) :
    out.length ≤ nodes.length := by
  refine (List.Nodup.of_cons h.nodup).length_le_of_subset fun x hx => ?_
  obtain ⟨p, -, hp⟩ := (h.listed x).mp hx
  exact hf.finite p x hp

/-- **A walk that visits as many nodes as there are ends.** -/
theorem ends (hf : Forest kids nodes root) (h : Walked kids root done todo out)
    (hn : nodes.length < n + done.length) :
    ∃ r done', walk kids n todo out = some r ∧ Walked kids root done' [] r := by
  induction n generalizing done todo out with
  | zero =>
    cases todo with
    | nil => exact ⟨out, done, rfl, h⟩
    | cons p todo =>
      have hlength := h.visited.length_eq
      have hle := h.length_le hf
      simp only [List.length_append, List.length_cons] at hlength
      omega
  | succ n ih =>
    cases todo with
    | nil => exact ⟨out, done, rfl, h⟩
    | cons p todo => exact ih (h.step hf) (by rw [List.length_cons]; omega)

/-- A walk that has ended has listed all that is below the root. -/
theorem mem_iff (h : Walked kids root done [] out) (x : α) : x ∈ out ↔ Under kids root x := by
  have hdone : ∀ p, p = root ∨ p ∈ out → p ∈ done := fun p hp => by
    have hmem := h.visited.symm.subset (List.mem_cons.mpr hp)
    rwa [List.append_nil] at hmem
  refine ⟨h.under x, fun hunder => ?_⟩
  induction hunder with
  | single hkid => exact (h.listed _).mpr ⟨root, hdone root (.inl rfl), hkid⟩
  | tail _ hkid ih => exact (h.listed _).mpr ⟨_, hdone _ (.inr ih), hkid⟩

end Walked

/-- **The walk from the root of a tree ends with the nodes below it, each once.** -/
theorem walk_spec (hf : Forest kids nodes root) :
    ∃ out, (∀ n, nodes.length < n → walk kids n [root] [] = some out) ∧ out.Nodup ∧
      ∀ x, x ∈ out ↔ Under kids root x := by
  have hstart : Walked kids root [] [root] [] := Walked.start
  obtain ⟨out, done, hwalk, h⟩ := hstart.ends hf (n := nodes.length + 1) (by simp)
  exact ⟨out, fun n hn => walk_mono hwalk hn, List.Nodup.of_cons h.nodup, h.mem_iff⟩

end Infra
