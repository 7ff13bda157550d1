import Mathlib.Data.List.TakeWhile
import MiniosvCtrl.Infra.Search

/-!
# A word that a growing text has once

What is looked for is a word and the run of a class of characters after it. The text is read while
it is written, so a reading may end anywhere, inside the word or inside the run.

* `marked` — the pattern
* `group1_unmarked` — no character of the class comes after the word
* `lead` — the run that a text begins with
* **`group1_reading`** — what is found in the beginning of a text that has the word once
-/

namespace Infra.Regex

variable {p : Char → Bool} {s a d t u rest : List Char} {prev : Option Char} {r : Regex}
  {gs : Groups}

/-- `s(p+)` -/
def marked (s : List Char) (p : Char → Bool) : Regex := .seqs [.lit s, .group (.plus p)]

theorem marked_eq (s : List Char) (p : Char → Bool) :
    marked s p = .seq (.lit s) (.group (.plus p)) := rfl

theorem searchFrom_eq_none (h : ∀ prev' l₁ l₂, t = l₁ ++ l₂ → r.matchAt ⟨prev', l₂⟩ = none) :
    r.searchFrom prev t = none := by
  induction t generalizing prev with
  | nil => exact h prev [] [] rfl
  | cons c t ih =>
    rw [searchFrom_cons, h prev [] (c :: t) rfl, Option.none_or]
    exact ih fun prev' l₁ l₂ he => h prev' (c :: l₁) l₂ (by rw [he, List.cons_append])

/-- A search passes over what no match begins in. -/
theorem Yields.searchFrom
    (ha : ∀ prev' l₁ l₂, a = l₁ ++ l₂ → l₂ ≠ [] → r.matchAt ⟨prev', l₂ ++ t⟩ = none)
    (h : ∀ prev', Yields (r.matchAt ⟨prev', t⟩) gs) : Yields (r.searchFrom prev (a ++ t)) gs := by
  induction a generalizing prev with
  | nil =>
    rw [List.nil_append]
    cases t with
    | nil => exact h prev
    | cons c t =>
      rw [searchFrom_cons]
      exact (h prev).or_left
  | cons c a ih =>
    have hhere := ha prev [] (c :: a) rfl (List.cons_ne_nil c a)
    rw [List.cons_append] at hhere ⊢
    rw [searchFrom_cons, hhere, Option.none_or]
    exact ih fun prev' l₁ l₂ he => ha prev' (c :: l₁) l₂ (by rw [he, List.cons_append])

/-- A match has the word, and after it a character of the class. -/
theorem matchAt_marked (h : (marked s p).matchAt ⟨prev, t⟩ ≠ none) :
    ∃ c rest, t = s ++ c :: rest ∧ p c = true := by
  rw [marked_eq, matchAt, run_seq] at h
  obtain ⟨m, prev₁, rfl, hgroup⟩ := run_lit_split h
  rw [run_group] at hgroup
  obtain ⟨d, rest, -, rfl, hd, hall, -⟩ := run_plus_split hgroup
  obtain ⟨c, d, rfl⟩ := List.exists_cons_of_ne_nil hd
  exact ⟨c, d ++ rest, rfl, hall c List.mem_cons_self⟩

theorem group1_unmarked (h : ∀ a c rest, t = a ++ s ++ c :: rest → p c = false) :
    (marked s p).group1 t = none := by
  have hsearch : (marked s p).search t = none := by
    refine searchFrom_eq_none fun prev' l₁ l₂ he => ?_
    by_contra hne
    obtain ⟨c, rest, rfl, hc⟩ := matchAt_marked hne
    have := h l₁ c rest (by rw [he, List.append_assoc])
    rw [this] at hc
    cases hc
  rw [group1, hsearch]
  rfl

/-- The first place that a match may begin at has the word and a run. -/
theorem group1_marked (ha : Clear s a) (hd : d ≠ []) (hall : ∀ c ∈ d, p c = true)
    (hends : ∀ c ∈ rest.head?, p c = false) :
    (marked s p).group1 (a ++ (s ++ (d ++ rest))) = some d := by
  have hsearch : Yields ((marked s p).search (a ++ (s ++ (d ++ rest)))) [d] := by
    refine Yields.searchFrom (fun prev' l₁ l₂ he hne => ?_) fun prev' => ?_
    · by_contra hmatch
      obtain ⟨c, tail, hpre, -⟩ := matchAt_marked hmatch
      exact ha l₁ l₂ _ he hne ⟨c :: tail, hpre.symm⟩
    · rw [marked_eq, matchAt, run_seq]
      exact Yields.lit fun _ => Yields.group_plus hd hall hends fun _ => ⟨_, rfl⟩
  exact hsearch.group1

/-- The run that a text begins with. -/
def lead (p : Char → Bool) (t : List Char) : Option (List Char) :=
  if t.takeWhile p = [] then none else some (t.takeWhile p)

/-- The run is a part of what comes before a character of another class. -/
theorem prefix_of_lead {k : Nat} {c : Char} (hc : p c = false)
    (h : lead p ((a ++ c :: rest).take k) = some d) : d ≠ [] ∧ d <+: a ∧ ∀ x ∈ d, p x = true := by
  unfold lead at h
  split at h
  · cases h
  rename_i hne
  obtain rfl := Option.some_inj.mp h
  have hall : ∀ x ∈ ((a ++ c :: rest).take k).takeWhile p, p x = true :=
    fun x hx => List.mem_takeWhile_imp hx
  refine ⟨hne, ?_, hall⟩
  have hpre : ((a ++ c :: rest).take k).takeWhile p <+: a ++ c :: rest :=
    (List.takeWhile_prefix p).trans (List.take_prefix k _)
  generalize ((a ++ c :: rest).take k).takeWhile p = d at hall hpre
  by_cases hlen : d.length ≤ a.length
  · exact List.prefix_of_prefix_length_le hpre (List.prefix_append a _) hlen
  · -- it would reach the other character
    have hat : a ++ [c] <+: d :=
      List.prefix_of_prefix_length_le ⟨rest, by simp⟩ hpre (by simp; omega)
    have hmem : c ∈ d := hat.subset (List.mem_append_right a List.mem_cons_self)
    rw [hall c hmem] at hc
    cases hc

/-- All of it, where that is there. -/
theorem lead_whole {k : Nat} {c : Char} (ha : ∀ x ∈ a, p x = true) (hc : p c = false)
    (hne : a ≠ []) (hk : a.length ≤ k) : lead p ((a ++ c :: rest).take k) = some a := by
  have hrest : ((c :: rest).take (k - a.length)).takeWhile p = [] := by
    cases k - a.length with
    | zero => rfl
    | succ n => rw [List.take_succ_cons, List.takeWhile_cons, hc, if_neg Bool.false_ne_true]
  have hwhile : ((a ++ c :: rest).take k).takeWhile p = a := by
    rw [List.take_append, List.take_of_length_le hk, List.takeWhile_append_of_pos ha, hrest,
      List.append_nil]
  rw [lead, hwhile, if_neg hne]

/-- What a text ends with behind a word that it begins with. -/
theorem exists_append_of_prefix (ht : t <+: a ++ u) (hlen : a.length ≤ t.length) :
    t = a ++ u.take (t.length - a.length) := by
  obtain ⟨w, hw⟩ := ht
  obtain ⟨v, rfl⟩ : a <+: t := List.prefix_of_prefix_length_le ⟨u, rfl⟩ ⟨w, hw⟩ hlen
  rw [List.append_assoc] at hw
  rw [← List.append_cancel_left hw]
  simp

section Once

variable (hne : s ≠ []) (hs : Clear s s.tail) (ha : Clear s a) (hu : Free s u)

include hne hs ha hu

/-- The word is at one place of the text only. -/
theorem place_unique {x y : List Char} (h : a ++ (s ++ u) = x ++ (s ++ y)) : x = a := by
  obtain ⟨c, w, rfl⟩ := List.exists_cons_of_ne_nil hne
  rcases List.append_eq_append_iff.mp h with ⟨m, rfl, hm⟩ | ⟨m, rfl, hm⟩
  · cases m with
    | nil => exact List.append_nil a
    | cons z m =>
      -- it would begin inside the word, or behind it
      exfalso
      obtain ⟨-, hm⟩ := List.cons.inj hm
      rcases List.append_eq_append_iff.mp hm with ⟨m', rfl, hm'⟩ | ⟨m', rfl, hm'⟩
      · exact hu ⟨m', y, by rw [hm', List.append_assoc]⟩
      · by_cases hm₀ : m' = []
        · subst hm₀
          exact hu ⟨[], y, hm'⟩
        · exact hs m m' u rfl hm₀ ⟨y, hm'⟩
  · by_cases hm₀ : m = []
    · rw [hm₀, List.append_nil]
    · exact absurd ⟨y, hm⟩ (ha x m _ rfl hm₀)

/-- **A reading shows a beginning of what follows the word, and the run of it is found.** -/
theorem group1_reading (ht : t <+: a ++ (s ++ u)) :
    (marked s p).group1 t = lead p (u.take (t.length - (a ++ s).length)) := by
  have hplace : ∀ x c rest, t = x ++ s ++ c :: rest → x = a := by
    rintro x c rest rfl
    obtain ⟨w, hw⟩ := ht
    exact place_unique (y := c :: rest ++ w) hne hs ha hu (by rw [← hw]; simp)
  unfold lead
  by_cases hlen : t.length ≤ (a ++ s).length
  · rw [Nat.sub_eq_zero_of_le hlen, List.take_zero, List.takeWhile_nil, if_pos rfl]
    refine group1_unmarked fun x c rest he => ?_
    obtain rfl := hplace x c rest he
    rw [he, List.length_append, List.length_cons] at hlen
    omega
  rw [← List.append_assoc] at ht
  have htext := exists_append_of_prefix ht (by omega)
  generalize u.take (t.length - (a ++ s).length) = v at htext ⊢
  split
  · rename_i hnone
    refine group1_unmarked fun x c rest he => ?_
    obtain rfl := hplace x c rest he
    obtain rfl := List.append_cancel_left (htext.symm.trans he)
    by_contra hc
    rw [List.takeWhile_cons, if_pos (by simpa using hc)] at hnone
    cases hnone
  · rename_i hsome
    have hsplit : t = a ++ (s ++ (v.takeWhile p ++ v.dropWhile p)) := by
      rw [List.takeWhile_append_dropWhile, ← List.append_assoc]
      exact htext
    rw [hsplit]
    refine group1_marked ha hsome (fun c hc => List.mem_takeWhile_imp hc) fun c hc => ?_
    have hdrop := List.head?_dropWhile_not p v
    rw [Option.mem_def.mp hc] at hdrop
    exact hdrop

end Once

end Infra.Regex
