import MiniosvCtrl.Infra.Regex

/-!
# What a match says of the text

The ways through a pattern as a relation between two positions, and that a matcher that succeeds
has gone one of them. It says nothing about which one. Where a text is made of the pieces that a
pattern asks for, the matcher succeeds.

* `Through` — a way through a pattern, with the groups before and after it
* `through_of_run` — a match is a way through
* `Goes` — what is matched next succeeds, whatever was matched before
-/

namespace Infra.Regex

variable {r a b : Regex} {c d : Cursor} {g g' : Groups} {k : Cont} {f : Found} {p : Char → Bool}
  {s t : List Char}

/-- From `c` through the pattern to `d`. -/
def Through : Regex → Cursor → Groups → Cursor → Groups → Prop
  | lit s, c, g, d, g' => c.rest = s ++ d.rest ∧ g' = g
  | one p, c, g, d, g' => ∃ x, p x = true ∧ c.rest = x :: d.rest ∧ g' = g
  | many p, c, g, d, g' | few p, c, g, d, g' =>
    ∃ s, (∀ x ∈ s, p x = true) ∧ c.rest = s ++ d.rest ∧ g' = g
  | seq a b, c, g, d, g' => ∃ e h, Through a c g e h ∧ Through b e h d g'
  | alt a b, c, g, d, g' => Through a c g d g' ∨ Through b c g d g'
  | group a, c, g, d, g' => ∃ h, Through a c g d h ∧ g' = h ++ [c.upTo d]
  | bol, c, g, d, g' => c.atBol = true ∧ d = c ∧ g' = g
  | eol, c, g, d, g' => c.atEol = true ∧ d = c ∧ g' = g
  | boundary word, c, g, d, g' => c.atBoundary word = true ∧ d = c ∧ g' = g

theorem rest_of_after (h : c.after s = some d) : c.rest = s ++ d.rest := by
  induction s generalizing c with
  | nil =>
    cases h
    rfl
  | cons x s ih =>
    rw [Cursor.after] at h
    cases hrest : c.rest with
    | nil => simp [hrest] at h
    | cons y rest =>
      simp only [hrest] at h
      split at h
      · rename_i hxy
        rw [List.cons_append, ← ih h, hxy]
      · cases h

theorem through_runMany {prev : Option Char} {rest : List Char}
    (h : runMany p g k prev rest = some f) :
    ∃ d, Through (many p) ⟨prev, rest⟩ g d g ∧ k d g = some f := by
  induction rest generalizing prev with
  | nil => exact ⟨⟨prev, []⟩, ⟨[], by simp, rfl, rfl⟩, h⟩
  | cons x rest ih =>
    have hstay : k ⟨prev, x :: rest⟩ g = some f →
        ∃ d, Through (many p) ⟨prev, x :: rest⟩ g d g ∧ k d g = some f :=
      fun h => ⟨_, ⟨[], by simp, rfl, rfl⟩, h⟩
    rw [runMany_cons] at h
    split at h
    · rename_i hx
      rcases Option.or_eq_some_iff.mp h with h | ⟨-, h⟩
      · obtain ⟨d, ⟨s, hs, hrest, -⟩, hk⟩ := ih h
        refine ⟨d, ⟨x :: s, ?_, congrArg (x :: ·) hrest, rfl⟩, hk⟩
        exact List.forall_mem_cons.mpr ⟨hx, hs⟩
      · exact hstay h
    · exact hstay h

theorem through_runFew {prev : Option Char} {rest : List Char}
    (h : runFew p g k prev rest = some f) :
    ∃ d, Through (few p) ⟨prev, rest⟩ g d g ∧ k d g = some f := by
  induction rest generalizing prev with
  | nil => exact ⟨⟨prev, []⟩, ⟨[], by simp, rfl, rfl⟩, h⟩
  | cons x rest ih =>
    rw [runFew_cons] at h
    rcases Option.or_eq_some_iff.mp h with h | ⟨-, h⟩
    · exact ⟨_, ⟨[], by simp, rfl, rfl⟩, h⟩
    · split at h
      · rename_i hx
        obtain ⟨d, ⟨s, hs, hrest, -⟩, hk⟩ := ih h
        refine ⟨d, ⟨x :: s, ?_, congrArg (x :: ·) hrest, rfl⟩, hk⟩
        exact List.forall_mem_cons.mpr ⟨hx, hs⟩
      · cases h

/-- **A match is a way through the pattern, and then through what follows it.** -/
theorem through_of_run (h : run r c g k = some f) :
    ∃ d g', Through r c g d g' ∧ k d g' = some f := by
  induction r generalizing c g k with
  | lit s =>
    rw [run_lit] at h
    cases hafter : c.after s with
    | none => simp [hafter] at h
    | some d =>
      rw [hafter] at h
      exact ⟨d, g, ⟨rest_of_after hafter, rfl⟩, h⟩
  | one p =>
    obtain ⟨prev, rest⟩ := c
    cases rest with
    | nil => cases h
    | cons x rest =>
      rw [run_one_cons] at h
      split at h
      · rename_i hx
        exact ⟨_, g, ⟨x, hx, rfl, rfl⟩, h⟩
      · cases h
  | many p =>
    obtain ⟨d, hd, hk⟩ := through_runMany h
    exact ⟨d, g, hd, hk⟩
  | few p =>
    obtain ⟨d, hd, hk⟩ := through_runFew h
    exact ⟨d, g, hd, hk⟩
  | seq a b iha ihb =>
    obtain ⟨e, h', ha, hb⟩ := iha h
    obtain ⟨d, g', hd, hk⟩ := ihb hb
    exact ⟨d, g', ⟨e, h', ha, hd⟩, hk⟩
  | alt a b iha ihb =>
    rcases Option.or_eq_some_iff.mp h with h | ⟨-, h⟩
    · obtain ⟨d, g', hd, hk⟩ := iha h
      exact ⟨d, g', Or.inl hd, hk⟩
    · obtain ⟨d, g', hd, hk⟩ := ihb h
      exact ⟨d, g', Or.inr hd, hk⟩
  | group a iha =>
    obtain ⟨d, g', hd, hk⟩ := iha h
    exact ⟨d, _, ⟨g', hd, rfl⟩, hk⟩
  | bol | eol | boundary word =>
    unfold run at h
    split at h
    · rename_i hat
      exact ⟨c, g, ⟨hat, rfl, rfl⟩, h⟩
    · cases h

theorem through_of_fullMatch (h : r.fullMatch t = some g) :
    ∃ d, Through r ⟨none, t⟩ [] d g ∧ d.rest = [] := by
  obtain ⟨f, hf, rfl⟩ := Option.map_eq_some_iff.mp h
  obtain ⟨d, g', hd, hk⟩ := through_of_run hf
  split at hk
  · rename_i hrest
    cases hk
    exact ⟨d, hd, hrest⟩
  · cases hk

theorem through_of_matchAt (h : r.matchAt c = some (d, g)) : Through r c [] d g := by
  obtain ⟨d', g', hd, hk⟩ := through_of_run h
  cases hk
  exact hd

/-! ## Pieces -/

/-- One character of a class, or none. -/
theorem Through.opt_one (h : Through (opt (one p)) c g d g') :
    ∃ s, (s = [] ∨ ∃ x, s = [x] ∧ p x = true) ∧ c.rest = s ++ d.rest ∧ g' = g := by
  rcases h with ⟨x, hx, hrest, hg⟩ | ⟨hrest, hg⟩
  · exact ⟨[x], Or.inr ⟨x, rfl, hx⟩, hrest, hg⟩
  · exact ⟨[], Or.inl rfl, hrest, hg⟩

theorem upTo_of_rest (h : c.rest = s ++ d.rest) : c.upTo d = s := by
  simp [Cursor.upTo, h]

/-- The text of a repetition. -/
theorem Through.plus (h : Through (plus p) c g d g') :
    ∃ s, s ≠ [] ∧ (∀ x ∈ s, p x = true) ∧ c.rest = s ++ d.rest ∧ g' = g := by
  obtain ⟨e, _, ⟨x, hx, hc, rfl⟩, s, hs, he, rfl⟩ := h
  exact ⟨x :: s, List.cons_ne_nil x s, List.forall_mem_cons.mpr ⟨hx, hs⟩, by rw [hc, he]; rfl, rfl⟩

/-! ## Texts made of the pieces of a pattern -/

/-- What is matched next succeeds on the text. -/
def Goes (k : Cont) (t : List Char) : Prop := ∀ prev g, k ⟨prev, t⟩ g ≠ none

theorem goes_lit (s : List Char) (h : Goes k t) : Goes (fun c g => run (lit s) c g k) (s ++ t) := by
  intro prev g
  have hafter : ∀ prev, ∃ prev', Cursor.after ⟨prev, s ++ t⟩ s = some ⟨prev', t⟩ := by
    induction s with
    | nil => exact fun prev => ⟨prev, rfl⟩
    | cons x s ih =>
      intro prev
      obtain ⟨prev', hs⟩ := ih (some x)
      exact ⟨prev', by simpa [Cursor.after] using hs⟩
  obtain ⟨prev', hs⟩ := hafter prev
  show run (lit s) ⟨prev, s ++ t⟩ g k ≠ none
  rw [run_lit, hs]
  exact h prev' g

theorem goes_alt_left (h : Goes (fun c g => run a c g k) t) :
    Goes (fun c g => run (alt a b) c g k) t :=
  fun prev g hor => h prev g (Option.or_eq_none_iff.mp hor).1

theorem goes_alt_right (h : Goes (fun c g => run b c g k) t) :
    Goes (fun c g => run (alt a b) c g k) t :=
  fun prev g hor => h prev g (Option.or_eq_none_iff.mp hor).2

/-- A group is no more than what it holds. -/
theorem goes_group (h : ∀ k, Goes k t → Goes (fun c g => run a c g k) s) (hk : Goes k t) :
    Goes (fun c g => run (group a) c g k) s := by
  intro prev g
  exact h (fun d g' => k d (g' ++ [Cursor.upTo ⟨prev, s⟩ d])) (fun prev' g' => hk prev' _) prev g

/-- Everything matches nothing more. -/
theorem goes_some (t : List Char) : Goes (fun d g => some (d, g)) t :=
  fun _ _ => Option.some_ne_none _

end Infra.Regex
