import MiniosvCtrl.Infra.Pieces
import MiniosvCtrl.Runner.Parse

/-!
# Figures as lines show them

A metric whose pattern stands at the start of a line and is made of words and runs is read off the
first line that is made so.

* `Metric.Is` — what the lines of a metric are made of
* `First` — the first line that is made so
* `Metric.Is.read_cases` — what is read
* `Metric.ByLine` — what is read does not depend on more than a line
-/

namespace Runner

open Infra Infra.Regex

variable {B : Builtins} {m : Metric} {ps : List Piece} {ls : List (List Char)} {gs : Groups}

/-- The pattern is these pieces, of which one is kept, from the start of a line on. -/
structure Metric.Is (m : Metric) (ps : List Piece) : Prop where
  bound : m.pattern.LineBound
  anchored : m.pattern.Anchored
  is : m.pattern.Is ps
  firm : Firm ps
  one : kept ps = 1

/-- No line is made of the pieces. -/
def Nowhere (ps : List Piece) (ls : List (List Char)) : Prop := ∀ l ∈ ls, ∀ gs, ¬ Reads ps l gs

/-- The first line that is made of the pieces shows this. -/
def First (ps : List Piece) (ls : List (List Char)) (gs : Groups) : Prop :=
  ∃ before l after, ls = before ++ l :: after ∧ Nowhere ps before ∧ Reads ps l gs

theorem First.exists_mem (h : First ps ls gs) : ∃ l ∈ ls, Reads ps l gs := by
  obtain ⟨before, l, after, rfl, -, hl⟩ := h
  exact ⟨l, List.mem_append_right _ List.mem_cons_self, hl⟩

/-- A metric is read off the first of its lines, if there is one. -/
theorem Metric.Is.read_cases (h : m.Is ps) (t : List Char) :
    (∃ g, First ps (lines t) [g] ∧ m.read B t = m.cast.apply B g) ∨
      (Nowhere ps (lines t) ∧ m.read B t = some .none) := by
  have hgroup := group1_line h.bound h.anchored t
  cases hfind : (lines t).findSome? (lineGroups m.pattern) with
  | none =>
    rw [hfind] at hgroup
    refine .inr ⟨fun l hl gs hg => ?_, by rw [Metric.read, hgroup]; rfl⟩
    have hnone := List.findSome?_eq_none_iff.mp hfind l hl
    rw [(lineGroups_iff h.is h.firm).mpr hg] at hnone
    cases hnone
  | some gs =>
    obtain ⟨before, l, after, hlines, hl, hbefore⟩ := List.findSome?_eq_some_iff.mp hfind
    rw [lineGroups_iff h.is h.firm] at hl
    obtain ⟨g, rfl⟩ := hl.eq_singleton h.one
    refine .inl ⟨g, ⟨before, l, after, hlines, fun l' hl' gs' hg' => ?_, hl⟩, ?_⟩
    · have hnone := hbefore l' hl'
      rw [(lineGroups_iff h.is h.firm).mpr hg'] at hnone
      cases hnone
    · rw [Metric.read, hgroup, hfind]
      rfl

/-- A group that was matched is a value, or no value at all. -/
theorem Cast.apply_ne_none (c : Cast) (g : List Char) : c.apply B g ≠ some .none := by
  cases c with
  | int => cases h : B.int g <;> simp [Cast.apply, h]
  | float => cases h : B.float g <;> simp [Cast.apply, h]
  | str => simp [Cast.apply]
  | isTrue => simp [Cast.apply]

theorem Cast.apply_int (g : List Char) :
    Cast.int.apply B g = (B.int g).map fun c : Nat => Scalar.int c := by
  cases h : B.int g <;> simp [Cast.apply, h]

/-- The metric is read off one line, or it is a text, which any text is good for. -/
def Metric.ByLine (m : Metric) : Prop := m.cast = .str ∨ m.pattern.LineBound ∧ m.pattern.Takes

/-- If every line is good for a metric, the text is. -/
theorem Metric.ByLine.isSome (h : m.ByLine) {t : List Char}
    (hlines : ∀ l ∈ lines t, l = [] ∨ (m.read B l).isSome) : (m.read B t).isSome := by
  rcases h with hstr | ⟨hbound, htakes⟩
  · unfold Metric.read
    split
    · rw [hstr]
      rfl
    · rfl
  · have hgroup := group1_eq m.pattern t
    cases hfind : searchGroups m.pattern t with
    | none =>
      rw [hfind] at hgroup
      rw [Metric.read, hgroup]
      rfl
    | some gs =>
      have hfirst := search_line hbound t
      rw [hfind] at hfirst
      obtain ⟨l, hl, hgs⟩ := List.exists_of_findSome?_eq_some hfirst.symm
      have hline : m.pattern.group1 t = m.pattern.group1 l := by
        rw [hgroup, group1_eq, hfind, hgs]
      rcases hlines l hl with rfl | hsome
      · rw [searchGroups_nil htakes] at hgs
        cases hgs
      · rwa [Metric.read, hline]

end Runner
