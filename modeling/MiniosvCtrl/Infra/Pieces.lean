import Mathlib.Data.List.TakeWhile
import MiniosvCtrl.Infra.Lines
import MiniosvCtrl.Infra.Search

/-!
# Patterns of words and runs

Most patterns for a line of a log are made of literal texts with runs of a class of characters
between them. Where each run is followed by a text that begins with another character, there is
one way at most to read a line, and the matcher finds it.

* `Piece`, `Reads` — what a line looks like, and the runs that are kept
* `Firm` — no run can end early
* `lineGroups_iff` — the groups of a match are the runs that are kept
-/

namespace Infra.Regex

variable {p : Char → Bool} {k : Cont} {g gs gs' : Groups} {prev : Option Char}
  {s l rest : List Char}

inductive Piece
  | lit (s : List Char)
  | run (p : Char → Bool)
  /-- A run that is a group. -/
  | keep (p : Char → Bool)
  /-- A literal that is a group. -/
  | mark (s : List Char)

/-- The text of a literal. -/
def Piece.text (s : String) : Piece := lit s.toList

/-- All there is of a run. -/
structure Run (p : Char → Bool) (s rest : List Char) : Prop where
  ne_nil : s ≠ []
  all : ∀ c ∈ s, p c = true
  ends : ∀ c ∈ rest.head?, p c = false

/-- The line begins with these pieces, and these are the runs that are kept. -/
def Reads : List Piece → List Char → Groups → Prop
  | [], _, gs => gs = []
  | .lit s :: ps, l, gs => ∃ rest, l = s ++ rest ∧ Reads ps rest gs
  | .run p :: ps, l, gs => ∃ s rest, l = s ++ rest ∧ Run p s rest ∧ Reads ps rest gs
  | .keep p :: ps, l, gs =>
    ∃ s rest gs', l = s ++ rest ∧ Run p s rest ∧ gs = s :: gs' ∧ Reads ps rest gs'
  | .mark s :: ps, l, gs => ∃ rest gs', l = s ++ rest ∧ gs = s :: gs' ∧ Reads ps rest gs'

/-- How many are kept. -/
def kept : List Piece → Nat
  | [] => 0
  | .lit _ :: ps | .run _ :: ps => kept ps
  | .keep _ :: ps | .mark _ :: ps => kept ps + 1

/-- A literal that no run of the class goes on into. -/
def Stops (p : Char → Bool) (s : List Char) : Prop := s.head?.any (fun c => !p c) = true

/-- Every run but the last piece is followed by a literal that stops it. -/
def Firm : List Piece → Prop
  | [] | [_] => True
  | .lit _ :: ps | .mark _ :: ps => Firm ps
  | .run p :: .lit s :: ps | .keep p :: .lit s :: ps => Stops p s ∧ Firm (.lit s :: ps)
  | _ => False

def Piece.regex : Piece → Regex
  | lit s => .lit s
  | run p => .plus p
  | keep p => .group (.plus p)
  | mark s => .group (.lit s)

/-- The first way through the pieces and then through `k`. -/
def ways : List Piece → Cont → Cont
  | [], k => k
  | p :: ps, k => fun c g => p.regex.run c g (ways ps k)

/-- The end of the pattern. -/
def done : Cont := fun d g => some (d, g)

theorem Reads.ways {ps : List Piece} (h : Reads ps l gs) (prev : Option Char) (g : Groups) :
    Yields (ways ps done ⟨prev, l⟩ g) (g ++ gs) := by
  induction ps generalizing l gs prev g with
  | nil =>
    obtain rfl : gs = [] := h
    exact ⟨⟨prev, l⟩, by rw [List.append_nil]; rfl⟩
  | cons piece ps ih =>
    cases piece with
    | lit s =>
      obtain ⟨rest, rfl, hrest⟩ := h
      exact Yields.lit fun prev' => ih hrest prev' g
    | run p =>
      obtain ⟨s, rest, rfl, hs, hrest⟩ := h
      exact Yields.plus hs.ne_nil hs.all hs.ends fun prev' => ih hrest prev' g
    | keep p =>
      obtain ⟨s, rest, gs', rfl, hs, rfl, hrest⟩ := h
      refine Yields.group_plus hs.ne_nil hs.all hs.ends fun prev' => ?_
      have hways := ih hrest prev' (g ++ [s])
      rwa [List.append_assoc, List.singleton_append] at hways
    | mark s =>
      obtain ⟨rest, gs', rfl, rfl, hrest⟩ := h
      show Yields (Regex.run (.group (.lit s)) ⟨prev, s ++ rest⟩ g _) _
      rw [run_group]
      refine Yields.lit fun prev' => ?_
      rw [upTo_append]
      have hways := ih hrest prev' (g ++ [s])
      rwa [List.append_assoc, List.singleton_append] at hways

theorem head_of_stops (h : Stops p s) (rest : List Char) :
    ∀ c ∈ (s ++ rest).head?, p c = false := by
  cases s with
  | nil => cases h
  | cons x s =>
    intro c hc
    obtain rfl := Option.some_inj.mp hc
    simpa [Stops] using h

/-- A run that something follows is a whole one, or can be made one. -/
theorem run_of_ways {ps : List Piece} (hfirm : Firm (.run p :: ps))
    (hk : ∀ c g, k c g ≠ none → ∃ g', ways ps done c g' ≠ none)
    (h : Regex.run (.plus p) ⟨prev, l⟩ g k ≠ none) :
    ∃ s rest prev' g', l = s ++ rest ∧ Run p s rest ∧ ways ps done ⟨prev', rest⟩ g' ≠ none := by
  obtain ⟨s, t, prev', rfl, hne, hs, ht⟩ := run_plus_split h
  obtain ⟨g', ht⟩ := hk _ _ ht
  match ps, hfirm with
  | [], _ =>
    refine ⟨s ++ t.takeWhile p, t.dropWhile p, prev', g', ?_, ⟨by simp [hne], ?_, ?_⟩,
      Option.some_ne_none _⟩
    · rw [List.append_assoc, List.takeWhile_append_dropWhile]
    · intro c hc
      rcases List.mem_append.mp hc with hc | hc
      · exact hs c hc
      · exact List.mem_takeWhile_imp hc
    · intro c hc
      have hhead := List.head?_dropWhile_not p t
      rw [Option.mem_def.mp hc] at hhead
      simpa using hhead
  | .lit s' :: ps, hfirm =>
    obtain ⟨rest, prev'', rfl, hrest⟩ := run_lit_split ht
    exact ⟨s, s' ++ rest, prev', g', rfl, ⟨hne, hs, head_of_stops hfirm.1 rest⟩, ht⟩

theorem Firm.run {ps : List Piece} (h : Firm (.keep p :: ps)) : Firm (.run p :: ps) := by
  match ps, h with
  | [], _ => trivial
  | .lit _ :: _, h => exact h

theorem Firm.tail {piece : Piece} {ps : List Piece} (h : Firm (piece :: ps)) : Firm ps := by
  match piece, ps, h with
  | _, [], _ => trivial
  | .lit _, _ :: _, h | .mark _, _ :: _, h => exact h
  | .run _, .lit _ :: _, h | .keep _, .lit _ :: _, h => exact h.2

theorem exists_reads {ps : List Piece} (hfirm : Firm ps) (h : ways ps done ⟨prev, l⟩ g ≠ none) :
    ∃ gs, Reads ps l gs := by
  induction ps generalizing l prev g with
  | nil => exact ⟨[], rfl⟩
  | cons piece ps ih =>
    cases piece with
    | lit s =>
      obtain ⟨rest, prev', rfl, hrest⟩ := run_lit_split h
      obtain ⟨gs, hgs⟩ := ih hfirm.tail hrest
      exact ⟨gs, rest, rfl, hgs⟩
    | run p =>
      obtain ⟨s, rest, prev', g', rfl, hs, hrest⟩ :=
        run_of_ways hfirm (fun _ g h => ⟨g, h⟩) h
      obtain ⟨gs, hgs⟩ := ih hfirm.tail hrest
      exact ⟨gs, s, rest, rfl, hs, hgs⟩
    | keep p =>
      obtain ⟨s, rest, prev', g', rfl, hs, hrest⟩ :=
        run_of_ways hfirm.run (fun _ g h => ⟨_, h⟩) h
      obtain ⟨gs, hgs⟩ := ih hfirm.tail hrest
      exact ⟨s :: gs, s, rest, gs, rfl, hs, rfl, hgs⟩
    | mark s =>
      have h : Regex.run (.group (.lit s)) ⟨prev, l⟩ g _ ≠ none := h
      rw [run_group] at h
      obtain ⟨rest, prev', rfl, hrest⟩ := run_lit_split h
      obtain ⟨gs, hgs⟩ := ih hfirm.tail hrest
      exact ⟨s :: gs, rest, gs, rfl, rfl, hgs⟩

/-- A pattern that is these pieces, from the start of a line on. -/
def Is (r : Regex) (ps : List Piece) : Prop :=
  ∀ l, r.matchAt ⟨none, l⟩ = ways ps done ⟨none, l⟩ []

/-- **A line is matched exactly if it is made of the pieces.** -/
theorem lineGroups_iff {r : Regex} {ps : List Piece} (hr : r.Is ps) (hfirm : Firm ps) :
    lineGroups r l = some gs ↔ Reads ps l gs := by
  rw [lineGroups, hr]
  have hreads : ∀ gs, Reads ps l gs → (ways ps done ⟨none, l⟩ []).map Prod.snd = some gs := by
    intro gs h
    obtain ⟨c, hc⟩ := Reads.ways h none []
    rw [hc]
    rfl
  refine ⟨fun h => ?_, hreads gs⟩
  obtain ⟨f, hf, -⟩ := Option.map_eq_some_iff.mp h
  obtain ⟨gs', hgs'⟩ := exists_reads hfirm (hf ▸ Option.some_ne_none f)
  obtain rfl := Option.some_inj.mp (h.symm.trans (hreads gs' hgs'))
  exact hgs'

theorem Reads.length {ps : List Piece} (h : Reads ps l gs) : gs.length = kept ps := by
  induction ps generalizing l gs with
  | nil =>
    obtain rfl : gs = [] := h
    rfl
  | cons piece ps ih =>
    cases piece with
    | lit s =>
      obtain ⟨rest, -, hrest⟩ := h
      exact ih hrest
    | run p =>
      obtain ⟨s, rest, -, -, hrest⟩ := h
      exact ih hrest
    | keep p =>
      obtain ⟨s, rest, gs', -, -, rfl, hrest⟩ := h
      exact congrArg (· + 1) (ih hrest)
    | mark s =>
      obtain ⟨rest, gs', -, rfl, hrest⟩ := h
      exact congrArg (· + 1) (ih hrest)

theorem Reads.eq_singleton {ps : List Piece} (h : Reads ps l gs) (hone : kept ps = 1) :
    ∃ s, gs = [s] :=
  List.length_eq_one_iff.mp (h.length.trans hone)

/-- There is one way at most to read a line. -/
theorem Reads.unique {ps : List Piece} (h : Reads ps l gs) (h' : Reads ps l gs') : gs = gs' := by
  obtain ⟨c, hc⟩ := Reads.ways h none []
  obtain ⟨c', hc'⟩ := Reads.ways h' none []
  rw [hc] at hc'
  exact congrArg Prod.snd (Option.some_inj.mp hc')

end Infra.Regex
