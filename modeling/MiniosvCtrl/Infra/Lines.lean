import MiniosvCtrl.Infra.Regex

/-!
# Patterns that match within a line

A pattern that takes no line break sees a text one line at a time: a search finds what it finds in
the first line that has a match. One that begins with `^` matches such a line at its start.

* `lines`, `unlined` — a text as its lines, and back
* `LineBound`, `Anchored` — patterns that take no line break, and that match at the start of a line
* `run_line` — a match does not look behind its line
* `search_line`, `anchored_line`, `found_line` — what a search finds
* `starts_line` — the matches that do not overlap
-/

namespace Infra.Regex

variable {r : Regex} {p : Char → Bool} {k k' : Cont} {g : Groups} {prev prev' : Option Char}
  {l t tail : List Char}

/-! ## Lines -/

/-- `t.split("\n")` -/
def lines (t : List Char) : List (List Char) := t.splitOn '\n'

/-- `"\n".join(ls)` -/
def unlined (ls : List (List Char)) : List Char := ['\n'].intercalate ls

@[simp] theorem unlined_lines (t : List Char) : unlined (lines t) = t :=
  List.intercalate_splitOn '\n'

theorem unlined_cons_cons (l m : List Char) (ls : List (List Char)) :
    unlined (l :: m :: ls) = l ++ '\n' :: unlined (m :: ls) := by
  simp [unlined, List.intercalate_cons_cons]

@[simp] theorem unlined_singleton (l : List Char) : unlined [l] = l := by
  simp [unlined]

theorem lines_ne_nil (t : List Char) : lines t ≠ [] := List.splitOn_ne_nil _ _

theorem lines_append_cons (a b : List Char) : lines (a ++ '\n' :: b) = lines a ++ lines b :=
  List.splitOn_append_cons_self a b

theorem lines_eq_singleton (h : '\n' ∉ l) : lines l = [l] := List.splitOn_eq_singleton h

/-- A text is one line, or a line and what follows its break. -/
theorem line_cases (t : List Char) : '\n' ∉ t ∨ ∃ l rest, '\n' ∉ l ∧ t = l ++ '\n' :: rest := by
  induction t with
  | nil => exact .inl List.not_mem_nil
  | cons c t ih =>
    by_cases hc : c = '\n'
    · exact .inr ⟨[], t, List.not_mem_nil, by rw [hc, List.nil_append]⟩
    · rcases ih with ht | ⟨l, rest, hl, rfl⟩
      · exact .inl fun h => (List.mem_cons.mp h).elim (fun he => hc he.symm) ht
      · refine .inr ⟨c :: l, rest, fun h => ?_, rfl⟩
        exact (List.mem_cons.mp h).elim (fun he => hc he.symm) hl

/-- One line after the other. -/
theorem line_induction {motive : List Char → Prop} (last : ∀ l, '\n' ∉ l → motive l)
    (cons : ∀ l rest, '\n' ∉ l → motive rest → motive (l ++ '\n' :: rest)) (t : List Char) :
    motive t := by
  induction hn : t.length using Nat.strongRecOn generalizing t with
  | ind n ih =>
    rcases line_cases t with ht | ⟨l, rest, hl, rfl⟩
    · exact last t ht
    · refine cons l rest hl (ih rest.length ?_ rest rfl)
      rw [← hn, List.length_append, List.length_cons]
      omega

/-! ## Patterns -/

/-- No line break is taken, and none counts as part of a word. -/
def LineBound : Regex → Prop
  | lit s => '\n' ∉ s
  | one p | many p | few p | boundary p => p '\n' = false
  | seq a b | alt a b => a.LineBound ∧ b.LineBound
  | group a => a.LineBound
  | bol | eol => True

/-- The end of a text, or of a line. -/
def AtEnd (tail : List Char) : Prop := tail = [] ∨ ∃ rest, tail = '\n' :: rest

/-- The same character, or both at the start of a line. -/
def SamePrev (prev prev' : Option Char) : Prop :=
  prev = prev' ∨ prev.all (· == '\n') = true ∧ prev'.all (· == '\n') = true

/-- What follows a match, and its groups. -/
def leaves (f : Found) : List Char × Groups := (f.1.rest, f.2)

def leavesBefore (tail : List Char) (f : Found) : List Char × Groups := (f.1.rest ++ tail, f.2)

/-- Two continuations that agree, but for what follows the line. -/
def Agree (tail : List Char) (k k' : Cont) : Prop :=
  ∀ prev prev' s g, SamePrev prev prev' →
    (k ⟨prev, s ++ tail⟩ g).map leaves = (k' ⟨prev', s⟩ g).map (leavesBefore tail)

theorem SamePrev.refl (prev : Option Char) : SamePrev prev prev := .inl rfl

theorem SamePrev.atBol (h : SamePrev prev prev') (s s' : List Char) :
    Cursor.atBol ⟨prev, s⟩ = Cursor.atBol ⟨prev', s'⟩ := by
  rcases h with rfl | ⟨h, h'⟩
  · rfl
  · have hall : ∀ q : Option Char, q.all (· == '\n') = true → (q = none ∨ q = some '\n') := by
      intro q hq
      cases q with
      | none => exact .inl rfl
      | some c => exact .inr (congrArg some (beq_iff_eq.mp hq))
    rcases hall prev h with rfl | rfl <;> rcases hall prev' h' with rfl | rfl <;> rfl

theorem SamePrev.any (h : SamePrev prev prev') (hp : p '\n' = false) :
    prev.any p = prev'.any p := by
  rcases h with rfl | ⟨h, h'⟩
  · rfl
  · have hany : ∀ q : Option Char, q.all (· == '\n') = true → q.any p = false := by
      intro q hq
      cases q with
      | none => rfl
      | some c => rw [beq_iff_eq.mp (by simpa using hq : (c == '\n') = true)]; exact hp
    rw [hany prev h, hany prev' h']

theorem after_line (hprev : SamePrev prev prev') {s : List Char} (hs : '\n' ∉ s)
    (ht : AtEnd tail) :
    (∃ q q' m, Cursor.after ⟨prev, l ++ tail⟩ s = some ⟨q, m ++ tail⟩ ∧
      Cursor.after ⟨prev', l⟩ s = some ⟨q', m⟩ ∧ SamePrev q q') ∨
    Cursor.after ⟨prev, l ++ tail⟩ s = none ∧ Cursor.after ⟨prev', l⟩ s = none := by
  induction s generalizing prev prev' l with
  | nil => exact .inl ⟨prev, prev', l, rfl, rfl, hprev⟩
  | cons x s ih =>
    have hx : '\n' ≠ x := fun h => hs (h ▸ List.mem_cons_self)
    have hrest : '\n' ∉ s := fun h => hs (List.mem_cons_of_mem x h)
    cases l with
    | nil =>
      refine .inr ⟨?_, rfl⟩
      rcases ht with rfl | ⟨rest, rfl⟩
      · rfl
      · simp [Cursor.after, Ne.symm hx]
    | cons y l =>
      by_cases hxy : x = y
      · subst hxy
        simpa [Cursor.after] using ih (.refl (some x)) hrest
      · exact .inr ⟨by simp [Cursor.after, hxy], by simp [Cursor.after, hxy]⟩

theorem runMany_line (hp : p '\n' = false) (ht : AtEnd tail) (hk : Agree tail k k')
    (hprev : SamePrev prev prev') : (runMany p g k prev (l ++ tail)).map leaves =
      (runMany p g k' prev' l).map (leavesBefore tail) := by
  induction l generalizing prev prev' with
  | nil =>
    have hnil := hk prev prev' [] g hprev
    rcases ht with rfl | ⟨rest, rfl⟩
    · exact hnil
    · rw [List.nil_append, runMany_cons, hp, if_neg Bool.false_ne_true]
      exact hnil
  | cons x l ih =>
    have hhere := hk prev prev' (x :: l) g hprev
    rw [List.cons_append, runMany_cons, runMany_cons]
    cases p x with
    | false => exact hhere
    | true =>
      rw [if_pos rfl, if_pos rfl, Option.map_or, Option.map_or, ih (.refl (some x))]
      exact congrArg _ hhere

theorem runFew_line (hp : p '\n' = false) (ht : AtEnd tail) (hk : Agree tail k k')
    (hprev : SamePrev prev prev') : (runFew p g k prev (l ++ tail)).map leaves =
      (runFew p g k' prev' l).map (leavesBefore tail) := by
  induction l generalizing prev prev' with
  | nil =>
    have hnil := hk prev prev' [] g hprev
    rcases ht with rfl | ⟨rest, rfl⟩
    · exact hnil
    · rw [List.nil_append, runFew_cons, hp, if_neg Bool.false_ne_true, Option.or_none]
      exact hnil
  | cons x l ih =>
    have hhere := hk prev prev' (x :: l) g hprev
    rw [List.cons_append] at hhere
    rw [List.cons_append, runFew_cons, runFew_cons, Option.map_or, Option.map_or, hhere]
    cases p x with
    | false => rfl
    | true => rw [if_pos rfl, if_pos rfl, ih (.refl (some x))]

/-- What a match takes of a line does not depend on what follows the line. -/
theorem upTo_line (l s tail : List Char) :
    Cursor.upTo ⟨prev, l ++ tail⟩ ⟨prev', s ++ tail⟩ = Cursor.upTo ⟨none, l⟩ ⟨none, s⟩ := by
  have hlength : (l ++ tail).length - (s ++ tail).length = l.length - s.length := by
    rw [List.length_append, List.length_append]
    omega
  show (l ++ tail).take ((l ++ tail).length - (s ++ tail).length) = l.take (l.length - s.length)
  rw [hlength]
  exact List.take_append_of_le_length (Nat.sub_le _ _)

/-- Within a line, a pattern that takes no break goes the same way. -/
theorem run_line (hr : r.LineBound) (ht : AtEnd tail) (hk : Agree tail k k')
    (hprev : SamePrev prev prev') : (r.run ⟨prev, l ++ tail⟩ g k).map leaves =
      (r.run ⟨prev', l⟩ g k').map (leavesBefore tail) := by
  induction r generalizing prev prev' l g k k' with
  | lit s =>
    rw [run_lit, run_lit]
    rcases after_line (l := l) hprev hr ht with ⟨q, q', m, h, h', hq⟩ | ⟨h, h'⟩
    · rw [h, h']
      exact hk q q' m g hq
    · rw [h, h']
      rfl
  | one p =>
    cases l with
    | nil =>
      rcases ht with rfl | ⟨rest, rfl⟩
      · rfl
      · rw [List.nil_append, run_one_cons, (hr : p '\n' = false), if_neg Bool.false_ne_true]
        rfl
    | cons x l =>
      rw [List.cons_append, run_one_cons, run_one_cons]
      cases p x with
      | false => rfl
      | true => exact hk (some x) (some x) l g (.refl _)
  | many p => exact runMany_line hr ht hk hprev
  | few p => exact runFew_line hr ht hk hprev
  | seq a b iha ihb =>
    exact iha hr.1 (fun q q' s g hq => ihb hr.2 hk hq) hprev
  | alt a b iha ihb =>
    show ((run a _ g k).or (run b _ g k)).map leaves = ((run a _ g k').or (run b _ g k')).map _
    rw [Option.map_or, Option.map_or, iha hr.1 hk hprev, ihb hr.2 hk hprev]
  | group a iha =>
    refine iha hr (fun q q' s g hq => ?_) hprev
    rw [upTo_line]
    exact hk q q' s _ hq
  | bol =>
    rw [run_bol, run_bol, hprev.atBol (l ++ tail) l]
    cases Cursor.atBol ⟨prev', l⟩ with
    | false => rfl
    | true => exact hk prev prev' l g hprev
  | eol =>
    -- the line ends where the text does, or before the break
    have heol : Cursor.atEol ⟨prev, l ++ tail⟩ = Cursor.atEol ⟨prev', l⟩ := by
      cases l with
      | nil => rcases ht with rfl | ⟨rest, rfl⟩ <;> rfl
      | cons x l => rfl
    show (if Cursor.atEol ⟨prev, l ++ tail⟩ then k ⟨prev, l ++ tail⟩ g else none).map leaves = _
    rw [heol]
    show _ = (if Cursor.atEol ⟨prev', l⟩ then k' ⟨prev', l⟩ g else none).map _
    cases Cursor.atEol ⟨prev', l⟩ with
    | false => rfl
    | true => exact hk prev prev' l g hprev
  | boundary word =>
    -- a break is no letter of a word, as there is none at the end of a text
    have hhead : (l ++ tail).head?.any word = l.head?.any word := by
      cases l with
      | nil =>
        rcases ht with rfl | ⟨rest, rfl⟩
        · rfl
        · exact hr
      | cons x l => rfl
    have hedge : Cursor.atBoundary word ⟨prev, l ++ tail⟩ =
        Cursor.atBoundary word ⟨prev', l⟩ := by
      show (prev.any word != (l ++ tail).head?.any word) = (prev'.any word != l.head?.any word)
      rw [hhead, hprev.any hr]
    show (if Cursor.atBoundary word ⟨prev, l ++ tail⟩ then k ⟨prev, l ++ tail⟩ g else none).map _ =
      _
    rw [hedge]
    show _ = (if Cursor.atBoundary word ⟨prev', l⟩ then k' ⟨prev', l⟩ g else none).map _
    cases Cursor.atBoundary word ⟨prev', l⟩ with
    | false => rfl
    | true => exact hk prev prev' l g hprev

theorem matchAt_line (hr : r.LineBound) (ht : AtEnd tail) (hprev : SamePrev prev prev') :
    (r.matchAt ⟨prev, l ++ tail⟩).map leaves =
      (r.matchAt ⟨prev', l⟩).map (leavesBefore tail) :=
  run_line hr ht (fun _ _ _ _ _ => rfl) hprev

/-! ## Searching -/

/-- The groups of a match at the start of a line. -/
def lineGroups (r : Regex) (l : List Char) : Option Groups := (r.matchAt ⟨none, l⟩).map Prod.snd

theorem lines_cons (h : '\n' ∉ l) (rest : List Char) :
    lines (l ++ '\n' :: rest) = l :: lines rest := by
  rw [lines_append_cons, lines_eq_singleton h, List.singleton_append]

theorem unlined_cons_lines (l rest : List Char) :
    unlined (l :: lines rest) = l ++ '\n' :: unlined (lines rest) := by
  cases h : lines rest with
  | nil => exact absurd h (lines_ne_nil rest)
  | cons m ls => exact unlined_cons_cons l m ls

theorem not_mem_of_mem_lines (h : l ∈ lines t) : '\n' ∉ l := by
  induction t using line_induction with
  | last m hm =>
    rw [lines_eq_singleton hm] at h
    rwa [List.mem_singleton.mp h]
  | cons m rest hm ih =>
    rw [lines_cons hm] at h
    rcases List.mem_cons.mp h with rfl | h
    · exact hm
    · exact ih h

theorem matchAt_samePrev (hr : r.LineBound) (ht : AtEnd tail) (hprev : SamePrev prev prev') :
    (r.matchAt ⟨prev, l ++ tail⟩).map Prod.snd = (r.matchAt ⟨prev', l⟩).map Prod.snd := by
  have h := congrArg (Option.map Prod.snd) (matchAt_line (l := l) hr ht hprev)
  rw [Option.map_map, Option.map_map] at h
  exact h

theorem matchAt_groups (hr : r.LineBound) (ht : AtEnd tail) (hprev : prev.all (· == '\n') = true) :
    (r.matchAt ⟨prev, l ++ tail⟩).map Prod.snd = lineGroups r l :=
  matchAt_samePrev hr ht (.inr ⟨hprev, rfl⟩)

/-- Nothing matches but at the start of a line. -/
def Anchored : Regex → Prop
  | bol => True
  | seq a _ | group a => a.Anchored
  | alt a b => a.Anchored ∧ b.Anchored
  | _ => False

theorem run_anchored {c : Cursor} (hr : r.Anchored) (hc : c.atBol = false) :
    r.run c g k = none := by
  induction r generalizing g k with
  | bol => rw [run_bol, hc, if_neg Bool.false_ne_true]
  | seq a b iha _ => exact iha hr
  | group a iha => exact iha hr
  | alt a b iha ihb =>
    show (run a c g k).or (run b c g k) = none
    rw [iha hr.1, ihb hr.2, Option.or_none]
  | lit | one | many | few | eol | boundary => exact hr.elim

theorem matchAt_anchored {c : Char} (hr : r.Anchored) (hc : c ≠ '\n') :
    r.matchAt ⟨some c, t⟩ = none :=
  run_anchored hr (by simp [Cursor.atBol, hc])

theorem ne_of_not_mem_cons {x : Char} (h : '\n' ∉ x :: l) : x ≠ '\n' :=
  fun he => h (he ▸ List.mem_cons_self)

/-- The groups of what a search finds. -/
def searchGroups (r : Regex) (t : List Char) : Option Groups := (r.search t).map Prod.snd

theorem searchFrom_samePrev (hr : r.LineBound) (hprev : SamePrev prev prev') :
    (r.searchFrom prev l).map Prod.snd = (r.searchFrom prev' l).map Prod.snd := by
  have hat := matchAt_samePrev (l := l) hr (.inl rfl) hprev
  rw [List.append_nil] at hat
  cases l with
  | nil => exact hat
  | cons x l => rw [searchFrom_cons, searchFrom_cons, Option.map_or, Option.map_or, hat]

/-- What a line has is found before what follows it has. -/
theorem searchFrom_append (hr : r.LineBound) (hprev : SamePrev prev prev') (rest : List Char) :
    (r.searchFrom prev (l ++ '\n' :: rest)).map Prod.snd =
      ((r.searchFrom prev' l).map Prod.snd).or
        ((r.searchFrom (some '\n') rest).map Prod.snd) := by
  have hend : AtEnd ('\n' :: rest) := .inr ⟨rest, rfl⟩
  have hat := matchAt_samePrev (l := l) hr hend hprev
  induction l generalizing prev prev' with
  | nil =>
    rw [List.nil_append, searchFrom_cons, searchFrom_nil, Option.map_or]
    exact congrArg (Option.or · _) hat
  | cons x l ih =>
    have hx := SamePrev.refl (some x)
    rw [List.cons_append, searchFrom_cons, searchFrom_cons, Option.map_or, Option.map_or,
      ih hx (matchAt_samePrev hr hend hx), Option.or_assoc]
    exact congrArg (Option.or · _) hat

theorem searchFrom_line (hr : r.LineBound) (hprev : prev.all (· == '\n') = true)
    (t : List Char) :
    (r.searchFrom prev t).map Prod.snd = (lines t).findSome? (searchGroups r) := by
  have hsame : SamePrev prev none := .inr ⟨hprev, rfl⟩
  induction t using line_induction generalizing prev with
  | last l hl =>
    rw [lines_eq_singleton hl, List.findSome?_singleton, searchFrom_samePrev hr hsame]
    rfl
  | cons l rest hl ih =>
    rw [searchFrom_append hr hsame, ih rfl (.inr ⟨rfl, rfl⟩), lines_cons hl, List.findSome?_cons]
    show ((searchGroups r l).or _) = _
    cases searchGroups r l <;> rfl

/-- **The first line that has a match is where a search finds it.** -/
theorem search_line (hr : r.LineBound) (t : List Char) :
    searchGroups r t = (lines t).findSome? (searchGroups r) :=
  searchFrom_line hr rfl t

theorem searchFrom_within {c : Char} (hr : r.Anchored) (hc : c ≠ '\n') (hl : '\n' ∉ l) :
    r.searchFrom (some c) l = none := by
  induction l generalizing c with
  | nil => rw [searchFrom_nil, matchAt_anchored hr hc]
  | cons x l ih =>
    rw [searchFrom_cons, matchAt_anchored hr hc, Option.none_or]
    exact ih (ne_of_not_mem_cons hl) fun h => hl (List.mem_cons_of_mem x h)

theorem searchGroups_anchored (hr : r.Anchored) (hl : '\n' ∉ l) :
    searchGroups r l = lineGroups r l := by
  cases l with
  | nil => rfl
  | cons x l =>
    show (r.searchFrom none (x :: l)).map Prod.snd = _
    rw [searchFrom_cons, searchFrom_within hr (ne_of_not_mem_cons hl)
      fun h => hl (List.mem_cons_of_mem x h), Option.or_none]
    rfl

theorem findSome?_congr {α β : Type} {f f' : α → Option β} {xs : List α}
    (h : ∀ x ∈ xs, f x = f' x) : xs.findSome? f = xs.findSome? f' := by
  induction xs with
  | nil => rfl
  | cons x xs ih =>
    rw [List.findSome?_cons, List.findSome?_cons, h x List.mem_cons_self,
      ih fun y hy => h y (List.mem_cons_of_mem x hy)]

/-- **The first line that the pattern matches is found.** -/
theorem anchored_line (hr : r.LineBound) (ha : r.Anchored) (t : List Char) :
    searchGroups r t = (lines t).findSome? (lineGroups r) := by
  rw [search_line hr]
  exact findSome?_congr fun l hl => searchGroups_anchored ha (not_mem_of_mem_lines hl)

theorem group1_eq (r : Regex) (t : List Char) :
    r.group1 t = (searchGroups r t).bind List.head? := by
  rw [searchGroups, group1]
  cases r.search t <;> rfl

theorem group1_line (hr : r.LineBound) (ha : r.Anchored) (t : List Char) :
    r.group1 t = ((lines t).findSome? (lineGroups r)).bind List.head? := by
  rw [group1_eq, anchored_line hr ha]

theorem found_line (hr : r.LineBound) (ha : r.Anchored) (t : List Char) :
    r.found t = true ↔ ∃ l ∈ lines t, lineGroups r l ≠ none := by
  have hsome : r.found t = ((lines t).findSome? (lineGroups r)).isSome := by
    rw [← anchored_line hr ha, searchGroups, Option.isSome_map, found]
  rw [hsome, List.isSome_findSome?, List.any_eq_true]
  simp [Option.isSome_iff_ne_none]

/-! ## Patterns that match no empty text -/

/-- A match takes a character at least. -/
def Takes : Regex → Prop
  | lit s => s ≠ []
  | one _ => True
  | seq a b => a.Takes ∨ b.Takes
  | alt a b => a.Takes ∧ b.Takes
  | group a => a.Takes
  | _ => False

/-- At the end of a text a pattern can only go on where it is. -/
theorem run_end (r : Regex) (hk : ∀ prev g, k ⟨prev, []⟩ g = none) (prev : Option Char)
    (g : Groups) : r.run ⟨prev, []⟩ g k = none := by
  induction r generalizing k prev g with
  | lit s =>
    cases s with
    | nil => exact hk prev g
    | cons x s => rfl
  | one p => rfl
  | many p => exact hk prev g
  | few p =>
    show (k ⟨prev, []⟩ g) = none
    exact hk prev g
  | seq a b iha ihb => exact iha (fun prev g => ihb hk prev g) prev g
  | alt a b iha ihb =>
    show (run a ⟨prev, []⟩ g k).or (run b ⟨prev, []⟩ g k) = none
    rw [iha hk, ihb hk, Option.or_none]
  | group a iha =>
    have hgroup : ∀ p h, (fun d g => k d (g ++ [Cursor.upTo ⟨prev, []⟩ d])) ⟨p, []⟩ h = none :=
      fun p h => hk p _
    exact iha hgroup prev g
  | bol | eol | boundary word =>
    unfold run
    split
    · exact hk prev g
    · rfl

theorem run_takes (hr : r.Takes) (prev : Option Char) (g : Groups) :
    r.run ⟨prev, []⟩ g k = none := by
  induction r generalizing k prev g with
  | lit s =>
    cases s with
    | nil => exact absurd rfl hr
    | cons x s => rfl
  | one p => rfl
  | seq a b iha ihb =>
    rcases hr with ha | hb
    · exact iha ha prev g
    · exact run_end a (fun prev g => ihb hb prev g) prev g
  | alt a b iha ihb =>
    show (run a ⟨prev, []⟩ g k).or (run b ⟨prev, []⟩ g k) = none
    rw [iha hr.1, ihb hr.2, Option.or_none]
  | group a iha => exact iha hr prev g
  | many | few | bol | eol | boundary => exact hr.elim

theorem searchGroups_nil (hr : r.Takes) : searchGroups r [] = none := by
  show (r.matchAt ⟨none, []⟩).map Prod.snd = none
  rw [matchAt, run_takes hr]
  rfl

/-! ## Matches that do not overlap -/

/-- Where the lines that the pattern matches begin, with what follows and the groups. -/
def lineStarts (r : Regex) : List (List Char) → List (List Char × Groups)
  | [] => []
  | l :: ls =>
    match lineGroups r l with
    | some g => (unlined (l :: ls), g) :: lineStarts r ls
    | none => lineStarts r ls

section

variable {c : Char} {skip : Nat}

theorem startsFrom_within (hr : r.Anchored) (hc : c ≠ '\n') (hl : '\n' ∉ l) :
    r.startsFrom skip (some c) l = [] := by
  induction l generalizing c skip with
  | nil => cases skip <;> rfl
  | cons x l ih =>
    have hrest : ∀ n, r.startsFrom n (some x) l = [] := fun n =>
      ih (ne_of_not_mem_cons hl) fun h => hl (List.mem_cons_of_mem x h)
    cases skip with
    | zero =>
      rw [startsFrom, matchAt_anchored hr hc]
      exact hrest 0
    | succ skip => exact hrest skip

theorem startsFrom_next (hr : r.Anchored) (hc : c ≠ '\n') (hl : '\n' ∉ l) (hskip : skip ≤ l.length)
    (rest : List Char) : r.startsFrom skip (some c) (l ++ '\n' :: rest) =
      r.startsFrom 0 (some '\n') rest := by
  induction l generalizing c skip with
  | nil =>
    rw [Nat.le_zero.mp hskip, List.nil_append, startsFrom, matchAt_anchored hr hc]
  | cons x l ih =>
    have hrest : ∀ n ≤ l.length, r.startsFrom n (some x) (l ++ '\n' :: rest) =
        r.startsFrom 0 (some '\n') rest := fun n =>
      ih (ne_of_not_mem_cons hl) fun h => hl (List.mem_cons_of_mem x h)
    cases skip with
    | zero =>
      rw [List.cons_append, startsFrom, matchAt_anchored hr hc]
      exact hrest 0 (Nat.zero_le _)
    | succ skip => exact hrest skip (Nat.le_of_succ_le_succ hskip)

end

/-- A match takes no more than its line. -/
theorem length_of_matchAt (hr : r.LineBound) (ht : AtEnd tail) {f : Found}
    (h : r.matchAt ⟨prev, l ++ tail⟩ = some f) : tail.length ≤ f.1.rest.length := by
  have hline := matchAt_line (l := l) hr ht (.refl prev)
  rw [h] at hline
  cases hm : r.matchAt ⟨prev, l⟩ with
  | none => rw [hm] at hline; cases hline
  | some f' =>
    rw [hm] at hline
    have hrest : f.1.rest = f'.1.rest ++ tail := congrArg Prod.fst (Option.some_inj.mp hline)
    rw [hrest, List.length_append]
    exact Nat.le_add_left _ _

/-- **The matches are the lines that the pattern matches.** -/
theorem startsFrom_line (hr : r.LineBound) (ha : r.Anchored) (hempty : lineGroups r [] = none)
    (hprev : prev.all (· == '\n') = true) (t : List Char) :
    (r.startsFrom 0 prev t).map (fun f => (f.1, f.2.2)) = lineStarts r (lines t) := by
  induction t using line_induction generalizing prev with
  | last l hl =>
    have hgroups := matchAt_groups (l := l) hr (.inl rfl) hprev
    rw [List.append_nil] at hgroups
    rw [lines_eq_singleton hl, lineStarts, ← hgroups, unlined_singleton]
    cases l with
    | nil =>
      rw [hgroups, hempty]
      rfl
    | cons x l =>
      -- behind its first character an anchored pattern starts nowhere in the line
      have hwithin : ∀ n, r.startsFrom n (some x) l = [] := fun n =>
        startsFrom_within ha (ne_of_not_mem_cons hl) fun h => hl (List.mem_cons_of_mem x h)
      rw [startsFrom]
      cases r.matchAt ⟨prev, x :: l⟩ with
      | none => simp [hwithin, lineStarts]
      | some f => simp [hwithin, lineStarts]
  | cons l rest hl ih =>
    have hend : AtEnd ('\n' :: rest) := .inr ⟨rest, rfl⟩
    have hgroups := matchAt_groups (l := l) hr hend hprev
    have hrest : (r.startsFrom 0 (some '\n') rest).map (fun f => (f.1, f.2.2)) =
        lineStarts r (lines rest) := ih rfl
    rw [lines_cons hl, lineStarts, ← hgroups, unlined_cons_lines, unlined_lines]
    cases l with
    | nil =>
      have hnone : r.matchAt ⟨prev, '\n' :: rest⟩ = none := by
        rw [hempty] at hgroups
        exact Option.map_eq_none_iff.mp hgroups
      rw [List.nil_append, startsFrom, hnone]
      exact hrest
    | cons x l =>
      have hx := ne_of_not_mem_cons hl
      have hl' : '\n' ∉ l := fun h => hl (List.mem_cons_of_mem x h)
      rw [List.cons_append, startsFrom]
      cases hm : r.matchAt ⟨prev, x :: (l ++ '\n' :: rest)⟩ with
      | none =>
        simp only [Option.map_none]
        rw [startsFrom_next ha hx hl' (Nat.zero_le _)]
        exact hrest
      | some f =>
        have hle := length_of_matchAt (l := x :: l) hr hend hm
        -- the match ends in the line, so the search goes on before the next one
        have hskip : (l ++ '\n' :: rest).length - f.1.rest.length ≤ l.length := by
          rw [List.length_append]
          omega
        simp only [Option.map_some, List.map_cons]
        rw [startsFrom_next ha hx hl' hskip]
        exact congrArg _ hrest

theorem starts_line (hr : r.LineBound) (ha : r.Anchored) (hempty : lineGroups r [] = none)
    (t : List Char) : (r.starts t).map (fun f => (f.1, f.2.2)) = lineStarts r (lines t) :=
  startsFrom_line hr ha hempty rfl t

end Infra.Regex
