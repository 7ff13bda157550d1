import MiniosvCtrl.Infra.Lines

/-!
# Searching a text line by line

A pattern that matches within a line finds the first line that it matches in. What a line is made
of decides whether a search passes over it, and a match is followed piece by piece.

* `Yields` — a way through, with its groups
* `Free`, `Clear` — a text that a word does not occur in, and one in which it does not begin
* `Opens` — how a match begins
* `Skips`, `Hits` — what a search does with a line
* `search_lines`, `search_eq_none` — what it does with a text
* `search_find`, `search_find_none` — what it does with a text that was printed line by line
-/

namespace Infra.Regex

variable {r r' : Regex} {p : Char → Bool} {k : Cont} {g gs : Groups} {prev : Option Char}
  {a b d s t l : List Char}

/-! ## Ways through -/

/-- There is a way through, with these groups. -/
def Yields (o : Option Found) (gs : Groups) : Prop := ∃ c, o = some (c, gs)

theorem Yields.or_left {o o' : Option Found} (h : Yields o gs) : Yields (o.or o') gs := by
  obtain ⟨c, rfl⟩ := h
  exact ⟨c, rfl⟩

theorem Yields.group1 (h : Yields (search r t) (s :: gs)) : r.group1 t = some s := by
  obtain ⟨c, h⟩ := h
  rw [Regex.group1, h]
  rfl

theorem after_append (s t : List Char) (prev : Option Char) :
    ∃ prev', Cursor.after ⟨prev, s ++ t⟩ s = some ⟨prev', t⟩ := by
  induction s generalizing prev with
  | nil => exact ⟨prev, rfl⟩
  | cons x s ih =>
    obtain ⟨prev', h⟩ := ih (some x)
    exact ⟨prev', by rw [List.cons_append, Cursor.after]; simpa using h⟩

theorem after_eq_none (h : ¬ s <+: t) (prev : Option Char) :
    Cursor.after ⟨prev, t⟩ s = none := by
  induction s generalizing t prev with
  | nil => exact absurd List.nil_prefix h
  | cons x s ih =>
    cases t with
    | nil => rfl
    | cons y t =>
      rw [Cursor.after]
      by_cases hxy : x = y
      · subst hxy
        simpa using ih (fun hp => h (List.cons_prefix_cons.mpr ⟨rfl, hp⟩)) (some x)
      · simp [hxy]

/-- Where a literal does not stand, there is no way through it. -/
theorem run_lit_eq_none (h : ¬ s <+: t) : run (.lit s) ⟨prev, t⟩ g k = none := by
  rw [run_lit, after_eq_none h]
  rfl

theorem Yields.lit (h : ∀ prev', Yields (k ⟨prev', t⟩ g) gs) :
    Yields (run (.lit s) ⟨prev, s ++ t⟩ g k) gs := by
  obtain ⟨prev', hafter⟩ := after_append s t prev
  rw [run_lit, hafter]
  exact h prev'

theorem Yields.bol (hbol : prev.all (· == '\n') = true) (h : Yields (k ⟨prev, t⟩ g) gs) :
    Yields (run .bol ⟨prev, t⟩ g k) gs := by
  have hat : Cursor.atBol ⟨prev, t⟩ = true := by
    cases prev with
    | none => rfl
    | some c => simpa [Cursor.atBol] using hbol
  rw [run_bol, if_pos hat]
  exact h

/-- A greedy repetition stops where it has to, if there is a way on from there. -/
theorem Yields.many (hd : ∀ c ∈ d, p c = true) (ht : ∀ c ∈ t.head?, p c = false)
    (h : ∀ prev', Yields (k ⟨prev', t⟩ g) gs) : Yields (run (.many p) ⟨prev, d ++ t⟩ g k) gs := by
  rw [run_many]
  show Yields (runMany p g k prev (d ++ t)) gs
  induction d generalizing prev with
  | nil =>
    cases t with
    | nil => exact h prev
    | cons x t =>
      have hx : p x = false := ht x rfl
      rw [List.nil_append, runMany_cons, hx]
      exact h prev
  | cons x d ih =>
    rw [List.cons_append, runMany_cons, if_pos (hd x List.mem_cons_self)]
    exact (ih fun c hc => hd c (List.mem_cons_of_mem _ hc)).or_left

theorem Yields.one {x : Char} (hx : p x = true) (h : ∀ prev', Yields (k ⟨prev', t⟩ g) gs) :
    Yields (run (.one p) ⟨prev, x :: t⟩ g k) gs := by
  rw [run_one_cons, if_pos hx]
  exact h _

theorem Yields.plus (hne : d ≠ []) (hd : ∀ c ∈ d, p c = true) (ht : ∀ c ∈ t.head?, p c = false)
    (h : ∀ prev', Yields (k ⟨prev', t⟩ g) gs) : Yields (run (.plus p) ⟨prev, d ++ t⟩ g k) gs := by
  cases d with
  | nil => exact absurd rfl hne
  | cons x d =>
    show Yields (run (.one p) ⟨prev, x :: (d ++ t)⟩ g fun c g => run (.many p) c g k) gs
    exact Yields.one (hd x List.mem_cons_self) fun _ =>
      Yields.many (fun c hc => hd c (List.mem_cons_of_mem _ hc)) ht h

theorem upTo_append (d t : List Char) (prev prev' : Option Char) :
    Cursor.upTo ⟨prev, d ++ t⟩ ⟨prev', t⟩ = d := by
  simp [Cursor.upTo]

/-- A group of a repetition is all of it. -/
theorem Yields.group_plus (hne : d ≠ []) (hd : ∀ c ∈ d, p c = true)
    (ht : ∀ c ∈ t.head?, p c = false)
    (h : ∀ prev', Yields (k ⟨prev', t⟩ (g ++ [d])) gs) :
    Yields (run (.group (.plus p)) ⟨prev, d ++ t⟩ g k) gs := by
  rw [run_group]
  refine Yields.plus hne hd ht fun prev' => ?_
  rw [upTo_append]
  exact h prev'

/-- A lazy repetition ends where there is a way on for the first time. -/
theorem Yields.few (ha : ∀ c ∈ a, p c = true)
    (hfail : ∀ prev' a₁ a₂, a = a₁ ++ a₂ → a₂ ≠ [] → k ⟨prev', a₂ ++ t⟩ g = none)
    (h : ∀ prev', Yields (k ⟨prev', t⟩ g) gs) : Yields (run (.few p) ⟨prev, a ++ t⟩ g k) gs := by
  rw [run_few]
  show Yields (runFew p g k prev (a ++ t)) gs
  induction a generalizing prev with
  | nil =>
    cases t with
    | nil => exact h prev
    | cons x t =>
      rw [List.nil_append, runFew_cons]
      exact (h prev).or_left
  | cons x a ih =>
    rw [List.cons_append, runFew_cons, if_pos (ha x List.mem_cons_self)]
    have hx := hfail prev [] (x :: a) rfl (List.cons_ne_nil _ _)
    rw [List.cons_append] at hx
    rw [hx, Option.none_or]
    exact ih (fun c hc => ha c (List.mem_cons_of_mem _ hc))
      fun prev' a₁ a₂ he hne => hfail prev' (x :: a₁) a₂ (by rw [he, List.cons_append]) hne

theorem runMany_eq_none (hb : ∀ c ∈ b, p c = true) (ht : ∀ c ∈ t.head?, p c = false)
    (hfail : ∀ prev' b₁ b₂, b = b₁ ++ b₂ → k ⟨prev', b₂ ++ t⟩ g = none) :
    runMany p g k prev (b ++ t) = none := by
  induction b generalizing prev with
  | nil =>
    have hend := hfail prev [] [] rfl
    cases t with
    | nil => exact hend
    | cons x t =>
      have hx : p x = false := ht x rfl
      rw [List.nil_append, runMany_cons, hx]
      exact hend
  | cons x b ih =>
    rw [List.cons_append, runMany_cons, if_pos (hb x List.mem_cons_self),
      ih (fun c hc => hb c (List.mem_cons_of_mem _ hc))
        fun prev' b₁ b₂ he => hfail prev' (x :: b₁) b₂ (by rw [he, List.cons_append]),
      Option.none_or]
    exact hfail prev [] (x :: b) rfl

/-- A greedy repetition gives back until there is a way on. -/
theorem Yields.back (ha : ∀ c ∈ a, p c = true) (hb : ∀ c ∈ b, p c = true)
    (ht : ∀ c ∈ t.head?, p c = false)
    (hfail : ∀ prev' b₁ b₂, b = b₁ ++ b₂ → b₁ ≠ [] → k ⟨prev', b₂ ++ t⟩ g = none)
    (h : ∀ prev', Yields (k ⟨prev', b ++ t⟩ g) gs) :
    Yields (run (.many p) ⟨prev, a ++ (b ++ t)⟩ g k) gs := by
  rw [run_many]
  show Yields (runMany p g k prev (a ++ (b ++ t))) gs
  induction a generalizing prev with
  | nil =>
    rw [List.nil_append]
    cases b with
    | nil =>
      cases t with
      | nil => exact h prev
      | cons x t =>
        have hx : p x = false := ht x rfl
        rw [List.nil_append, runMany_cons, hx]
        exact h prev
    | cons x b =>
      have hrest : runMany p g k (some x) (b ++ t) = none :=
        runMany_eq_none (fun c hc => hb c (List.mem_cons_of_mem _ hc)) ht
          fun prev' b₁ b₂ he => hfail prev' (x :: b₁) b₂ (by rw [he, List.cons_append])
            (List.cons_ne_nil _ _)
      rw [List.cons_append, runMany_cons, if_pos (hb x List.mem_cons_self), hrest, Option.none_or]
      exact h prev
  | cons x a ih =>
    rw [List.cons_append, runMany_cons, if_pos (ha x List.mem_cons_self)]
    exact (ih fun c hc => ha c (List.mem_cons_of_mem _ hc)).or_left

/-- What a repetition leaves to be matched. -/
theorem runMany_split (h : runMany p g k prev t ≠ none) :
    ∃ d t' prev', t = d ++ t' ∧ (∀ c ∈ d, p c = true) ∧ k ⟨prev', t'⟩ g ≠ none := by
  induction t generalizing prev with
  | nil => exact ⟨[], [], prev, rfl, fun c hc => absurd hc List.not_mem_nil, h⟩
  | cons x t ih =>
    rw [runMany_cons] at h
    by_cases hx : p x = true
    · rw [if_pos hx] at h
      cases hrest : runMany p g k (some x) t with
      | none =>
        rw [hrest, Option.none_or] at h
        exact ⟨[], x :: t, prev, rfl, fun c hc => absurd hc List.not_mem_nil, h⟩
      | some f =>
        obtain ⟨d, t', prev', rfl, hd, hk⟩ := ih (hrest ▸ Option.some_ne_none f)
        exact ⟨x :: d, t', prev', rfl, List.forall_mem_cons.mpr ⟨hx, hd⟩, hk⟩
    · rw [if_neg hx] at h
      exact ⟨[], x :: t, prev, rfl, fun c hc => absurd hc List.not_mem_nil, h⟩

theorem run_plus_split (h : run (.plus p) ⟨prev, t⟩ g k ≠ none) :
    ∃ d t' prev', t = d ++ t' ∧ d ≠ [] ∧ (∀ c ∈ d, p c = true) ∧ k ⟨prev', t'⟩ g ≠ none := by
  cases t with
  | nil => exact absurd rfl h
  | cons x t =>
    have hone : (if p x = true then runMany p g k (some x) t else none) ≠ none := h
    by_cases hx : p x = true
    · rw [if_pos hx] at hone
      obtain ⟨d, t', prev', rfl, hd, hk⟩ := runMany_split hone
      exact ⟨x :: d, t', prev', rfl, List.cons_ne_nil x d, List.forall_mem_cons.mpr ⟨hx, hd⟩, hk⟩
    · rw [if_neg hx] at hone
      exact absurd rfl hone

theorem run_lit_split (h : run (.lit s) ⟨prev, t⟩ g k ≠ none) :
    ∃ t' prev', t = s ++ t' ∧ k ⟨prev', t'⟩ g ≠ none := by
  have hpre : s <+: t := by
    by_contra hne
    exact h (run_lit_eq_none hne)
  obtain ⟨t', rfl⟩ := hpre
  obtain ⟨prev', hafter⟩ := after_append s t' prev
  rw [run_lit, hafter] at h
  exact ⟨t', prev', rfl, h⟩

/-! ## Words -/

/-- The word `s` does not occur in the text. -/
def Free (s t : List Char) : Prop := ¬ s <:+: t

/-- No occurrence of the word `s` begins in `a`, whatever follows. -/
def Clear (s a : List Char) : Prop := ∀ x y t, a = x ++ y → y ≠ [] → ¬ s <+: y ++ t

/-- A word and what is left of a literal are no beginnings of one another. -/
def clears (s : List Char) : List Char → Bool
  | [] => true
  | c :: a => !s.isPrefixOf (c :: a) && !(c :: a).isPrefixOf s && clears s a

theorem Clear.nil : Clear s [] := fun _ _ _ he hy _ => hy (List.append_eq_nil_iff.mp he.symm).2

theorem Clear.append (ha : Clear s a) (hb : Clear s b) : Clear s (a ++ b) := by
  intro x y t he hy
  rcases List.append_eq_append_iff.mp he with ⟨m, rfl, hm⟩ | ⟨m, hm, rfl⟩
  · exact hb m y t hm hy
  · by_cases hempty : m = []
    · rw [hempty, List.nil_append] at hy ⊢
      exact hb [] b t rfl hy
    · rw [List.append_assoc]
      exact ha x m (b ++ t) hm hempty

theorem clear_of_clears (h : clears s a = true) : Clear s a := by
  induction a with
  | nil => exact Clear.nil
  | cons c a ih =>
    rw [clears, Bool.and_eq_true, Bool.and_eq_true, Bool.not_eq_true', Bool.not_eq_true'] at h
    obtain ⟨⟨hs, ha⟩, hrest⟩ := h
    intro x y t he hy
    cases x with
    | nil =>
      obtain rfl : c :: a = y := he
      intro hpre
      rcases List.prefix_or_prefix_of_prefix hpre (List.prefix_append (c :: a) t) with hp | hp
      · rw [List.isPrefixOf_iff_prefix.mpr hp] at hs
        cases hs
      · rw [List.isPrefixOf_iff_prefix.mpr hp] at ha
        cases ha
    | cons x₀ x => exact ih hrest x y t (List.cons.inj he).2 hy

/-- A word cannot begin where its first character does not stand. -/
theorem Clear.of_head {x : Char} (h : x ∉ a) : Clear (x :: s) a := by
  rintro x' y t rfl hy hpre
  obtain ⟨c, y, rfl⟩ := List.exists_cons_of_ne_nil hy
  obtain rfl : x = c := (List.cons_prefix_cons.mp hpre).1
  exact h (List.mem_append_right _ List.mem_cons_self)

theorem Clear.longer {s' : List Char} (h : Clear s a) (hs : s <+: s') : Clear s' a :=
  fun x y t he hy hpre => h x y t he hy (hs.trans hpre)

theorem Free.part (h : Free s t) {t' : List Char} (ht : t' <:+: t) : Free s t' :=
  fun hin => h (hin.trans ht)

/-- A longer word occurs no more often. -/
theorem Free.extend {s' : List Char} (h : Free s t) (hs : s <:+: s') : Free s' t :=
  fun hin => h (hs.trans hin)

theorem free_append (ha : Clear s a) (hb : Free s b) : Free s (a ++ b) := by
  rintro ⟨x, y, he⟩
  rw [List.append_assoc] at he
  rcases List.append_eq_append_iff.mp he with ⟨m, rfl, hm⟩ | ⟨m, rfl, hm⟩
  · by_cases hempty : m = []
    · rw [hempty, List.nil_append] at hm
      exact hb ⟨[], y, hm⟩
    · exact ha x m b rfl hempty ⟨y, hm⟩
  · exact hb ⟨m, y, by rw [List.append_assoc]; exact hm.symm⟩

theorem Clear.free (hs : s ≠ []) (h : Clear s a) : Free s a := by
  have hnil : Free s [] := fun h => hs (List.infix_nil.mp h)
  rw [← List.append_nil a]
  exact free_append h hnil

theorem Clear.not_mem {c : Char} (h : Clear [c] a) : c ∉ a := by
  intro hmem
  obtain ⟨x, y, rfl⟩ := List.append_of_mem hmem
  exact h x (c :: y) [] rfl (List.cons_ne_nil c y) ⟨y ++ [], rfl⟩

theorem free_of_not_mem {c : Char} (hc : c ∈ s) (h : c ∉ t) : Free s t := fun hin =>
  h (hin.subset hc)

/-- A word does not reach over a character that it does not have. -/
theorem free_append_cons {c : Char} (hc : c ∉ s) (ha : Free s a) (hb : Free s b) :
    Free s (a ++ c :: b) := by
  rintro ⟨x, y, he⟩
  rw [List.append_assoc] at he
  rcases List.append_eq_append_iff.mp he with ⟨m, rfl, hm⟩ | ⟨m, rfl, hm⟩
  · rcases List.append_eq_append_iff.mp hm with ⟨m', rfl, -⟩ | ⟨m', rfl, hm'⟩
    · exact ha ⟨x, m', by simp⟩
    · cases m' with
      | nil => exact ha ⟨x, [], by simp⟩
      | cons c' m' =>
        obtain rfl : c = c' := (List.cons.inj hm').1
        exact hc (List.mem_append_right _ List.mem_cons_self)
  · cases m with
    | nil =>
      cases s with
      | nil => exact ha (List.nil_infix)
      | cons c' s =>
        obtain rfl : c = c' := (List.cons.inj hm).1
        exact hc List.mem_cons_self
    | cons c' m => exact hb ⟨m, y, by rw [List.append_assoc]; exact (List.cons.inj hm).2.symm⟩

theorem infix_of_prefix_append {x : Char} (hx : x ∉ s) (h : s <+: l ++ x :: t) : s <+: l := by
  obtain ⟨y, he⟩ := h
  rcases List.append_eq_append_iff.mp he with ⟨m, rfl, -⟩ | ⟨m, rfl, hm⟩
  · exact List.prefix_append _ _
  · cases m with
    | nil => exact ⟨[], by simp⟩
    | cons c m =>
      obtain rfl : x = c := (List.cons.inj hm).1
      exact absurd (List.mem_append_right _ List.mem_cons_self) hx

/-- A greedy repetition ends before the last place where a word stands. -/
theorem Yields.last {x : Char} (ha : ∀ c ∈ a, p c = true) (hs : ∀ c ∈ x :: (s ++ b), p c = true)
    (hp : p '\n' = false) (hclear : Clear (x :: s) (s ++ (b ++ ['\n'])))
    (h : ∀ prev', Yields (k ⟨prev', b ++ '\n' :: t⟩ g) gs) :
    Yields (run (.many p) ⟨prev, a ++ (x :: (s ++ b) ++ '\n' :: t)⟩ g
      fun c g => run (.lit (x :: s)) c g k) gs := by
  have hend : ∀ c ∈ ('\n' :: t).head?, p c = false := fun c hc => by
    rw [← Option.some_inj.mp hc]
    exact hp
  refine Yields.back ha hs hend (fun prev' b₁ b₂ he hne => run_lit_eq_none ?_) fun prev' => ?_
  · obtain ⟨y, b₁, rfl⟩ := List.exists_cons_of_ne_nil hne
    have hsb : s ++ b = b₁ ++ b₂ := (List.cons.inj he).2
    have hrest : s ++ (b ++ ['\n']) = b₁ ++ (b₂ ++ ['\n']) := by
      rw [← List.append_assoc, hsb, List.append_assoc]
    have hline : b₂ ++ '\n' :: t = b₂ ++ ['\n'] ++ t := by simp
    rw [hline]
    exact hclear b₁ (b₂ ++ ['\n']) t hrest (List.append_ne_nil_of_right_ne_nil _ (by simp))
  · have happend : x :: (s ++ b) ++ '\n' :: t = (x :: s) ++ (b ++ '\n' :: t) := by simp
    rw [happend]
    exact Yields.lit h

/-- A lazy repetition ends before the first place where a word stands. -/
theorem Yields.first (ha : ∀ c ∈ a, p c = true) (hclear : Clear s a)
    (h : ∀ prev', Yields (k ⟨prev', t⟩ g) gs) :
    Yields (run (.few p) ⟨prev, a ++ (s ++ t)⟩ g fun c g => run (.lit s) c g k) gs :=
  Yields.few ha (fun _ a₁ a₂ he hne => run_lit_eq_none (hclear a₁ a₂ _ he hne))
    fun _ => Yields.lit h

/-! ## How a match begins -/

/-- Where the word `s` does not stand, there is no way through the pattern. -/
def Opens (s : List Char) (r : Regex) : Prop :=
  ∀ prev t g k, ¬ s <+: t → run r ⟨prev, t⟩ g k = none

theorem Opens.lit : Opens s (.lit s) := fun _ _ _ _ h => run_lit_eq_none h

theorem Opens.seq (h : Opens s r) : Opens s (.seq r r') := fun prev t g _ hs => h prev t g _ hs

theorem Opens.shorter {s' : List Char} (h : Opens s r) (hs : s' <+: s) : Opens s' r :=
  fun prev t g k hnot => h prev t g k fun hpre => hnot (hs.trans hpre)

theorem Opens.bol (h : Opens s r) : Opens s (.seq .bol r) := by
  intro prev t g k hs
  rw [run_seq, run_bol]
  split
  · exact h prev t g k hs
  · rfl

theorem Opens.lit_seq (h : Opens b r) : Opens (a ++ b) (.seq (.lit a) r) := by
  intro prev t g k hs
  by_contra hne
  rw [run_seq] at hne
  obtain ⟨t', prev', rfl, hrest⟩ := run_lit_split hne
  exact hrest (h prev' t' g k fun hb => hs ((List.prefix_append_right_inj a).mpr hb))

/-! ## Lines -/

/-- A search passes over the line. -/
def Skips (r : Regex) (l : List Char) : Prop :=
  ∀ prev t, prev.all (· == '\n') = true →
    r.searchFrom prev (l ++ '\n' :: t) = r.searchFrom (some '\n') t

/-- A search ends in the line, with these groups. -/
def Hits (r : Regex) (l : List Char) (gs : Groups) : Prop :=
  ∀ prev t, prev.all (· == '\n') = true → Yields (r.searchFrom prev (l ++ '\n' :: t)) gs

/-- Where no position of a line is the start of a match, it is passed over. -/
theorem searchFrom_eq (h : ∀ prev' l₁ l₂, l = l₁ ++ l₂ → (l₁ = [] → prev' = prev) →
      (l₁ ≠ [] → ∃ c ∈ l, prev' = some c) → r.matchAt ⟨prev', l₂ ++ '\n' :: t⟩ = none) :
    r.searchFrom prev (l ++ '\n' :: t) = r.searchFrom (some '\n') t := by
  induction l generalizing prev with
  | nil =>
    have hend := h prev [] [] rfl (fun _ => rfl) (fun hne => absurd rfl hne)
    rw [List.nil_append] at hend ⊢
    rw [searchFrom_cons, hend, Option.none_or]
  | cons c l ih =>
    have hhere := h prev [] (c :: l) rfl (fun _ => rfl) (fun hne => absurd rfl hne)
    rw [List.cons_append] at hhere ⊢
    rw [searchFrom_cons, hhere, Option.none_or]
    refine ih fun prev' l₁ l₂ he hnil hcons => ?_
    refine h prev' (c :: l₁) l₂ (by rw [he, List.cons_append]) (fun h => by cases h) fun _ => ?_
    by_cases hl₁ : l₁ = []
    · exact ⟨c, List.mem_cons_self, hnil hl₁⟩
    · obtain ⟨c', hc', rfl⟩ := hcons hl₁
      exact ⟨c', List.mem_cons_of_mem _ hc', rfl⟩

/-- A pattern passes over a line in which the word that it begins with does not occur. -/
theorem skips_of_free (hs : '\n' ∉ s) (hr : Opens s r) (h : Free s l) : Skips r l := by
  intro prev t _
  refine searchFrom_eq fun prev' l₁ l₂ he _ _ => hr prev' _ _ _ fun hpre => h ?_
  rw [he]
  exact (infix_of_prefix_append hs hpre).isInfix.trans (List.suffix_append l₁ l₂).isInfix

/-- One for the start of a line passes over a line that it does not match at the start of. -/
theorem skips_of_start (hr : r.Anchored) (hl : '\n' ∉ l)
    (h : ∀ prev t, r.matchAt ⟨prev, l ++ '\n' :: t⟩ = none) : Skips r l := by
  intro prev t _
  refine searchFrom_eq fun prev' l₁ l₂ he _ hcons => ?_
  by_cases hl₁ : l₁ = []
  · rw [hl₁, List.nil_append] at he
    rw [← he]
    exact h prev' t
  · obtain ⟨c, hc, rfl⟩ := hcons hl₁
    exact matchAt_anchored hr fun hn => hl (hn ▸ hc)

theorem skips_of_anchored (hr : r.Anchored) (ho : Opens s r) (hl : '\n' ∉ l)
    (h : ∀ t, ¬ s <+: l ++ '\n' :: t) : Skips r l :=
  skips_of_start hr hl fun prev t => ho prev _ _ _ (h t)

/-- A pattern within a line passes over a line in which the word at its end does not occur. -/
theorem skips_of_last (ha : '\n' ∉ a) (hb : '\n' ∉ b) (hp : p '\n' = false) (h : Free b l) :
    Skips (.seq (.lit a) (.seq (.group (.plus p)) (.lit b))) l := by
  intro prev t _
  refine searchFrom_eq fun prev' l₁ l₂ he _ _ => ?_
  by_contra hne
  rw [matchAt, run_seq] at hne
  obtain ⟨m, prev₁, hm, hgroup⟩ := run_lit_split hne
  rw [run_seq, run_group] at hgroup
  obtain ⟨d, m', prev₂, hd, -, hdigits, hlast⟩ := run_plus_split hgroup
  obtain ⟨y, prev₃, hy, -⟩ := run_lit_split hlast
  -- the match has no line end in it, so it is part of the line
  have hpre : a ++ d ++ b <+: l₂ ++ '\n' :: t := ⟨y, by rw [hm, hd, hy]; simp⟩
  have hline : '\n' ∉ a ++ d ++ b := by
    intro hmem
    rcases List.mem_append.mp hmem with hmem | hmem
    · rcases List.mem_append.mp hmem with hmem | hmem
      · exact ha hmem
      · have hclass := hdigits _ hmem
        rw [hp] at hclass
        cases hclass
    · exact hb hmem
  have hin := (infix_of_prefix_append hline hpre).isInfix
  have hl₂ : l₂ <:+: l := he ▸ (List.suffix_append l₁ l₂).isInfix
  exact h ((List.suffix_append (a ++ d) b).isInfix.trans (hin.trans hl₂))

theorem hits_of_start
    (h : ∀ prev t, prev.all (· == '\n') = true → Yields (r.matchAt ⟨prev, l ++ '\n' :: t⟩) gs) :
    Hits r l gs := by
  intro prev t hbol
  have hstart := h prev t hbol
  cases l with
  | nil =>
    rw [List.nil_append] at hstart ⊢
    rw [searchFrom_cons]
    exact hstart.or_left
  | cons c l =>
    rw [List.cons_append] at hstart ⊢
    rw [searchFrom_cons]
    exact hstart.or_left

/-- A match that begins where its first character stands for the first time. -/
theorem hits_after {x : Char} (ha : x ∉ a)
    (h : ∀ prev t, Yields ((Regex.seq (.lit (x :: s)) r').matchAt ⟨prev, b ++ '\n' :: t⟩) gs) :
    Hits (.seq (.lit (x :: s)) r') (a ++ b) gs := by
  have hall : ∀ prev t,
      Yields ((Regex.seq (.lit (x :: s)) r').searchFrom prev (a ++ b ++ '\n' :: t)) gs := by
    intro prev t
    induction a generalizing prev with
    | nil =>
      have hhere := h prev t
      rw [List.nil_append]
      cases b with
      | nil => exact hhere.or_left
      | cons c b => exact hhere.or_left
    | cons c a ih =>
      have hc : x ≠ c := fun he => ha (he ▸ List.mem_cons_self)
      have hhere : (Regex.seq (.lit (x :: s)) r').matchAt
          ⟨prev, c :: (a ++ b ++ '\n' :: t)⟩ = none := by
        rw [matchAt, run_seq]
        exact run_lit_eq_none fun hpre => hc (List.cons_prefix_cons.mp hpre).1
      rw [List.cons_append, List.cons_append, searchFrom_cons, hhere, Option.none_or]
      exact ih (fun hx => ha (List.mem_cons_of_mem _ hx)) (some c)
  exact fun prev t _ => hall prev t

/-! ## Texts -/

/-- The text of some lines. -/
def unlines (ls : List (List Char)) : List Char := ls.flatMap (· ++ ['\n'])

theorem searchFrom_lines {before after : List (List Char)} (hbol : prev.all (· == '\n') = true)
    (hskip : ∀ l ∈ before, Skips r l) (hit : Hits r l gs) :
    Yields (r.searchFrom prev (unlines (before ++ l :: after))) gs := by
  induction before generalizing prev with
  | nil =>
    rw [List.nil_append, unlines, List.flatMap_cons, List.append_assoc]
    exact hit prev _ hbol
  | cons l' before ih =>
    rw [List.cons_append, unlines, List.flatMap_cons, List.append_assoc]
    have hpass := hskip l' List.mem_cons_self prev
      ((before ++ l :: after).flatMap (· ++ ['\n'])) hbol
    rw [List.singleton_append, hpass]
    exact ih rfl fun l'' hl'' => hskip l'' (List.mem_cons_of_mem _ hl'')

/-- **A search finds the first line that it does not pass over.** -/
theorem search_lines {before after : List (List Char)} (hskip : ∀ l ∈ before, Skips r l)
    (hit : Hits r l gs) : Yields (r.search (unlines (before ++ l :: after))) gs :=
  searchFrom_lines rfl hskip hit

/-- **A search that passes over every line finds nothing.** -/
theorem search_eq_none {ls : List (List Char)} (hskip : ∀ l ∈ ls, Skips r l)
    (hend : ∀ prev, r.matchAt ⟨prev, []⟩ = none) : r.search (unlines ls) = none := by
  have hall : ∀ prev, prev.all (· == '\n') = true → r.searchFrom prev (unlines ls) = none := by
    induction ls with
    | nil =>
      intro prev _
      rw [unlines, List.flatMap_nil, searchFrom_nil]
      exact hend prev
    | cons l ls ih =>
      intro prev hbol
      rw [unlines, List.flatMap_cons, List.append_assoc, List.singleton_append,
        hskip l List.mem_cons_self prev _ hbol]
      exact ih (fun l' hl' => hskip l' (List.mem_cons_of_mem _ hl')) (some '\n') rfl
  exact hall none rfl

/-! ## Texts that were printed -/

section Printed

variable {β : Type} {f : β → List Char} {own : β → Bool} {es : List β}

/-- **A search ends in the first line of its own kind, where all other kinds are passed over.** -/
theorem search_find {e : β} (hskip : ∀ e ∈ es, own e = false → Skips r (f e))
    (h : es.find? own = some e) (hit : Hits r (f e) gs) :
    Yields (r.search (unlines (es.map f))) gs := by
  obtain ⟨-, before, after, rfl, hbefore⟩ := List.find?_eq_some_iff_append.mp h
  rw [List.map_append, List.map_cons]
  refine search_lines (fun l hl => ?_) hit
  obtain ⟨e', he', rfl⟩ := List.mem_map.mp hl
  exact hskip e' (List.mem_append_left _ he') (by simpa using hbefore e' he')

theorem search_find_none (hskip : ∀ e ∈ es, own e = false → Skips r (f e))
    (h : es.find? own = none) (ho : Opens s r) (hs : s ≠ []) :
    r.search (unlines (es.map f)) = none := by
  refine search_eq_none (fun l hl => ?_) fun prev => ho prev [] [] _ fun hpre =>
    hs (List.prefix_nil.mp hpre)
  obtain ⟨e, he, rfl⟩ := List.mem_map.mp hl
  exact hskip e he (by simpa using List.find?_eq_none.mp h e he)

end Printed

end Infra.Regex
