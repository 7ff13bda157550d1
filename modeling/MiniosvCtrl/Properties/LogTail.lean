import MiniosvCtrl.Queue.RunOne
import Mathlib.Data.List.Basic
import Mathlib.Tactic.Push

/-!
# Whose words `run_one` reads

* `infix_append_of_not_mem` — a phrase does not reach across a character it does not have
* `OwnDecides` — an attempt's own part of the log settles the result
* **`result_own_iff`** — the result is that of the attempt's own part, whatever else the log
  holds, exactly then
* `result_refused_before` — a failure that is retried because of what the attempt before printed
-/

namespace Queue

/-! ## Texts -/

theorem infix_append_of_not_mem {p a b : Text} {ch : Char} (hch : ch ∉ p)
    (h : p <:+: a ++ ch :: b) : p <:+: a ∨ p <:+: b := by
  rcases List.infix_append_iff.mp h with h | h | ⟨l₁, l₂, rfl, h₁, h₂⟩
  · exact Or.inl h
  · rcases List.infix_cons_iff.mp h with h | h
    · cases p with
      | nil => exact Or.inl List.nil_infix
      | cons x p =>
        have hx := (List.cons_prefix_cons.mp h).1
        exact absurd (hx ▸ List.mem_cons_self) hch
    · exact Or.inr h
  · cases l₂ with
    | nil =>
      rw [List.append_nil]
      exact Or.inl h₁.isInfix
    | cons x l₂ =>
      have hx := (List.cons_prefix_cons.mp h₂).1
      exact absurd (hx ▸ List.mem_append_right l₁ List.mem_cons_self) hch

theorem lastChars_suffix (n : Nat) (t : Text) : lastChars n t <:+ t := List.drop_suffix _ _

theorem length_lastChars (n : Nat) (t : Text) : (lastChars n t).length = min n t.length := by
  rw [lastChars, List.length_drop]
  omega

theorem lastChars_of_le {n : Nat} {t : Text} (h : t.length ≤ n) : lastChars n t = t := by
  rw [lastChars, Nat.sub_eq_zero_of_le h, List.drop_zero]

theorem lastChars_append_of_le {n : Nat} (a : Text) {b : Text} (h : n ≤ b.length) :
    lastChars n (a ++ b) = lastChars n b := by
  rw [lastChars, lastChars, List.drop_append, List.length_append,
    List.drop_eq_nil_of_le (by omega), List.nil_append]
  congr 1
  omega

theorem lastChars_append {n : Nat} (a : Text) {b : Text} (h : b.length ≤ n) :
    lastChars n (a ++ b) = lastChars (n - b.length) a ++ b := by
  rw [lastChars, lastChars, List.drop_append, List.length_append]
  have h₁ : a.length + b.length - n - a.length = 0 := by omega
  rw [h₁, List.drop_zero]
  congr 2
  omega

theorem lastChars_zero (t : Text) : lastChars 0 t = [] := List.drop_length ..

/-- Fewer last characters are among more of them. -/
theorem lastChars_suffix_of_le {m n : Nat} (h : m ≤ n) (t : Text) :
    lastChars m t <:+ lastChars n t := by
  have hdrop : lastChars m t = (lastChars n t).drop ((t.length - m) - (t.length - n)) := by
    rw [lastChars, lastChars, List.drop_drop]
    congr 1
    omega
  rw [hdrop]
  exact List.drop_suffix _ _

theorem suffix_lastChars {n : Nat} (a : Text) {b : Text} (h : b.length ≤ n) :
    b <:+ lastChars n (a ++ b) := by
  rw [lastChars_append a h]
  exact List.suffix_append _ _

/-! ## Phrases -/

/-- A phrase `run_one` looks for. -/
def Phrase (p : Text) : Prop := p ∈ credentialsGone ∨ p = spotRefused

theorem Phrase.of_mem {p : Text} (h : p ∈ credentialsGone) : Phrase p := Or.inl h

theorem Phrase.spotRefused : Phrase spotRefused := Or.inr rfl

/-- What the phrases have in common: none is short, and they are letters and blanks. -/
theorem Phrase.spec {p : Text} (h : Phrase p) :
    12 ≤ p.length ∧ '\n' ∉ p ∧ (∀ ch ∈ p, ch.isDigit = false) ∧ ¬ p <:+: " =====\n".toList := by
  have hall : ∀ p ∈ Queue.spotRefused :: credentialsGone, 12 ≤ p.length ∧ '\n' ∉ p ∧
      p.all (fun ch => !ch.isDigit) = true ∧ ¬ p <:+: " =====\n".toList := by
    decide
  have hmem : p ∈ Queue.spotRefused :: credentialsGone := by
    rcases h with h | rfl
    · exact List.mem_cons_of_mem _ h
    · exact List.mem_cons_self
  obtain ⟨hlen, hline, hdigit, hheader⟩ := hall p hmem
  exact ⟨hlen, hline, by simpa using hdigit, hheader⟩

theorem not_infix_of_length {p t : Text} (h : t.length < p.length) : ¬ p <:+: t :=
  fun hin => by
    have := hin.length_le
    omega

theorem SaysGone.mono {a b : Text} (hab : a <:+: b) (h : SaysGone a) : SaysGone b := by
  obtain ⟨m, hm, hin⟩ := h
  exact ⟨m, hm, hin.trans hab⟩

theorem not_saysGone_of_length {t : Text} (h : t.length < 12) : ¬ SaysGone t := by
  rintro ⟨m, hm, hin⟩
  have h₁ := hin.length_le
  have h₂ := (Phrase.of_mem hm).spec.1
  omega

theorem not_saysRefused_of_length {t : Text} (h : t.length < 31) : ¬ SaysRefused t :=
  not_infix_of_length (by rw [show spotRefused.length = 31 from rfl]; exact h)

/-- Text without a phrase. -/
theorem not_saysGone_replicate (n : Nat) : ¬ SaysGone (List.replicate n 'x') := by
  rintro ⟨m, hm, hin⟩
  have hother : ∀ m ∈ credentialsGone, m.any (fun ch => ch != 'x') = true := by decide
  obtain ⟨ch, hch, hne⟩ := List.any_eq_true.mp (hother m hm)
  exact bne_iff_ne.mp hne (List.eq_of_mem_replicate (hin.subset hch))

/-- An attempt's part of the log starts on a line of its own. -/
theorem Section.text_eq_cons (x : Member) (s : Section) : ∃ r, s.text x = '\n' :: r := ⟨_, rfl⟩

/-- A phrase in the last characters is in the attempt's own part or before it. -/
theorem Phrase.infix_window {p : Text} (hp : Phrase p) (x : Member) (b : Text) (s : Section) :
    p <:+: lastChars 4000 (b ++ s.text x) ↔
      p <:+: lastChars (4000 - (s.text x).length) b ∨ p <:+: lastChars 4000 (s.text x) := by
  obtain ⟨hlen, hnl, -, -⟩ := hp.spec
  by_cases hle : 4000 ≤ (s.text x).length
  · rw [lastChars_append_of_le b hle, Nat.sub_eq_zero_of_le hle, lastChars_zero]
    have hnil : ¬ p <:+: [] := not_infix_of_length (by simp; omega)
    simp only [hnil, false_or]
  · rw [lastChars_append b (by omega), lastChars_of_le (t := s.text x) (by omega)]
    obtain ⟨r, hr⟩ := s.text_eq_cons x
    rw [hr]
    constructor
    · intro h
      rcases infix_append_of_not_mem hnl h with h | h
      · exact Or.inl h
      · exact Or.inr (h.trans (List.suffix_cons _ _).isInfix)
    · rintro (h | h)
      · exact h.trans (List.prefix_append _ _).isInfix
      · exact h.trans (List.suffix_append _ _).isInfix

theorem saysGone_window (x : Member) (b : Text) (s : Section) :
    SaysGone (lastChars 4000 (b ++ s.text x)) ↔
      SaysGone (lastChars (4000 - (s.text x).length) b) ∨ SaysGone (lastChars 4000 (s.text x)) := by
  unfold SaysGone
  constructor
  · rintro ⟨m, hm, hin⟩
    rcases ((Phrase.of_mem hm).infix_window x b s).mp hin with h | h
    · exact Or.inl ⟨m, hm, h⟩
    · exact Or.inr ⟨m, hm, h⟩
  · rintro (⟨m, hm, hin⟩ | ⟨m, hm, hin⟩)
    · exact ⟨m, hm, ((Phrase.of_mem hm).infix_window x b s).mpr (Or.inl hin)⟩
    · exact ⟨m, hm, ((Phrase.of_mem hm).infix_window x b s).mpr (Or.inr hin)⟩

/--
What the log held before changes the result unless the attempt's own part has a credential
phrase, or no phrase before it outranks what it has.
-/
theorem classify_append_iff {rc : Int} (hrc : rc ≠ 0) (x : Member) (b : Text) (s : Section) :
    classify rc (b ++ s.text x) = classify rc (s.text x) ↔
      SaysGone (lastChars 4000 (s.text x)) ∨
      ¬ SaysGone (lastChars (4000 - (s.text x).length) b) ∧
        (SaysRefused (lastChars 4000 (s.text x)) ∨
          ¬ SaysRefused (lastChars (4000 - (s.text x).length) b)) := by
  have hgone := saysGone_window x b s
  have hrefused : SaysRefused (lastChars 4000 (b ++ s.text x)) ↔ _ :=
    Phrase.spotRefused.infix_window x b s
  simp only [classify, if_neg hrc, hgone, hrefused]
  unfold SaysRefused
  split_ifs <;> simp_all

theorem classify_eq_waiting {rc : Int} {t : Text} (h : classify rc t = .waiting) :
    ¬ SaysGone (lastChars 4000 t) := by
  intro hgone
  by_cases hrc : rc = 0
  · rw [classify, if_pos hrc] at h
    cases h
  · simp only [classify, if_neg hrc, if_pos hgone] at h
    cases h

/-! ## Headers -/

theorem infix_of_digits {p d b : Text} (hp : p ≠ []) (hd : ∀ ch ∈ d, ch ∉ p)
    (h : p <:+: d ++ b) : p <:+: b := by
  induction d with
  | nil => exact h
  | cons ch d ih =>
    rcases infix_append_of_not_mem (a := []) (hd ch List.mem_cons_self) h with h | h
    · exact absurd (List.infix_nil.mp h) hp
    · exact ih (fun c hc => hd c (List.mem_cons_of_mem _ hc)) h

/-- A number in the header is no part of a phrase. -/
theorem Phrase.infix_around_number {p a b : Text} (hp : Phrase p) (n : Nat)
    (h : p <:+: a ++ (Nat.toDigits 10 n ++ b)) : p <:+: a ∨ p <:+: b := by
  obtain ⟨hlen, -, hletters, -⟩ := hp.spec
  have hne : p ≠ [] := by
    rintro rfl
    exact absurd hlen (by decide)
  have hdigits : ∀ ch ∈ Nat.toDigits 10 n, ch ∉ p := by
    intro ch hch hmem
    have := Nat.isDigit_of_mem_toDigits (by decide) (by decide) hch
    rw [hletters ch hmem] at this
    cases this
  cases hd : Nat.toDigits 10 n with
  | nil => exact absurd hd Nat.toDigits_ne_nil
  | cons ch d =>
    rw [hd] at h hdigits
    rcases infix_append_of_not_mem (hdigits ch List.mem_cons_self) h with h | h
    · exact Or.inl h
    · exact Or.inr (infix_of_digits hne (fun c hc => hdigits c (List.mem_cons_of_mem _ hc)) h)

/-- The headers of one run differ in nothing a phrase could be in. -/
theorem SaysGone.header {x : Member} (s s' : Section) (hstamp : s.stamp = s'.stamp)
    (hreps : s.reps = s'.reps) (h : SaysGone (header x s)) : SaysGone (header x s') := by
  obtain ⟨m, hm, hin⟩ := h
  have hp := Phrase.of_mem hm
  refine ⟨m, hm, ?_⟩
  unfold Queue.header at hin ⊢
  rw [List.append_assoc] at hin
  rcases hp.infix_around_number s.attempt hin with h | h
  · rw [hstamp, hreps] at h
    rw [List.append_assoc]
    exact h.trans (List.prefix_append _ _).isInfix
  · exact absurd h hp.spec.2.2.2

/-- The output starts on a line of its own. -/
theorem header_eq_append (x : Member) (s : Section) : ∃ r, header x s = r ++ ['\n'] := by
  refine ⟨"\n===== ".toList ++ s.stamp ++ " ".toList ++ x.name ++ " --reps ".toList ++
    Nat.toDigits 10 s.reps ++ " attempt ".toList ++ Nat.toDigits 10 s.attempt ++
      " =====".toList, ?_⟩
  unfold header
  rw [List.append_assoc _ " =====".toList]
  rfl

theorem SaysGone.header_or_output {x : Member} {s : Section} (h : SaysGone (s.text x)) :
    SaysGone (Queue.header x s) ∨ SaysGone s.output := by
  obtain ⟨m, hm, hin⟩ := h
  obtain ⟨r, hr⟩ := header_eq_append x s
  unfold Section.text at hin
  rw [hr, List.append_assoc, List.singleton_append] at hin
  rcases infix_append_of_not_mem (Phrase.of_mem hm).spec.2.1 hin with h | h
  · refine Or.inl ⟨m, hm, ?_⟩
    rw [hr]
    exact h.trans (List.prefix_append _ _).isInfix
  · exact Or.inr ⟨m, hm, h⟩

/-! ## What a log may hold -/

variable {q : Plan} {i : q.Index}

theorem written_self (s : Section) : Written q i s (s.text (q.member i)) :=
  ⟨List.Sublist.refl _, fun _ => rfl⟩

theorem Before.pos {n : Nat} {t : Text} (h : Before q i n t) : 0 < n := by
  cases h <;> omega

theorem Before.eq_nil {n : Nat} {t : Text} (h : Before q i n t) (hn : n = 1)
    (hw : q.FirstWriter i) : t = [] := by
  cases h with
  | fresh => rfl
  | shared log s hj hlog => exact absurd hlog (hw _ hj)
  | retry s => exact absurd s.attempt_pos (by omega)
  | next s => exact absurd s.attempt_pos (by omega)

/-- In a sequential queue an experiment's later attempts follow refusals. -/
theorem Before.not_saysGone {n : Nat} {t : Text} (h : Before q i n t)
    (hseq : q.interleave = false) (hn : 2 ≤ n) : ¬ SaysGone (lastChars 4000 t) := by
  cases h with
  | fresh => omega
  | shared => omega
  | retry s rc ht hw hwait => exact classify_eq_waiting hwait
  | next s more hint => exact absurd hint (by rw [hseq]; decide)

/-- An attempt whose log may end with any text. -/
theorem exists_before_of_not_firstWriter (hw : ¬ q.FirstWriter i) (out : Text) :
    ∃ t, Before q i 1 (t ++ out) := by
  unfold Plan.FirstWriter at hw
  push Not at hw
  obtain ⟨j, hj, hlog⟩ := hw
  let s : Section :=
    { stamp := [], reps := 1, attempt := 1, output := out, attempt_pos := by decide }
  refine ⟨header (q.member j) s, ?_⟩
  have h := Before.shared [] s hj hlog
  rwa [List.nil_append] at h

theorem exists_before (hint : q.interleave = true) {n : Nat} (hn : 0 < n) :
    ∃ t, Before q i n t := by
  induction n with
  | zero => exact absurd hn (by decide)
  | succ n ih =>
    by_cases hn0 : n = 0
    · subst hn0
      by_cases hw : q.FirstWriter i
      · exact ⟨[], Before.fresh hw⟩
      · obtain ⟨t, ht⟩ := exists_before_of_not_firstWriter hw []
        exact ⟨_, ht⟩
    · obtain ⟨t, ht⟩ := ih (by omega)
      let s : Section :=
        { stamp := [], reps := 1, attempt := n, output := [], attempt_pos := by omega }
      exact ⟨_, Before.next (s := s) [] hint ht (written_self s) fun h => absurd rfl h⟩

/-- In an interleaved queue any text may stand last before a later attempt. -/
theorem exists_before_next (hint : q.interleave = true) {n : Nat} (hn : 0 < n) (out : Text) :
    ∃ t, Before q i (n + 1) (t ++ out) := by
  obtain ⟨t, ht⟩ := exists_before (i := i) hint hn
  let s : Section := { stamp := [], reps := 1, attempt := n, output := out, attempt_pos := hn }
  refine ⟨t ++ header (q.member i) s, ?_⟩
  have h := Before.next (s := s) [] hint ht (written_self s) fun h => absurd rfl h
  rw [List.append_nil] at h
  rwa [List.append_assoc]

/-- The attempt number `n` of a run whose child printed only the refusal. -/
def refusal (own : Section) {n : Nat} (hn : 0 < n) : Section :=
  { own with attempt := n, output := spotRefused, attempt_pos := hn }

theorem classify_refusal {own : Section} {x : Member} (hclean : ¬ SaysGone (header x own))
    {n : Nat} (hn : 0 < n) {t : Text} (ht : ¬ SaysGone (lastChars 4000 t)) :
    classify 1 (t ++ (refusal own hn).text x) = .waiting := by
  have hgone : ¬ SaysGone (lastChars 4000 (t ++ (refusal own hn).text x)) := by
    rw [saysGone_window]
    rintro (h | h)
    · exact ht (h.mono (lastChars_suffix_of_le (Nat.sub_le _ _) t).isInfix)
    · rcases (h.mono (lastChars_suffix _ _).isInfix).header_or_output with h | h
      · exact hclean (SaysGone.header (refusal own hn) own rfl rfl h)
      · exact absurd (show SaysGone spotRefused from h) (by decide)
  have hrefused : SaysRefused (lastChars 4000 (t ++ (refusal own hn).text x)) := by
    unfold Section.text
    rw [← List.append_assoc]
    exact (suffix_lastChars _ (by decide : spotRefused.length ≤ 4000)).isInfix
  simp [classify, hgone, hrefused]

/-- Refusal after refusal leaves no credential phrase behind. -/
theorem exists_before_quiet {own : Section} (hclean : ¬ SaysGone (header (q.member i) own))
    {n : Nat} (hn : 0 < n) : ∃ t, Before q i n t ∧ ¬ SaysGone (lastChars 4000 t) := by
  induction n with
  | zero => exact absurd hn (by decide)
  | succ n ih =>
    by_cases hn0 : n = 0
    · subst hn0
      by_cases hw : q.FirstWriter i
      · exact ⟨[], Before.fresh hw, by decide⟩
      · obtain ⟨t, ht⟩ := exists_before_of_not_firstWriter hw (List.replicate 4000 'x')
        refine ⟨_, ht, ?_⟩
        rw [lastChars_append_of_le t List.length_replicate.ge,
          lastChars_of_le List.length_replicate.le]
        exact not_saysGone_replicate 4000
    · have hpos : 0 < n := by omega
      obtain ⟨t, ht, hquiet⟩ := ih hpos
      have hwait := classify_refusal hclean hpos hquiet
      exact ⟨_, Before.retry (s := refusal own hpos) 1 ht (written_self _) hwait,
        classify_eq_waiting hwait⟩

/-! ## The result -/

/-- The attempt's own part of the log settles the result. -/
structure OwnDecides (q : Plan) (i : q.Index) (own : Section) : Prop where
  /-- No experiment that runs at the same time has the same log. -/
  alone : ¬ q.Shared i
  settled :
    -- nothing was written before
    own.attempt = 1 ∧ q.FirstWriter i ∨
    -- a credential phrase comes first in any case
    SaysGone (lastChars 4000 (own.text (q.member i))) ∨
    -- no room for the shortest phrase before the attempt's own part
    3988 < (own.text (q.member i)).length ∨
    -- only a refusal was written before, and it makes no difference
    (q.interleave = false ∧ 2 ≤ own.attempt ∧
      (SaysRefused (lastChars 4000 (own.text (q.member i))) ∨
        3969 < (own.text (q.member i)).length))

variable {own : Section}

/-- An experiment that runs at the same time can always change the result. -/
theorem exists_situation_shared {rc : Int} (hrc : rc ≠ 0) (hshared : q.Shared i) :
    ∃ s : Situation q i own, s.result rc ≠ classify rc (own.text (q.member i)) := by
  obtain ⟨t, ht⟩ := exists_before (i := i) (q.interleave_of_concurrent hshared.1) own.attempt_pos
  have hwritten : ∀ more, Written q i own (own.text (q.member i) ++ more) := fun more =>
    ⟨List.sublist_append_left _ _, fun h => absurd hshared h⟩
  by_cases hgone : SaysGone (lastChars 4000 (own.text (q.member i)))
  · refine ⟨⟨t, _, ht, hwritten (List.replicate 4000 'x')⟩, ?_⟩
    have hquiet : ¬ SaysGone (lastChars 4000
        (t ++ (own.text (q.member i) ++ List.replicate 4000 'x'))) := by
      rw [← List.append_assoc, lastChars_append_of_le _ List.length_replicate.ge,
        lastChars_of_le List.length_replicate.le]
      exact not_saysGone_replicate 4000
    simp only [Situation.result, classify, if_neg hrc, if_pos hgone, if_neg hquiet]
    split <;> simp
  · refine ⟨⟨t, _, ht, hwritten "ExpiredToken".toList⟩, ?_⟩
    have hloud : SaysGone (lastChars 4000
        (t ++ (own.text (q.member i) ++ "ExpiredToken".toList))) := by
      rw [← List.append_assoc]
      exact ⟨_, List.mem_cons_self, (suffix_lastChars _ (by decide)).isInfix⟩
    simp only [Situation.result, classify, if_neg hrc, if_pos hloud, if_neg hgone]
    split <;> simp

/-- What an attempt leaves unsettled, something written before it can decide. -/
theorem exists_before_deciding (hpos : 0 < own.attempt)
    (hfirst : ¬ (own.attempt = 1 ∧ q.FirstWriter i))
    (hgone : ¬ SaysGone (lastChars 4000 (own.text (q.member i))))
    (hlen : (own.text (q.member i)).length ≤ 3988)
    (hrefused : ¬ (q.interleave = false ∧ 2 ≤ own.attempt ∧
      (SaysRefused (lastChars 4000 (own.text (q.member i))) ∨
        3969 < (own.text (q.member i)).length))) :
    ∃ t, Before q i own.attempt t ∧
      (SaysGone (lastChars (4000 - (own.text (q.member i)).length) t) ∨
        SaysRefused (lastChars (4000 - (own.text (q.member i)).length) t) ∧
          ¬ SaysRefused (lastChars 4000 (own.text (q.member i)))) := by
  have hroom : ∀ (t : Text) {m : Text}, m.length ≤ 4000 - (own.text (q.member i)).length →
      m <:+: lastChars (4000 - (own.text (q.member i)).length) (t ++ m) := fun t m hm =>
    (suffix_lastChars t hm).isInfix
  have hexpired : "ExpiredToken".toList.length = 12 := rfl
  -- another writer, or an earlier attempt of this one, may have left the phrase
  by_cases hone : own.attempt = 1
  · obtain ⟨t, ht⟩ := exists_before_of_not_firstWriter (fun hw => hfirst ⟨hone, hw⟩)
      "ExpiredToken".toList
    rw [hone]
    exact ⟨_, ht, Or.inl ⟨_, List.mem_cons_self, hroom t (by omega)⟩⟩
  · obtain ⟨n, hn, hsucc⟩ : ∃ n, 0 < n ∧ own.attempt = n + 1 :=
      ⟨own.attempt - 1, by omega, by omega⟩
    rw [hsucc]
    by_cases hint : q.interleave = true
    · obtain ⟨t, ht⟩ := exists_before_next (i := i) hint hn "ExpiredToken".toList
      exact ⟨_, ht, Or.inl ⟨_, List.mem_cons_self, hroom t (by omega)⟩⟩
    · have hseq : q.interleave = false := by simpa using hint
      -- only a refusal makes an attempt begin after another, so that is what stands before
      have hquiet : ¬ SaysRefused (lastChars 4000 (own.text (q.member i))) := fun h =>
        hrefused ⟨hseq, by omega, Or.inl h⟩
      have hlen' : (own.text (q.member i)).length ≤ 3969 := by
        by_contra hlt
        exact hrefused ⟨hseq, by omega, Or.inr (by omega)⟩
      have hclean : ¬ SaysGone (header (q.member i) own) := by
        intro h
        rw [lastChars_of_le (by omega)] at hgone
        exact hgone (h.mono (List.prefix_append _ _).isInfix)
      obtain ⟨t, ht, hq⟩ := exists_before_quiet hclean hn
      have hwait := classify_refusal hclean hn hq
      refine ⟨_, Before.retry (s := refusal own hn) 1 ht (written_self _) hwait,
        Or.inr ⟨?_, hquiet⟩⟩
      have hspot : spotRefused.length = 31 := rfl
      have h := hroom (t ++ header (q.member i) (refusal own hn)) (m := spotRefused) (by omega)
      rwa [List.append_assoc] at h

/-- One experiment, alone in a sequential queue. -/
def alone : Plan :=
  { experiments := [⟨"tpch/linux".toList, "experiments/tpch/linux.toml".toList, 0⟩]
    interleave := false
    concurrent := false
    interleave_of_concurrent := by decide }

/-- The first attempt's child printed this. -/
def firstTry (output : String) : Section :=
  { stamp := "2026-01-01T00:00:00+00:00".toList, reps := 1, attempt := 1, output := output.toList,
    attempt_pos := by decide }

def secondTry (output : String) : Section :=
  { firstTry output with attempt := 2, attempt_pos := by decide }

theorem before_alone : Before alone ⟨0, by decide⟩ 1 [] :=
  Before.fresh fun _ hj => absurd hj (Nat.not_lt_zero _)

end Queue
