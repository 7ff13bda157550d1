import MiniosvCtrl.Bench.OnS3
import MiniosvCtrl.Properties.Printed

/-!
# What a metric reads in its line

The patterns of linux-s3's metrics on the lines they are for: a line is taken apart where the
pattern's texts stand, and the group is the figure there.

* `hits_key`, `hits_statistic`, `hits_tail`, `hits_first`, … — by the form of the pattern
* `hits_stats` — every figure of a line of figures is read under its key
* `Entry.hits_gbps`, … — metric by metric
-/

namespace LinuxS3

open Infra Infra.Regex Runner

/-! ## Patterns on a line -/

section Shapes

variable {p : Char → Bool} {q : Piece} {x c : Char} {s u v label : List Char}
  {l before after : Line}

/-- What comes after a figure is none of its characters. -/
structure Ends (p : Char → Bool) (l : Line) : Prop where
  newline : p '\n' = false
  head : ∀ c ∈ (Line.chars l).head?, p c = false

theorem Ends.nil (h : p '\n' = false) : Ends p [] := ⟨h, fun c hc => by cases hc⟩

theorem Ends.lit (h : p '\n' = false) (hc : p c = false) :
    Ends p (.lit (String.ofList (c :: u)) :: l) := by
  refine ⟨h, fun c' hc' => ?_⟩
  rw [Line.chars_cons, Piece.chars_lit] at hc'
  obtain rfl : c = c' := Option.some_inj.mp hc'
  exact hc

theorem Ends.append (h : Ends p l) (t : List Char) :
    ∀ c ∈ (Line.chars l ++ '\n' :: t).head?, p c = false := by
  intro c hc
  cases hl : Line.chars l with
  | nil =>
    rw [hl] at hc
    obtain rfl : '\n' = c := Option.some_inj.mp hc
    exact h.newline
  | cons c' l' =>
    rw [hl] at hc
    exact h.head c (by rw [hl]; exact hc)

/-- A piece is a figure of this class. -/
structure Figures (p : Char → Bool) (q : Piece) : Prop where
  ne : q.chars ≠ []
  all : ∀ c ∈ q.chars, p c = true

theorem Yields.figure {k : Cont} {g gs : Groups} {prev : Option Char} {t : List Char}
    (hq : Figures p q) (hafter : Ends p l)
    (h : ∀ prev', Yields (k ⟨prev', Line.chars l ++ '\n' :: t⟩ (g ++ [q.chars])) gs) :
    Yields (run (.group (.plus p)) ⟨prev, q.chars ++ (Line.chars l ++ '\n' :: t)⟩ g k) gs :=
  Yields.group_plus hq.ne hq.all (hafter.append t) h

/-- `(p+)end`, and the match ends. -/
theorem Yields.figure_end {g : Groups} {prev : Option Char} {t e z : List Char}
    (hq : Figures p q) (hafter : Ends p (.lit (String.ofList (e ++ z)) :: after)) :
    Yields (run (.group (.plus p))
      ⟨prev, q.chars ++ (e ++ (z ++ (Line.chars after ++ '\n' :: t)))⟩ g
      fun c g => run (.lit e) c g fun c g => some (c, g)) (g ++ [q.chars]) := by
  have hends := hafter.append t
  simp only [Line.chars_cons, Piece.chars_lit, List.append_assoc] at hends
  exact Yields.group_plus hq.ne hq.all hends fun prev' => Yields.lit fun prev' => ⟨_, rfl⟩

/-- What stands after a key that is not there again. -/
structure Follows (p : Char → Bool) (s : List Char) (q : Piece) (after : Line) : Prop where
  figures : Figures p q
  ends : Ends p after
  clear : Clear s (q.chars ++ (Line.chars after ++ ['\n']))

theorem Follows.of_mutes (hq : Figures p q) (hafter : Ends p after) (hclear : Clear s q.chars)
    (hmutes : Mutes [s] after) (hline : clears s ['\n'] = true) : Follows p s q after :=
  ⟨hq, hafter, Clear.append hclear
    (Clear.append (hmutes _ (List.mem_singleton.mpr rfl)) (clear_of_clears hline))⟩

/-- `.*key(p+)`, from somewhere in the line on. -/
theorem Yields.key {g : Groups} {prev : Option Char} {a t : List Char}
    (hl : '\n' ∉ a ++ (x :: s ++ (q.chars ++ Line.chars after)))
    (hs : clears (x :: s) s = true) (hfollows : Follows p (x :: s) q after) :
    Yields (run anything ⟨prev, a ++ (x :: s ++ (q.chars ++ (Line.chars after ++ '\n' :: t)))⟩ g
      fun c g => run (.lit (x :: s)) c g fun c g => run (.group (.plus p)) c g fun c g =>
        some (c, g)) (g ++ [q.chars]) := by
  -- `.*` could take all of the line, and gives back until the key stands there
  have hdot : ∀ c ∈ a ++ (x :: s ++ (q.chars ++ Line.chars after)), dot c = true := fun c hc =>
    bne_iff_ne.mpr fun he => hl (he ▸ hc)
  have htext : x :: s ++ (q.chars ++ (Line.chars after ++ '\n' :: t)) =
      x :: (s ++ (q.chars ++ Line.chars after)) ++ '\n' :: t := by simp
  have hclear : Clear (x :: s) (s ++ ((q.chars ++ Line.chars after) ++ ['\n'])) := by
    rw [List.append_assoc]
    exact Clear.append (clear_of_clears hs) hfollows.clear
  rw [htext]
  refine Yields.last (fun c hc => hdot c (List.mem_append_left _ hc))
    (fun c hc => hdot c (List.mem_append_right _ hc)) rfl hclear fun prev' => ?_
  rw [List.append_assoc]
  exact Yields.figure hfollows.figures hfollows.ends fun prev' => ⟨_, rfl⟩

/-- `^label.*key(p+)` -/
theorem hits_key (before : Line) (u : List Char)
    (hl : '\n' ∉ Line.chars (.lit (String.ofList (label ++ v)) ::
      (before ++ .lit (String.ofList (u ++ x :: s)) :: q :: after)))
    (hs : clears (x :: s) s = true) (hfollows : Follows p (x :: s) q after) :
    Hits (.seqs [.bol, .text (String.ofList label), anything, .text (String.ofList (x :: s)),
        .group (.plus p)])
      (Line.chars (.lit (String.ofList (label ++ v)) ::
        (before ++ .lit (String.ofList (u ++ x :: s)) :: q :: after))) [q.chars] := by
  simp only [Line.chars_cons, Line.chars_append, Piece.chars_lit, List.append_assoc] at hl ⊢
  refine hits_of_start fun prev t hbol => ?_
  have htext : label ++ (v ++ (before.chars ++ (u ++ (x :: s ++ (q.chars ++ after.chars))))) ++
      '\n' :: t = label ++ ((v ++ (before.chars ++ u)) ++
        (x :: s ++ (q.chars ++ (after.chars ++ '\n' :: t)))) := by simp
  have hrest : '\n' ∉ (v ++ (before.chars ++ u)) ++ (x :: s ++ (q.chars ++ after.chars)) :=
    fun hmem => hl (List.mem_append_right _ (by simpa using hmem))
  rw [htext]
  simp only [seqs, matchAt, run_seq, Regex.text, String.toList_ofList]
  exact Yields.bol hbol (Yields.lit fun prev' => Yields.key hrest hs hfollows)

theorem Yields.blank {k : Cont} {g gs : Groups} {prev : Option Char} {t : List Char}
    {gap : Regex} (hgap : gap = Runner.blank ∨ gap = Runner.blanks) (n : Nat)
    (h : ∀ prev', Yields (k ⟨prev', ':' :: t⟩ g) gs) :
    Yields (run gap ⟨prev, ' ' :: (List.replicate n ' ' ++ ':' :: t)⟩ g k) gs := by
  have hspace : ∀ c ∈ List.replicate (n + 1) ' ', isSpace c = true := fun c hc => by
    rw [List.eq_of_mem_replicate hc]
    decide
  have hend : ∀ c ∈ (':' :: t).head?, isSpace c = false := fun c hc => by
    rw [← Option.some_inj.mp hc]
    decide
  have htext : ' ' :: (List.replicate n ' ' ++ ':' :: t) =
      List.replicate (n + 1) ' ' ++ ':' :: t := rfl
  rw [htext]
  rcases hgap with rfl | rfl
  · exact Yields.many hspace hend h
  · exact Yields.plus (List.cons_ne_nil _ _) hspace hend h

/-- `^label\s*: .*key(p+)` -/
theorem hits_statistic (m : Nat) (before : Line) (u : List Char) (hl : '\n' ∉ Line.chars
      (.lit (String.ofList (label ++ (' ' :: (List.replicate m ' ' ++ [':'])))) ::
        .lit (String.ofList (' ' :: v)) ::
        (before ++ .lit (String.ofList (u ++ x :: s)) :: q :: after)))
    (hs : clears (x :: s) s = true) (hfollows : Follows p (x :: s) q after) :
    Hits (statistic (String.ofList label) (String.ofList (x :: s)) (.plus p))
      (Line.chars (.lit (String.ofList (label ++ (' ' :: (List.replicate m ' ' ++ [':'])))) ::
        .lit (String.ofList (' ' :: v)) ::
        (before ++ .lit (String.ofList (u ++ x :: s)) :: q :: after))) [q.chars] := by
  simp only [Line.chars_cons, Line.chars_append, Piece.chars_lit] at hl ⊢
  refine hits_of_start fun prev t hbol => ?_
  have htext : label ++ (' ' :: (List.replicate m ' ' ++ [':'])) ++ (' ' :: v ++ (before.chars ++
        (u ++ x :: s ++ (q.chars ++ after.chars)))) ++ '\n' :: t =
      label ++ (' ' :: (List.replicate m ' ' ++ ':' :: (' ' :: ((v ++ (before.chars ++ u)) ++
        (x :: s ++ (q.chars ++ (after.chars ++ '\n' :: t))))))) := by simp
  have hrest : '\n' ∉ (v ++ (before.chars ++ u)) ++ (x :: s ++ (q.chars ++ after.chars)) :=
    fun hmem => hl (List.mem_append_right _ (List.mem_cons_of_mem _ (by simpa using hmem)))
  rw [htext]
  simp only [statistic, seqs, matchAt, run_seq, Regex.text, String.toList_ofList]
  refine Yields.bol hbol (Yields.lit fun prev' => Yields.blank (Or.inl rfl) m fun prev' => ?_)
  exact Yields.lit (s := [':', ' ']) fun prev' => Yields.key hrest hs hfollows

/-- `label.*?word(p+)end` -/
theorem hits_tail {w e z : List Char} (before : Line) (u : List Char) (hl : '\n' ∉ Line.chars
      (.lit (String.ofList (label ++ v)) :: (before ++ .lit (String.ofList (u ++ w)) :: q ::
        .lit (String.ofList (e ++ z)) :: after)))
    (hv : clears w v = true) (hbefore : Mutes [w] before) (hu : clears w u = true)
    (hq : Figures p q) (hafter : Ends p (.lit (String.ofList (e ++ z)) :: after)) :
    Hits (.seqs [.text (String.ofList label), little, .text (String.ofList w), .group (.plus p),
        .text (String.ofList e)])
      (Line.chars (.lit (String.ofList (label ++ v)) :: (before ++ .lit (String.ofList (u ++ w)) ::
        q :: .lit (String.ofList (e ++ z)) :: after))) [q.chars] := by
  simp only [Line.chars_cons, Line.chars_append, Piece.chars_lit] at hl ⊢
  refine hits_of_start fun prev t hbol => ?_
  have htext : label ++ v ++ (before.chars ++ (u ++ w ++ (q.chars ++ (e ++ z ++ after.chars)))) ++
      '\n' :: t = label ++ ((v ++ (before.chars ++ u)) ++ (w ++ (q.chars ++
        (e ++ (z ++ (after.chars ++ '\n' :: t)))))) := by simp
  have hdot : ∀ c ∈ v ++ (before.chars ++ u), dot c = true := fun c hc => by
    refine bne_iff_ne.mpr fun he => hl ?_
    rw [he] at hc
    simp only [List.mem_append] at hc ⊢
    tauto
  -- `.*?` stops at the first place of the word, and there is none before
  have hclear : Clear w (v ++ (before.chars ++ u)) :=
    Clear.append (clear_of_clears hv)
      (Clear.append (hbefore _ (List.mem_singleton.mpr rfl)) (clear_of_clears hu))
  rw [htext]
  simp only [seqs, matchAt, run_seq, Regex.text, String.toList_ofList]
  exact Yields.lit fun prev' => Yields.first hdot hclear fun prev' => Yields.figure_end hq hafter

/-- `^label\s+: `, and so on. -/
theorem Yields.heading {k : Cont} {g gs : Groups} {prev : Option Char} {t w : List Char}
    {gap : Regex} (hgap : gap = Runner.blank ∨ gap = Runner.blanks) (n : Nat)
    (hbol : prev.all (· == '\n') = true) (h : ∀ prev', Yields (k ⟨prev', t⟩ g) gs) :
    Yields (run .bol ⟨prev, label ++ (' ' :: (List.replicate n ' ' ++ ':' :: (w ++ t)))⟩ g
      fun c g => run (.lit label) c g fun c g => run gap c g fun c g =>
        run (.lit (':' :: w)) c g k) gs :=
  Yields.bol hbol (Yields.lit fun _ => Yields.blank hgap n fun _ =>
    Yields.lit (s := ':' :: w) h)

/-- `^label\s*: word(p+)` -/
theorem hits_first {w : List Char} {gap : Regex}
    (hgap : gap = Runner.blank ∨ gap = Runner.blanks) (n : Nat) (hq : Figures p q)
    (hafter : Ends p after) :
    Hits (.seqs [.bol, .text (String.ofList label), gap, .text (String.ofList (':' :: w)),
        .group (.plus p)])
      (Line.chars (.lit (String.ofList (label ++ (' ' :: (List.replicate n ' ' ++ [':'])))) ::
        .lit (String.ofList w) :: q :: after)) [q.chars] := by
  simp only [Line.chars_cons, Piece.chars_lit]
  refine hits_of_start fun prev t hbol => ?_
  have htext : label ++ (' ' :: (List.replicate n ' ' ++ [':'])) ++ (w ++ (q.chars ++
        after.chars)) ++ '\n' :: t =
      label ++ (' ' :: (List.replicate n ' ' ++ ':' :: (w ++ (q.chars ++
        (after.chars ++ '\n' :: t))))) := by simp
  rw [htext]
  simp only [seqs, matchAt, run_seq, Regex.text, String.toList_ofList]
  exact Yields.heading hgap n hbol fun prev' => Yields.figure hq hafter fun prev' => ⟨_, rfl⟩

/-- `^word(p+)end` -/
theorem hits_start {w e z : List Char} (hq : Figures p q)
    (hafter : Ends p (.lit (String.ofList (e ++ z)) :: after)) :
    Hits (.seqs [.bol, .text (String.ofList w), .group (.plus p), .text (String.ofList e)])
      (Line.chars (.lit (String.ofList w) :: q :: .lit (String.ofList (e ++ z)) :: after))
      [q.chars] := by
  simp only [Line.chars_cons, Piece.chars_lit]
  refine hits_of_start fun prev t hbol => ?_
  have htext : w ++ (q.chars ++ (e ++ z ++ after.chars)) ++ '\n' :: t =
      w ++ (q.chars ++ (e ++ (z ++ (after.chars ++ '\n' :: t)))) := by simp
  rw [htext]
  simp only [seqs, matchAt, run_seq, Regex.text, String.toList_ofList]
  exact Yields.bol hbol (Yields.lit fun prev' => Yields.figure_end hq hafter)

/-- `^label\s+: (p+)/` -/
theorem hits_count {w e z : List Char} {gap : Regex}
    (hgap : gap = Runner.blank ∨ gap = Runner.blanks) (n : Nat) (hq : Figures p q)
    (hafter : Ends p (.lit (String.ofList (e ++ z)) :: after)) :
    Hits (.seqs [.bol, .text (String.ofList label), gap, .text (String.ofList (':' :: w)),
        .group (.plus p), .text (String.ofList e)])
      (Line.chars (.lit (String.ofList (label ++ (' ' :: (List.replicate n ' ' ++ ':' :: w)))) ::
        q :: .lit (String.ofList (e ++ z)) :: after)) [q.chars] := by
  simp only [Line.chars_cons, Piece.chars_lit]
  refine hits_of_start fun prev t hbol => ?_
  have htext : label ++ (' ' :: (List.replicate n ' ' ++ ':' :: w)) ++ (q.chars ++
        (e ++ z ++ after.chars)) ++ '\n' :: t =
      label ++ (' ' :: (List.replicate n ' ' ++ ':' :: (w ++ (q.chars ++
        (e ++ (z ++ (after.chars ++ '\n' :: t))))))) := by simp
  rw [htext]
  simp only [seqs, matchAt, run_seq, Regex.text, String.toList_ofList]
  exact Yields.heading hgap n hbol fun prev' => Yields.figure_end hq hafter

/-- `^label\s+: p+/(p+)` -/
theorem hits_total {w e : List Char} {q' : Piece} {gap : Regex}
    (hgap : gap = Runner.blank ∨ gap = Runner.blanks) (n : Nat) (hq : Figures p q)
    (hbetween : Ends p (.lit (String.ofList e) :: q' :: after)) (hq' : Figures p q')
    (hafter : Ends p after) :
    Hits (.seqs [.bol, .text (String.ofList label), gap, .text (String.ofList (':' :: w)),
        .plus p, .text (String.ofList e), .group (.plus p)])
      (Line.chars (.lit (String.ofList (label ++ (' ' :: (List.replicate n ' ' ++ ':' :: w)))) ::
        q :: .lit (String.ofList e) :: q' :: after)) [q'.chars] := by
  have hends := hbetween.append
  simp only [Line.chars_cons, Piece.chars_lit] at hends ⊢
  refine hits_of_start fun prev t hbol => ?_
  have htext : label ++ (' ' :: (List.replicate n ' ' ++ ':' :: w)) ++ (q.chars ++
        (e ++ (q'.chars ++ after.chars))) ++ '\n' :: t =
      label ++ (' ' :: (List.replicate n ' ' ++ ':' :: (w ++ (q.chars ++
        (e ++ (q'.chars ++ after.chars) ++ '\n' :: t))))) := by simp
  rw [htext]
  simp only [seqs, matchAt, run_seq, Regex.text, String.toList_ofList]
  refine Yields.heading hgap n hbol fun prev' => ?_
  refine Yields.plus hq.ne hq.all (hends t) fun prev' => ?_
  rw [List.append_assoc, List.append_assoc]
  exact Yields.lit fun prev' => Yields.figure hq' hafter fun prev' => ⟨_, rfl⟩

/-- `x(p+)end`, where `x` is not printed before. -/
theorem hits_within {e z : List Char} (before : Line) (u : List Char)
    (hbefore : Mutes [[x]] before) (hu : clears [x] u = true) (hq : Figures p q)
    (hafter : Ends p (.lit (String.ofList (e ++ z)) :: after)) :
    Hits (.seqs [.text (String.ofList [x]), .group (.plus p), .text (String.ofList e)])
      (Line.chars (before ++ .lit (String.ofList (u ++ [x])) :: q ::
        .lit (String.ofList (e ++ z)) :: after)) [q.chars] := by
  have hx : x ∉ before.chars ++ u :=
    (Clear.append (hbefore _ (List.mem_singleton.mpr rfl)) (clear_of_clears hu)).not_mem
  have htext : Line.chars (before ++ .lit (String.ofList (u ++ [x])) :: q ::
        .lit (String.ofList (e ++ z)) :: after) =
      (before.chars ++ u) ++ ([x] ++ (q.chars ++ (e ++ z ++ after.chars))) := by
    simp only [Line.chars_append, Line.chars_cons, Piece.chars_lit, List.append_assoc]
  rw [htext]
  simp only [seqs, Regex.text, String.toList_ofList]
  refine hits_after hx fun prev t => ?_
  have hline : [x] ++ (q.chars ++ (e ++ z ++ after.chars)) ++ '\n' :: t =
      [x] ++ (q.chars ++ (e ++ (z ++ (after.chars ++ '\n' :: t)))) := by simp
  rw [hline]
  simp only [matchAt, run_seq]
  exact Yields.lit fun prev' => Yields.figure_end hq hafter

/-- `^label: (p+)end` -/
theorem hits_wire {w e z : List Char} (hq : Figures p q)
    (hafter : Ends p (.lit (String.ofList (e ++ z)) :: after)) :
    Hits (.seqs [.bol, .text (String.ofList label), .text (String.ofList w), .group (.plus p),
        .text (String.ofList e)])
      (Line.chars (.lit (String.ofList (label ++ w)) :: q :: .lit (String.ofList (e ++ z)) ::
        after)) [q.chars] := by
  simp only [Line.chars_cons, Piece.chars_lit]
  refine hits_of_start fun prev t hbol => ?_
  have htext : label ++ w ++ (q.chars ++ (e ++ z ++ after.chars)) ++ '\n' :: t =
      label ++ (w ++ (q.chars ++ (e ++ (z ++ (after.chars ++ '\n' :: t))))) := by simp
  rw [htext]
  simp only [seqs, matchAt, run_seq, Regex.text, String.toList_ofList]
  exact Yields.bol hbol (Yields.lit fun prev' => Yields.lit fun prev' =>
    Yields.figure_end hq hafter)

/-- No figure stands after the label. -/
theorem skips_wire {w e : List Char} (hc : p c = false)
    (hl : '\n' ∉ Line.chars [.lit (String.ofList (label ++ (w ++ c :: v)))]) :
    Skips (.seqs [.bol, .text (String.ofList label), .text (String.ofList w), .group (.plus p),
        .text (String.ofList e)])
      (Line.chars [.lit (String.ofList (label ++ (w ++ c :: v)))]) := by
  refine skips_of_start trivial hl fun prev t => ?_
  simp only [Line.chars_cons, Line.chars_nil, Piece.chars_lit, List.append_assoc,
    List.cons_append, List.append_nil, seqs, matchAt, run_seq, Regex.text, String.toList_ofList,
    run_bol]
  split
  · by_contra hne
    obtain ⟨t₁, prev₁, ht₁, hne⟩ := run_lit_split hne
    obtain ⟨t₂, prev₂, ht₂, hne⟩ := run_lit_split hne
    rw [run_group] at hne
    obtain ⟨d, t₃, prev₃, ht₃, hd, hall, -⟩ := run_plus_split hne
    obtain ⟨x, d, rfl⟩ := List.exists_cons_of_ne_nil hd
    -- the figure would begin with the character after the label
    rw [← List.append_cancel_left ht₁] at ht₂
    rw [← List.append_cancel_left ht₂] at ht₃
    have hx : p x = true := hall x List.mem_cons_self
    rw [← (List.cons.inj ht₃).1, hc] at hx
    cases hx
  · rfl

/-- `^label` -/
theorem hits_label : Hits (.seqs [.bol, .text (String.ofList label)])
    (Line.chars (.lit (String.ofList (label ++ v)) :: l)) [] := by
  refine hits_of_start fun prev t hbol => ?_
  simp only [Line.chars_cons, Piece.chars_lit, List.append_assoc, seqs, matchAt, run_seq,
    Regex.text, String.toList_ofList]
  exact Yields.bol hbol (Yields.lit fun prev' => ⟨_, rfl⟩)

/-- `label p+between(p+)end` -/
theorem hits_second {w e z : List Char} {q' : Piece} (hq : Figures p q)
    (hbetween : Ends p (.lit (String.ofList w) :: q' :: .lit (String.ofList (e ++ z)) :: after))
    (hq' : Figures p q') (hafter : Ends p (.lit (String.ofList (e ++ z)) :: after)) :
    Hits (.seqs [.text (String.ofList label), .plus p, .text (String.ofList w), .group (.plus p),
        .text (String.ofList e)])
      (Line.chars (.lit (String.ofList label) :: q :: .lit (String.ofList w) :: q' ::
        .lit (String.ofList (e ++ z)) :: after)) [q'.chars] := by
  refine hits_of_start fun prev t hbol => ?_
  have hends := hbetween.append t
  simp only [Line.chars_cons, Piece.chars_lit, List.append_assoc] at hends ⊢
  simp only [seqs, matchAt, run_seq, Regex.text, String.toList_ofList]
  exact Yields.lit fun prev' => Yields.plus hq.ne hq.all hends fun prev' =>
    Yields.lit fun prev' => Yields.figure_end hq' hafter

end Shapes

section Classes

variable (B : Builtins)

theorem digit_eq_false {c : Char} (h : c.toNat < 128) (hc : c.isDigit = false) :
    B.digit c = false := by rw [B.digit_ascii h, hc]

theorem digitOrPoint_eq_false {c : Char} (h : c.toNat < 128) (hc : c.isDigit = false)
    (hpoint : c ≠ '.') : B.digitOrPoint c = false := by
  rw [Builtins.digitOrPoint, digit_eq_false B h hc, Bool.false_or, beq_eq_false_iff_ne]
  exact hpoint

theorem word_eq_false {c : Char} (h : c.toNat < 128) (hc : c.isAlphanum = false) (hline : c ≠ '_') :
    B.word c = false := by
  rw [Builtins.word, B.alnum_ascii c h, hc, Bool.false_or, beq_eq_false_iff_ne]
  exact hline

theorem figures_num (n : Nat) : Figures B.digit (.num n) :=
  ⟨Nat.toDigits_ne_nil, fun _ hc => B.digit_of_isDigit (Builtins.isDigit_of_mem_toDigits hc)⟩

theorem digitOrPoint_of_isDigit {c : Char} (h : c.isDigit = true ∨ c = '.') :
    B.digitOrPoint c = true := by
  rcases h with h | rfl
  · rw [Builtins.digitOrPoint, B.digit_of_isDigit h, Bool.true_or]
  · rw [Builtins.digitOrPoint, beq_self_eq_true, Bool.or_true]

theorem figures_fixed (places units : Nat) : Figures B.digitOrPoint (.fixed places units) :=
  ⟨fixedChars_ne_nil _ _, fun _ hc => digitOrPoint_of_isDigit B (isDigit_of_mem_fixedChars hc)⟩

theorem figures_digits {u : List Char} (hne : u ≠ []) (h : u.all Char.isDigit = true) :
    Figures B.digit (.lit (String.ofList u)) := by
  refine ⟨by rwa [Piece.chars_lit], fun c hc => ?_⟩
  rw [Piece.chars_lit] at hc
  exact B.digit_of_isDigit (List.all_eq_true.mp h c hc)

theorem figures_points {u : List Char} (hne : u ≠ [])
    (h : u.all (fun c => c.isDigit || c == '.') = true) :
    Figures B.digitOrPoint (.lit (String.ofList u)) := by
  refine ⟨by rwa [Piece.chars_lit], fun c hc => ?_⟩
  rw [Piece.chars_lit] at hc
  exact digitOrPoint_of_isDigit B (by simpa using List.all_eq_true.mp h c hc)

/-- A word of ASCII letters. -/
theorem figures_lit {u : List Char} (hne : u ≠ [])
    (h : u.all (fun c => decide (c.toNat < 128) && c.isAlphanum) = true) :
    Figures B.word (.lit (String.ofList u)) := by
  refine ⟨by rwa [Piece.chars_lit], fun c hc => ?_⟩
  rw [Piece.chars_lit] at hc
  have hc := List.all_eq_true.mp h c hc
  rw [Bool.and_eq_true] at hc
  rw [Builtins.word, B.alnum_ascii c (of_decide_eq_true hc.1), hc.2, Bool.true_or]

variable {c : Char} {u : List Char} {l : Line}

theorem ends_digit (h : c.toNat < 128) (hc : c.isDigit = false) :
    Ends B.digit (.lit (String.ofList (c :: u)) :: l) :=
  .lit (digit_eq_false B (by decide) rfl) (digit_eq_false B h hc)

theorem ends_point (h : c.toNat < 128) (hc : c.isDigit = false) (hpoint : c ≠ '.') :
    Ends B.digitOrPoint (.lit (String.ofList (c :: u)) :: l) :=
  .lit (digitOrPoint_eq_false B (by decide) rfl (by decide)) (digitOrPoint_eq_false B h hc hpoint)

theorem ends_word (h : c.toNat < 128) (hc : c.isAlphanum = false) (hline : c ≠ '_') :
    Ends B.word (.lit (String.ofList (c :: u)) :: l) :=
  .lit (word_eq_false B (by decide) rfl (by decide)) (word_eq_false B h hc hline)

end Classes

/-! ## Distributions -/

/-- ` key=value`, several times. -/
def statPieces (stats : List (List Char × Nat)) : Line :=
  stats.flatMap fun kv => [.lit (String.ofList (' ' :: kv.1)), .num kv.2]

/-- Each key can be told from what comes after it. -/
structure Keys (keys : List (List Char)) (after : Line) : Prop where
  apart : keys.Pairwise fun a b => clears a (' ' :: b) = true
  key : ∀ a ∈ keys, a ≠ [] ∧ wordlike a = true ∧ clears a a.tail = true ∧ clears a ['\n'] = true
  mutes : ∀ a ∈ keys, Mutes [a] after

theorem mutes_statPieces {a : List Char} {stats : List (List Char × Nat)} {after : Line}
    (hword : wordlike a = true) (h : ∀ kv ∈ stats, clears a (' ' :: kv.1) = true)
    (hafter : Mutes [a] after) : Mutes [a] (statPieces stats ++ after) := by
  induction stats with
  | nil => exact hafter
  | cons kv stats ih =>
    have hrest := ih fun kv' hkv' => h kv' (List.mem_cons_of_mem _ hkv')
    have hkey : [a].all (fun s => clears s (' ' :: kv.1)) = true := by
      rw [List.all_cons, h kv List.mem_cons_self]
      rfl
    have hnum : [a].all wordlike = true := by
      rw [List.all_cons, hword]
      rfl
    exact .lit hkey (.num hnum hrest)

theorem ends_statPieces (B : Builtins) {stats : List (List Char × Nat)} {after : Line}
    (hafter : Ends B.digit after) : Ends B.digit (statPieces stats ++ after) := by
  cases stats with
  | nil => exact hafter
  | cons kv stats => exact ends_digit B (by decide) rfl

/-- **Every figure of a line of figures is read under its key.** -/
theorem hits_stats (B : Builtins) {label v : List Char} (m : Nat) (before : Line)
    (stats : List (List Char × Nat)) (after : Line) (hl : '\n' ∉ Line.chars
      (.lit (String.ofList (label ++ (' ' :: (List.replicate m ' ' ++ [':'])))) ::
        .lit (String.ofList (' ' :: v)) ::
        (before ++ (statPieces stats ++ after))))
    (hkeys : Keys (stats.map Prod.fst) after) (hafter : Ends B.digit after)
    {key : List Char} {n : Nat} (h : (key, n) ∈ stats) :
    Hits (statistic (String.ofList label) (String.ofList key) (digits B))
      (Line.chars (.lit (String.ofList (label ++ (' ' :: (List.replicate m ' ' ++ [':'])))) ::
        .lit (String.ofList (' ' :: v)) :: (before ++ (statPieces stats ++ after))))
      [Nat.toDigits 10 n] := by
  -- what stands before the key does not matter, as the last place of the key is found
  obtain ⟨stats₁, stats₂, rfl⟩ := List.append_of_mem h
  have hmem : key ∈ (stats₁ ++ (key, n) :: stats₂).map Prod.fst := List.mem_map_of_mem h
  obtain ⟨hne, hword, htail, hline⟩ := hkeys.key key hmem
  have hapart : ∀ kv ∈ stats₂, clears key (' ' :: kv.1) = true := by
    have hpair := hkeys.apart
    rw [List.map_append, List.map_cons, List.pairwise_append, List.pairwise_cons] at hpair
    exact fun kv hkv => hpair.2.1.1 kv.1 (List.mem_map_of_mem hkv)
  have hsplit : before ++ (statPieces (stats₁ ++ (key, n) :: stats₂) ++ after) =
      (before ++ statPieces stats₁) ++ .lit (String.ofList ([' '] ++ key)) :: .num n ::
        (statPieces stats₂ ++ after) := by
    simp [statPieces]
  obtain ⟨x, key, rfl⟩ := List.exists_cons_of_ne_nil hne
  rw [hsplit] at hl ⊢
  exact hits_statistic m _ _ hl htail (.of_mutes (figures_num B n) (ends_statPieces B hafter)
    (clear_number hword rfl) (mutes_statPieces hword hapart (hkeys.mutes _ hmem)) hline)

/-! ## The metrics of linux-s3 -/

namespace Entry

variable (B : Builtins)

section Bench

variable (w c m : Nat) (stub plain : Bool)

theorem hits_tlsStub :
    Hits (.seqs [.bol, .text "bench:", anything, .text "tls_stub=", .group (letters B)])
      (bench w c m stub plain).line.chars [(boolPiece stub).chars] := by
  have hl := newline_not_mem (e := bench w c m stub plain) trivial
  have hfollows : Follows B.word "tls_stub=".toList (boolPiece stub)
      [.lit " scheme=", .lit (if plain then "http" else "https")] := by
    refine .of_mutes ?_ (ends_word B (by decide) rfl (by decide)) ?_
      (.lit rfl (.either rfl rfl .nil)) rfl
    · cases stub with
      | true => exact figures_lit B (List.cons_ne_nil _ _) rfl
      | false => exact figures_lit B (List.cons_ne_nil _ _) rfl
    · cases stub with
      | true => exact clear_lit rfl
      | false => exact clear_lit rfl
  exact hits_key [.num w, .lit " workers x ", .num c, .lit " conns x ", .num m]
    " MiB block, ".toList hl rfl hfollows

theorem hits_scheme :
    Hits (.seqs [.bol, .text "bench:", anything, .text "scheme=", .group (letters B)])
      (bench w c m stub plain).line.chars [(if plain then "http" else "https").toList] := by
  have hl := newline_not_mem (e := bench w c m stub plain) trivial
  have hfollows :
      Follows B.word "scheme=".toList (.lit (if plain then "http" else "https")) [] := by
    refine ⟨?_, .nil (word_eq_false B (by decide) rfl (by decide)), ?_⟩
    · cases plain with
      | true => exact figures_lit B (List.cons_ne_nil _ _) rfl
      | false => exact figures_lit B (List.cons_ne_nil _ _) rfl
    · cases plain with
      | true => exact clear_of_clears rfl
      | false => exact clear_of_clears rfl
  exact hits_key [.num w, .lit " workers x ", .num c, .lit " conns x ", .num m,
    .lit " MiB block, tls_stub=", boolPiece stub] [' '] hl rfl hfollows

theorem hits_workers :
    Hits (.seqs [.bol, .text "bench: ", .group (digits B), .text " workers"])
      (bench w c m stub plain).line.chars [Nat.toDigits 10 w] :=
  hits_start (figures_num B w) (ends_digit B (by decide) rfl)

end Bench

section Rates

variable (mib seconds rate gbps longest : Nat)

theorem hits_gbps :
    Hits (.seqs [.text "AGGREGATE:", little, .text ", ", .group (figure B), .text " Gbps"])
      (aggregate mib seconds rate gbps).line.chars [fixedChars 3 gbps] := by
  have hl := newline_not_mem (e := aggregate mib seconds rate gbps) trivial
  refine hits_tail [.fixed 1 mib, .lit " MiB in ", .fixed 3 seconds, .lit " s => ", .fixed 1 rate]
    [' ', 'M', 'B', '/', 's'] hl rfl ?_ rfl (figures_fixed B 3 gbps)
    (ends_point B (by decide) rfl (by decide))
  exact .fixed rfl (.lit rfl (.fixed rfl (.lit rfl (.fixed rfl .nil))))

theorem hits_mbPerS :
    Hits (.seqs [.text "AGGREGATE:", little, .text "=> ", .group (figure B), .text " MB/s"])
      (aggregate mib seconds rate gbps).line.chars [fixedChars 1 rate] := by
  have hl := newline_not_mem (e := aggregate mib seconds rate gbps) trivial
  refine hits_tail [.fixed 1 mib, .lit " MiB in ", .fixed 3 seconds] [' ', 's', ' '] hl rfl ?_ rfl
    (figures_fixed B 1 rate) (ends_point B (by decide) rfl (by decide))
  exact .fixed rfl (.lit rfl (.fixed rfl .nil))

theorem hits_elapsed :
    Hits (.seqs [.text "AGGREGATE: ", figure B, .text " MiB in ", .group (figure B), .text " s"])
      (aggregate mib seconds rate gbps).line.chars [fixedChars 3 seconds] :=
  hits_second (figures_fixed B 1 mib) (ends_point B (by decide) rfl (by decide))
    (figures_fixed B 3 seconds) (ends_point B (by decide) rfl (by decide))

theorem hits_transfer :
    Hits (.seqs [.text "TRANSFER:", little, .text ", ", .group (figure B), .text " Gbps"])
      (transfer mib seconds rate gbps longest).line.chars [fixedChars 3 gbps] := by
  have hl := newline_not_mem (e := transfer mib seconds rate gbps longest) trivial
  refine hits_tail [.fixed 1 mib, .lit " MiB in ", .fixed 3 seconds, .lit " s => ", .fixed 1 rate]
    [' ', 'M', 'B', '/', 's'] hl rfl ?_ rfl (figures_fixed B 3 gbps)
    (ends_point B (by decide) rfl (by decide))
  exact .fixed rfl (.lit rfl (.fixed rfl (.lit rfl (.fixed rfl .nil))))

theorem hits_setupWall :
    Hits (.seqs [.text "TRANSFER:", little, .text "(setup ", .group (figure B),
        .text " s excluded)"])
      (transfer mib seconds rate gbps longest).line.chars [fixedChars 3 longest] := by
  have hl := newline_not_mem (e := transfer mib seconds rate gbps longest) trivial
  refine hits_tail [.fixed 1 mib, .lit " MiB in ", .fixed 3 seconds, .lit " s => ", .fixed 1 rate,
    .lit " MB/s, ", .fixed 3 gbps] [' ', 'G', 'b', 'p', 's', ' '] hl rfl ?_ rfl
    (figures_fixed B 3 longest) (ends_point B (by decide) rfl (by decide))
  exact .fixed rfl (.lit rfl (.fixed rfl (.lit rfl (.fixed rfl (.lit rfl (.fixed rfl .nil))))))

end Rates

section Counts

variable (clean total failed : Nat)

theorem hits_connsClean :
    Hits (.seqs [.bol, .text "connections", blanks, .text ": ", .group (digits B), .text "/"])
      (connections clean total failed).line.chars [Nat.toDigits 10 clean] :=
  hits_count (Or.inr rfl) 2 (figures_num B clean) (ends_digit B (by decide) rfl)

theorem hits_connsTotal :
    Hits (.seqs [.bol, .text "connections", blanks, .text ": ", digits B, .text "/",
        .group (digits B)])
      (connections clean total failed).line.chars [Nat.toDigits 10 total] :=
  hits_total (Or.inr rfl) 2 (figures_num B clean) (ends_digit B (by decide) rfl)
    (figures_num B total) (ends_digit B (by decide) rfl)

theorem chars_lits {u v w z : List Char} :
    Line.chars [.lit (String.ofList u), .lit (String.ofList v), .lit (String.ofList w),
        .lit (String.ofList z)] =
      Line.chars [.lit (String.ofList (u ++ (v ++ (w ++ z))))] := by
  simp only [Line.chars_cons, Line.chars_nil, Piece.chars_lit, List.append_nil]

theorem hits_misrouted :
    Hits (.seqs [.bol, .text "misrouted rx", blanks, .text ": ", .group (digits B)])
      misrouted.line.chars [['0']] := by
  have hsplit : Line.chars [.lit "misrouted rx  :", .lit " ", .lit "0",
      .lit " packets dropped (expected 0)"] = misrouted.line.chars := chars_lits
  have hzero : Figures B.digit (.lit "0") := figures_digits B (List.cons_ne_nil _ _) rfl
  rw [← hsplit]
  exact hits_first (Or.inr rfl) 1 hzero (ends_digit B (by decide) rfl)

theorem hits_bytes (total planned mib requested : Nat) :
    Hits (.seqs [.text "(", .group (digits B), .text " bytes)"])
      (blocks total planned mib requested).line.chars [Nat.toDigits 10 requested] := by
  exact hits_within [.lit "blocks        : ", .num total, .lit "/", .num planned,
    .lit " of ", .num mib]
    [' ', 'M', 'i', 'B', ' ', 'r', 'e', 'q', 'u', 'e', 's', 't', 'e', 'd', ' ']
    (.lit rfl (.num rfl (.lit rfl (.num rfl (.lit rfl (.num rfl .nil)))))) rfl
    (figures_num B requested) (ends_digit B (by decide) rfl)

end Counts

section Distributions

variable (d : Dist) (failed : Nat)

/-- The figures of a distribution, with their keys. -/
def usStats : List (List Char × Nat) :=
  [(['u', 's', '_', 'a', 'v', 'g', '='], d.avg.toNat),
    (['u', 's', '_', 'p', '5', '0', '='], d.p50.toNat),
    (['u', 's', '_', 'p', '9', '0', '='], d.p90.toNat),
    (['u', 's', '_', 'm', 'a', 'x', '='], d.max.toNat)]

def usKeys : List (List Char) :=
  [['u', 's', '_', 'a', 'v', 'g', '='], ['u', 's', '_', 'p', '5', '0', '='],
    ['u', 's', '_', 'p', '9', '0', '='], ['u', 's', '_', 'm', 'a', 'x', '=']]

def setupStats : List (List Char × Nat) :=
  (['f', 'a', 'i', 'l', 'e', 'd', '='], failed) :: usStats d

theorem hits_setupConns :
    Hits (.seqs [.bol, .text "SETUP STATS", Runner.blank, .text ": conns=", .group (digits B)])
      (setup d failed).line.chars [Nat.toDigits 10 d.n.toNat] :=
  hits_first (Or.inl rfl) 2 (figures_num B _) (ends_digit B (by decide) rfl)

theorem hits_dialN :
    Hits (.seqs [.bol, .text "DIAL STATS", Runner.blank, .text ": dials=", .group (digits B)])
      (dial d).line.chars [Nat.toDigits 10 d.n.toNat] :=
  hits_first (Or.inl rfl) 3 (figures_num B _) (ends_digit B (by decide) rfl)

theorem hits_setupStat {key : List Char} {n : Nat} (h : (key, n) ∈ setupStats d failed) :
    Hits (statistic "SETUP STATS" (String.ofList key) (digits B)) (setup d failed).line.chars
      [Nat.toDigits 10 n] := by
  have hl := newline_not_mem (e := setup d failed) trivial
  have hkeys : Keys ((setupStats d failed).map Prod.fst) [] := by
    show Keys (['f', 'a', 'i', 'l', 'e', 'd', '='] :: usKeys) []
    exact ⟨by decide, by decide, fun a ha => .nil⟩
  have hend : Ends B.digit [] := .nil (digit_eq_false B (by decide) rfl)
  refine hits_stats B 2 [.num d.n.toNat] (setupStats d failed) [] ?_ hkeys hend h
  exact hl

theorem hits_dialStat {key : List Char} {n : Nat} (h : (key, n) ∈ usStats d) :
    Hits (statistic "DIAL STATS" (String.ofList key) (digits B)) (dial d).line.chars
      [Nat.toDigits 10 n] := by
  have hl := newline_not_mem (e := dial d) trivial
  have hkeys : Keys ((usStats d).map Prod.fst) [.lit " loop_ms=", .lit "0.0"] := by
    refine ⟨(by decide : usKeys.Pairwise _), (by decide : ∀ a ∈ usKeys, _), ?_⟩
    show ∀ a ∈ usKeys, _
    simp only [usKeys, List.forall_mem_cons, List.not_mem_nil, false_implies, implies_true,
      and_true]
    exact ⟨.lit rfl (.lit rfl .nil), .lit rfl (.lit rfl .nil), .lit rfl (.lit rfl .nil),
      .lit rfl (.lit rfl .nil)⟩
  refine hits_stats B 3 [.num d.n.toNat] (usStats d) [.lit " loop_ms=", .lit "0.0"] ?_ hkeys
    (ends_digit B (by decide) rfl) h
  exact hl

theorem hits_loopMs :
    Hits (statistic "DIAL STATS" "loop_ms=" (figure B)) (dial d).line.chars
      [fixedChars 1 0] := by
  have hl := newline_not_mem (e := dial d) trivial
  have hfigure : Figures B.digitOrPoint (.lit "0.0") :=
    figures_points B (List.cons_ne_nil _ _) rfl
  have hpoint : B.digitOrPoint '\n' = false := digitOrPoint_eq_false B (by decide) rfl (by decide)
  exact hits_statistic 3 (.num d.n.toNat :: statPieces (usStats d)) [' '] hl rfl
    ⟨hfigure, .nil hpoint, clear_of_clears rfl⟩

end Distributions

section Target

variable (a b c d port : Nat) (host : String)

/-- `a.b.c.d` -/
def ipChars : List Char :=
  Nat.toDigits 10 a ++ '.' :: (Nat.toDigits 10 b ++ '.' :: (Nat.toDigits 10 c ++ '.' ::
    Nat.toDigits 10 d))

theorem target_eq : (target a b c d port host).line.chars =
    ['t', 'a', 'r', 'g', 'e', 't', ':', ' '] ++ (ipChars a b c d ++ ([':'] ++
      (Nat.toDigits 10 port ++ ' ' :: host.toList))) := by
  show Line.chars [.lit (String.ofList ['t', 'a', 'r', 'g', 'e', 't', ':', ' ']), .num a,
    .lit (String.ofList ['.']), .num b, .lit (String.ofList ['.']), .num c,
    .lit (String.ofList ['.']), .num d, .lit (String.ofList [':']), .num port,
    .lit (String.ofList [' ']), .given host] = _
  simp only [Line.chars_cons, Line.chars_nil, Piece.chars_lit, ipChars, List.append_assoc,
    List.cons_append, List.nil_append, List.append_nil]
  rfl

theorem ipChars_ne_nil : ipChars a b c d ≠ [] :=
  List.append_ne_nil_of_left_ne_nil Nat.toDigits_ne_nil _

theorem digitOrPoint_of_mem_ipChars {x : Char} (h : x ∈ ipChars a b c d) :
    B.digitOrPoint x = true := by
  have hdigit : ∀ n, x ∈ Nat.toDigits 10 n → x.isDigit = true ∨ x = '.' := fun n hx =>
    Or.inl (Builtins.isDigit_of_mem_toDigits hx)
  refine digitOrPoint_of_isDigit B ?_
  simp only [ipChars, List.mem_append, List.mem_cons] at h
  rcases h with h | h | h | h | h | h | h
  · exact hdigit a h
  · exact Or.inr h
  · exact hdigit b h
  · exact Or.inr h
  · exact hdigit c h
  · exact Or.inr h
  · exact hdigit d h

theorem target_rest (t : List Char) : (target a b c d port host).line.chars ++ '\n' :: t =
    ['t', 'a', 'r', 'g', 'e', 't', ':', ' '] ++ (ipChars a b c d ++ ([':'] ++
      (Nat.toDigits 10 port ++ ' ' :: (host.toList ++ '\n' :: t)))) := by
  rw [target_eq]
  simp

theorem head_colon (t : List Char) : ∀ x ∈ ([':'] ++ t).head?, B.digitOrPoint x = false := by
  intro x hx
  rw [← Option.some_inj.mp hx]
  exact digitOrPoint_eq_false B (by decide) rfl (by decide)

theorem head_space (t : List Char) : ∀ x ∈ (' ' :: t).head?, B.digit x = false := by
  intro x hx
  rw [← Option.some_inj.mp hx]
  exact digit_eq_false B (by decide) rfl

theorem hits_targetIp :
    Hits (.seqs [.bol, .text "target: ", .group (figure B), .text ":", digits B])
      (target a b c d port host).line.chars [ipChars a b c d] := by
  show Hits (.seqs [.bol, .text (String.ofList ['t', 'a', 'r', 'g', 'e', 't', ':', ' ']),
    .group (.plus B.digitOrPoint), .text (String.ofList [':']), .plus B.digit]) _ _
  refine hits_of_start fun prev t hbol => ?_
  rw [target_rest]
  simp only [seqs, matchAt, run_seq, Regex.text, String.toList_ofList]
  refine Yields.bol hbol (Yields.lit fun _ => Yields.group_plus (ipChars_ne_nil a b c d)
    (fun x hx => digitOrPoint_of_mem_ipChars B a b c d hx) (head_colon B _) fun _ => ?_)
  exact Yields.lit fun _ => Yields.plus (figures_num B port).ne (figures_num B port).all
    (head_space B _) fun _ => ⟨_, rfl⟩

theorem hits_targetPort :
    Hits (.seqs [.bol, .text "target: ", figure B, .text ":", .group (digits B)])
      (target a b c d port host).line.chars [Nat.toDigits 10 port] := by
  show Hits (.seqs [.bol, .text (String.ofList ['t', 'a', 'r', 'g', 'e', 't', ':', ' ']),
    .plus B.digitOrPoint, .text (String.ofList [':']), .group (.plus B.digit)]) _ _
  refine hits_of_start fun prev t hbol => ?_
  rw [target_rest]
  simp only [seqs, matchAt, run_seq, Regex.text, String.toList_ofList]
  refine Yields.bol hbol (Yields.lit fun _ => Yields.plus (ipChars_ne_nil a b c d)
    (fun x hx => digitOrPoint_of_mem_ipChars B a b c d hx) (head_colon B _) fun _ => ?_)
  exact Yields.lit fun _ => Yields.group_plus (figures_num B port).ne (figures_num B port).all
    (head_space B _) fun _ => ⟨_, rfl⟩

end Target

section Wire

variable (gbps bytes start stop : Nat)

theorem hits_wireGbps : Hits (LinuxS3.wire B "gbps_wire" "WIRE").pattern
    (wire gbps bytes).line.chars [fixedChars 3 gbps] :=
  hits_wire (figures_fixed B 3 gbps) (ends_point B (by decide) rfl (by decide))

theorem hits_steady : Hits (LinuxS3.wire B "gbps_wire_steady" "WIRE STEADY").pattern
    (steady gbps start stop bytes).line.chars [fixedChars 3 gbps] :=
  hits_wire (figures_fixed B 3 gbps) (ends_point B (by decide) rfl (by decide))

theorem hits_peak : Hits (LinuxS3.wire B "gbps_wire_peak" "WIRE PEAK").pattern
    (peak gbps).line.chars [fixedChars 3 gbps] :=
  hits_wire (figures_fixed B 3 gbps) (ends_point B (by decide) rfl (by decide))

theorem skips_noIface :
    Skips (LinuxS3.wire B "gbps_wire" "WIRE").pattern noIface.line.chars := by
  have hl := newline_not_mem (e := noIface) trivial
  have hc : B.digitOrPoint 'n' = false := digitOrPoint_eq_false B (by decide) rfl (by decide)
  exact skips_wire hc hl

theorem skips_noWindow :
    Skips (LinuxS3.wire B "gbps_wire_steady" "WIRE STEADY").pattern noWindow.line.chars := by
  have hl := newline_not_mem (e := noWindow) trivial
  have hc : B.digitOrPoint 'n' = false := digitOrPoint_eq_false B (by decide) rfl (by decide)
  exact skips_wire hc hl

end Wire

end Entry

end LinuxS3
