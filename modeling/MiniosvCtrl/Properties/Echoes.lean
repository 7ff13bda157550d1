import MiniosvCtrl.Bench.Results
import MiniosvCtrl.Infra.Echoed

/-!
# Rows under echoes

A serial console prints a line twice now and then. Both arms cut the console of a boot with several
queries at the lines that begin one, and duckdb-linux passes over an echo of such a line.

* `Result` — a query's line
* `Transcript`, `Log` — what a guest prints
* `OneRowEach` — one row for each query, with what its line says
* `oneRowEach_iff` — which consoles give that
-/

namespace Tpch

open Infra Infra.Regex Runner

variable (B : Builtins)

/-! ## What a guest prints -/

/-- `Qnn: ms ms, rows rows, match=...`, with what `int` and `float` make of it. -/
structure Result where
  number : List Char
  query : Nat
  ms : List Char
  time : B.Float
  count : List Char
  rows : Nat
  answer : List Char
  rest : List Char
  number_eq : B.int number = some query
  ms_figure : ms ≠ [] ∧ ∀ c ∈ ms, B.digitOrPoint c = true
  time_eq : B.float ms = some time
  count_eq : B.int count = some rows
  answer_word : answer ≠ [] ∧ ∀ c ∈ answer, B.word c = true
  rest_ends : ∀ c ∈ rest.head?, B.word c = false
  rest_line : '\n' ∉ rest

variable {B}

def Result.line (r : Result B) : List Char :=
  "Q".toList ++ r.number ++ ": ".toList ++ r.ms ++ " ms, ".toList ++ r.count ++
    " rows, match=".toList ++ r.answer ++ r.rest

variable (B)

/-- A query that was run: its line, and what it prints after that. -/
structure Ran where
  result : Result B
  body : List (List Char)

structure Transcript where
  preamble : List (List Char)
  ran : List (Ran B)
  summary : List (List Char)

variable {B}

namespace Transcript

variable (t : Transcript B)

/-- The lines with results. -/
def results : List (List Char) := t.ran.map fun r => r.result.line

/-- The others. -/
def others : List (List Char) := t.preamble ++ t.ran.flatMap Ran.body ++ t.summary

def lines : List (List Char) :=
  t.preamble ++ t.ran.flatMap (fun r => r.result.line :: r.body) ++ t.summary

end Transcript

variable (B) in
/-- The transcript of a boot with several queries, of which no result looks like the one before it.
Its figures are numbers, and duckdb-tpch's log does not say that there was no instance. -/
structure Log (arm : Arm) extends Transcript B where
  several : 2 ≤ ran.length
  differ : toTranscript.results.IsChain (· ≠ ·)
  others_line : ∀ l ∈ toTranscript.others, '\n' ∉ l
  others_head : ∀ l ∈ toTranscript.others, headOf B l = none
  provided : arm = .duckdbTpch → ∀ l ∈ toTranscript.lines,
    ¬ "spot requested but not provided: ".toList <+: l
  readable : ∀ metric ∈ (arm.stack B).metrics, ∀ l ∈ toTranscript.lines, (metric.read B l).isSome

/-- The row of the `n`-th query has what its line says. -/
structure Shows (r : Result B) (n : Nat) (row : Record B) : Prop where
  query : row "query" = .int r.query
  seq : row "query_seq" = .int (n + 1)
  time : row "query_ms" = .float r.time
  rows : row "rows" = .int r.rows
  answer : row "match" = .str (String.ofList r.answer)

/-- `run_once` returns one row for each query, in order. -/
def OneRowEach {arm : Arm} (log : Log B arm) (s : Setting) (text : List Char) : Prop :=
  ∃ rows, (arm.stack B).rows B s text = some rows ∧ rows.length = log.ran.length ∧
    ∀ (n : Nat) r row, log.ran[n]? = some r → rows[n]? = some row → Shows r.result n row

/-! ## A result's line -/

section Line

variable (r : Result B)

theorem run_of_int {l rest : List Char} {n : Nat} (h : B.int l = some n)
    (hends : ∀ c ∈ rest.head?, B.digit c = false) : Run B.digit l rest := by
  rw [Builtins.int] at h
  split at h
  · rename_i hl
    exact ⟨hl.1, List.all_eq_true.mp hl.2.1, hends⟩
  · cases h

theorem Result.run_number (rest : List Char) : Run B.digit r.number (": ".toList ++ rest) :=
  run_of_int r.number_eq (head_of_stops (stops_colon _) rest)

theorem Result.run_ms (rest : List Char) : Run B.digitOrPoint r.ms (" ms, ".toList ++ rest) :=
  ⟨r.ms_figure.1, r.ms_figure.2, head_of_stops (stops_blank_figure _) rest⟩

theorem Result.run_count (rest : List Char) :
    Run B.digit r.count (" rows, match=".toList ++ rest) :=
  run_of_int r.count_eq (head_of_stops (stops_blank _) rest)

theorem Result.line_eq : r.line = "Q".toList ++ (r.number ++ (": ".toList ++ (r.ms ++
    (" ms, ".toList ++ (r.count ++ (" rows, match=".toList ++ (r.answer ++ r.rest))))))) := by
  simp only [line, List.append_assoc]

theorem Result.reads_head : Reads (headPieces B) r.line [r.number] :=
  ⟨_, r.line_eq, _, _, [], rfl, r.run_number _, rfl, _, rfl, rfl⟩

theorem Result.reads_timed : Reads (timedPieces B) r.line [r.ms] :=
  ⟨_, r.line_eq, _, _, rfl, r.run_number _, _, rfl, _, _, [], rfl, r.run_ms _, rfl, _, rfl, rfl⟩

theorem Result.reads_counted : Reads (countedPieces B) r.line [r.count] :=
  ⟨_, r.line_eq, _, _, rfl, r.run_number _, _, rfl, _, _, rfl, r.run_ms _, _, rfl, _, _, [], rfl,
    r.run_count _, rfl, _, rfl, rfl⟩

theorem Result.reads_answered : Reads (answeredPieces B) r.line [r.answer] :=
  ⟨_, r.line_eq, _, _, rfl, r.run_number _, _, rfl, _, _, rfl, r.run_ms _, _, rfl, _, _, rfl,
    r.run_count _, _, rfl, _, _, [], rfl, ⟨r.answer_word.1, r.answer_word.2, r.rest_ends⟩, rfl, rfl⟩

theorem Result.headOf_line : headOf B r.line = some r.number := headOf_iff.mpr r.reads_head

theorem not_mem_of_int {l : List Char} {n : Nat} (h : B.int l = some n) : '\n' ∉ l := by
  intro hmem
  have hrun : Run B.digit l [] := run_of_int h fun _ h => absurd h (by simp)
  have hdigit := hrun.all _ hmem
  rw [digit_line] at hdigit
  cases hdigit

/-- It is one line. -/
theorem Result.not_mem_line : '\n' ∉ r.line := by
  have hms : '\n' ∉ r.ms := by
    intro hmem
    have hfigure := r.ms_figure.2 _ hmem
    rw [figure_line] at hfigure
    cases hfigure
  have hanswer : '\n' ∉ r.answer := by
    intro hmem
    have hword := r.answer_word.2 _ hmem
    rw [word_line] at hword
    cases hword
  simp [line, hms, hanswer, not_mem_of_int r.number_eq, not_mem_of_int r.count_eq, r.rest_line]

end Line

/-! ## The lines of a log -/

theorem flatMap_results (ran : List (Ran B)) :
    (ran.flatMap fun r => r.result.line :: r.body).Perm
      (ran.map (fun r => r.result.line) ++ ran.flatMap Ran.body) := by
  induction ran with
  | nil => exact .nil
  | cons r ran ih =>
    rw [List.flatMap_cons, List.map_cons, List.flatMap_cons, List.cons_append, List.cons_append]
    refine .cons _ ((List.Perm.append_left r.body ih).trans ?_)
    rw [← List.append_assoc, ← List.append_assoc]
    exact List.Perm.append_right _ List.perm_append_comm

/-- A line begins a query. -/
def isHead (B : Builtins) (l : List Char) : Bool := (headOf B l).isSome

theorem filter_flatMap_results {ran : List (Ran B)}
    (h : ∀ l ∈ ran.flatMap Ran.body, headOf B l = none) :
    (ran.flatMap fun r => r.result.line :: r.body).filter (isHead B) =
      ran.map fun r => r.result.line := by
  induction ran with
  | nil => rfl
  | cons r ran ih =>
    rw [List.flatMap_cons, List.forall_mem_append] at h
    have hbody : r.body.filter (isHead B) = [] :=
      List.filter_eq_nil_iff.mpr fun l hl => by simp [isHead, h.1 l hl]
    have hline : isHead B r.result.line = true := by rw [isHead, r.result.headOf_line]; rfl
    rw [List.flatMap_cons, List.cons_append, List.filter_cons_of_pos hline, List.filter_append,
      hbody, List.nil_append, ih h.2, List.map_cons]

namespace Log

variable {arm : Arm} (log : Log B arm)

/-- Queries begin at the results, and nowhere else. -/
theorem filter_lines : log.lines.filter (isHead B) = log.results := by
  have hnone : ∀ {ls : List (List Char)}, (∀ l ∈ ls, headOf B l = none) →
      ls.filter (isHead B) = [] := fun h =>
    List.filter_eq_nil_iff.mpr fun l hl => by simp [isHead, h l hl]
  have hhead := log.others_head
  rw [Transcript.others, List.forall_mem_append, List.forall_mem_append] at hhead
  rw [Transcript.lines, List.filter_append, List.filter_append, hnone hhead.1.1, hnone hhead.2,
    filter_flatMap_results hhead.1.2, List.nil_append, List.append_nil, Transcript.results]

theorem length_results : log.results.length = log.ran.length := List.length_map _

theorem not_mem_line {l : List Char} (hl : l ∈ log.lines) : '\n' ∉ l := by
  have hall := log.others_line
  rw [Transcript.others, List.forall_mem_append, List.forall_mem_append] at hall
  rw [Transcript.lines, List.mem_append, List.mem_append] at hl
  rcases hl with (hl | hl) | hl
  · exact hall.1.1 l hl
  · rcases List.mem_append.mp ((flatMap_results log.ran).mem_iff.mp hl) with hl | hl
    · obtain ⟨r, -, rfl⟩ := List.mem_map.mp hl
      exact r.result.not_mem_line
    · exact hall.1.2 l hl
  · exact hall.2 l hl

theorem lines_ne_nil : log.lines ≠ [] := by
  intro h
  have hresults := log.filter_lines
  have hlength := log.length_results
  have hseveral := log.several
  rw [h, List.filter_nil] at hresults
  rw [← hresults, List.length_nil] at hlength
  omega

end Log

/-! ## Where the queries of a console begin -/

theorem map_head_cut (ls : List (List Char)) :
    (cut B ls).2.map Block.head = ls.filter (isHead B) := by
  induction ls with
  | nil => rfl
  | cons l ls ih =>
    cases h : headOf B l with
    | none =>
      rw [cut_none h, List.filter_cons_of_neg (by simp [isHead, h])]
      exact ih
    | some number =>
      rw [cut_some h, List.filter_cons_of_pos (by simp [isHead, h]), List.map_cons, ih]

theorem Echoed.head {x : List Char} {xs ys : List (List Char)} (h : Echoed xs (x :: ys)) :
    ∃ xs', xs = x :: xs' := by
  cases h with
  | once _ h => exact ⟨_, rfl⟩
  | twice _ h => exact ⟨_, rfl⟩

/-- **Without the echoes there are the results, in order.** -/
theorem map_head_joined {bs : List (Block B)} {xs : List (List Char)}
    (h : Echoed xs (bs.map Block.head)) (hxs : xs.IsChain (· ≠ ·)) :
    (joined bs).map Block.head = xs := by
  induction bs using joined.induct generalizing xs with
  | case1 =>
    cases h
    rw [joined, List.map_nil]
  | case2 b =>
    cases h with
    | once _ h =>
      cases h
      rw [joined, List.map_cons, List.map_nil]
  | case3 b b' bs heq ih =>
    rw [joined, if_pos heq]
    rw [List.map_cons, List.map_cons, heq] at h
    cases h with
    | once _ h =>
      obtain ⟨xs, rfl⟩ := Echoed.head h
      exact absurd rfl (List.isChain_cons_cons.mp hxs).1
    | twice _ h => exact ih (.once b.head h) hxs
  | case4 b b' bs hne ih =>
    rw [joined, if_neg hne, List.map_cons]
    rw [List.map_cons, List.map_cons] at h
    generalize hhead : b'.head = head at h
    cases h with
    | once _ h => exact congrArg (b.head :: ·) (ih (by rwa [List.map_cons, hhead]) hxs.tail)
    | twice _ h => exact absurd hhead hne

/-! ## What is read line by line -/

section Patterns

variable {name : Name} {cast : Cast} {value : Regex} {l k : List Char}

theorem lineBound_digits : (digits B).LineBound := by simp [digits, plus, LineBound, digit_line]

theorem lineBound_figure : (figure B).LineBound := by simp [figure, plus, LineBound, figure_line]

theorem byLine_stat (hvalue : value.LineBound) (hl : '\n' ∉ l := by decide)
    (hk : '\n' ∉ k := by decide) :
    Metric.ByLine ⟨name, stat B (String.ofList l) (String.ofList k) value, cast⟩ := by
  simp [Metric.ByLine, stat, seqs, Regex.text, LineBound, Takes, anything, edge, Regex.dot,
    word_line, hvalue, hl, hk]

theorem byLine_plain (hvalue : value.LineBound) (hl : '\n' ∉ l := by decide)
    (hk : '\n' ∉ k := by decide) :
    Metric.ByLine ⟨name, plain (String.ofList l) (String.ofList k) value, cast⟩ := by
  simp [Metric.ByLine, plain, seqs, Regex.text, LineBound, Takes, anything, Regex.dot, hvalue, hl,
    hk]

theorem byLine_leading (hvalue : value.LineBound) (hl : '\n' ∉ l := by decide)
    (hk : '\n' ∉ k := by decide) :
    Metric.ByLine ⟨name, leading (String.ofList l) (String.ofList k) value, cast⟩ := by
  simp [Metric.ByLine, leading, seqs, Regex.text, LineBound, Takes, hvalue, hl, hk]

theorem byLine_probe (hl : '\n' ∉ l := by decide) :
    Metric.ByLine (probe B (String.ofList l)) := by
  simp [Metric.ByLine, probe, leading, seqs, Regex.text, LineBound, Takes, lineBound_figure, hl]

theorem byLine_cpus (hvalue : value.LineBound) {step : List Char} (hstep : '\n' ∉ step := by decide)
    (hk : '\n' ∉ k := by decide) :
    (DuckdbTpch.cpus name (String.ofList step) (String.ofList k) value).ByLine := by
  simp [Metric.ByLine, DuckdbTpch.cpus, seqs, Regex.text, LineBound, Takes, anything, Regex.dot,
    hvalue, hstep, hk]

end Patterns

theorem shared_byLine : ∀ metric ∈ shared B, metric.ByLine := by
  rw [shared]
  repeat' refine List.forall_mem_cons.mpr ⟨?_, ?_⟩
  all_goals try exact Or.inl rfl
  all_goals try exact byLine_probe
  all_goals try exact byLine_stat lineBound_digits
  all_goals try exact byLine_stat lineBound_figure
  all_goals try exact byLine_leading lineBound_digits
  -- those with a pattern of their own
  all_goals simp [Metric.ByLine, seqs, Regex.text, LineBound, Takes, line, lineBound_digits,
    lineBound_figure, Regex.opt]

theorem DuckdbTpch.metrics_byLine : ∀ metric ∈ DuckdbTpch.metrics B, metric.ByLine := by
  intro metric hmem
  rcases List.mem_append.mp hmem with h | h
  · exact shared_byLine metric (List.mem_of_mem_filter h)
  · clear hmem
    revert metric
    repeat' refine List.forall_mem_cons.mpr ⟨?_, ?_⟩
    all_goals try exact Or.inl rfl
    all_goals try exact byLine_plain lineBound_digits
    all_goals try exact byLine_plain lineBound_figure
    all_goals try exact byLine_stat lineBound_digits
    all_goals try exact byLine_stat lineBound_figure
    all_goals try exact byLine_leading lineBound_digits
    all_goals try exact byLine_cpus lineBound_figure
    -- those of a query's line
    all_goals simp [Metric.ByLine, DuckdbTpch.cpusOfQuery, seqs, Regex.text, LineBound, Takes,
      lineBound_digits, lineBound_figure, digit_line, anything, Regex.opt, Regex.dot, line]

theorem DuckdbLinux.metrics_byLine : ∀ metric ∈ DuckdbLinux.metrics B, metric.ByLine := by
  intro metric hmem
  rcases List.mem_append.mp hmem with h | h
  · exact shared_byLine metric (List.mem_of_mem_filter h)
  · clear hmem
    revert metric
    repeat' refine List.forall_mem_cons.mpr ⟨?_, ?_⟩
    all_goals try exact Or.inl rfl
    all_goals try exact byLine_stat lineBound_digits
    all_goals try exact byLine_stat lineBound_figure
    -- those with a pattern of their own
    all_goals simp [Metric.ByLine, seqs, Regex.text, LineBound, Takes, solid, plus, isSpace,
      lineBound_digits, lineBound_figure]

theorem Arm.metrics_byLine (arm : Arm) : ∀ metric ∈ (arm.stack B).metrics, metric.ByLine := by
  cases arm with
  | duckdbTpch => exact DuckdbTpch.metrics_byLine
  | duckdbLinux => exact DuckdbLinux.metrics_byLine

/-! ## A console -/

section Console

variable {arm : Arm} {log : Log B arm} {ls : List (List Char)}

theorem lines_console (h : Echoed log.lines ls) : lines (unlined ls) = ls := by
  refine lines_unlined ?_ fun l hl => log.not_mem_line (h.mem_iff.mp hl)
  rintro rfl
  exact log.lines_ne_nil (List.length_eq_zero_iff.mp (Nat.le_zero.mp h.length_le))

/-- Part of a console is readable as the log is. -/
theorem isSome_read (log : Log B arm) {metrics : List Metric}
    (hsub : metrics ⊆ (arm.stack B).metrics) {t : List Char}
    (ht : ∀ l ∈ lines t, l = [] ∨ l ∈ log.lines) :
    (parse B metrics t).isSome := by
  refine isSome_parse fun metric hmem => ?_
  refine (arm.metrics_byLine metric (hsub hmem)).isSome fun l hl => ?_
  exact (ht l hl).imp_right fun hlog => log.readable metric (hsub hmem) l hlog

theorem not_refused (h : Echoed log.lines ls) (harm : arm = .duckdbTpch) :
    SmoltcpS3.refused.found (unlined ls) = false := by
  have hbound : SmoltcpS3.refused.LineBound := by
    simp [SmoltcpS3.refused, seqs, Regex.text, LineBound, anything, Regex.dot]
  refine Bool.eq_false_iff.mpr fun hfound => ?_
  obtain ⟨l, hl, hmatch⟩ := (found_line hbound trivial _).mp hfound
  rw [lines_console h] at hl
  refine log.provided harm l (h.mem_iff.mp hl) ?_
  have hrun : (Regex.matchAt SmoltcpS3.refused ⟨none, l⟩) ≠ none := fun hnone =>
    hmatch (by rw [lineGroups, hnone]; rfl)
  have hrun : Regex.run (.lit "spot requested but not provided: ".toList) ⟨none, l⟩ []
      (fun c g => Regex.run anything c g done) ≠ none := hrun
  obtain ⟨rest, -, rfl, -⟩ := run_lit_split hrun
  exact List.prefix_append _ rest

theorem nic_subset : DuckdbLinux.nic B ⊆ (Arm.duckdbLinux.stack B).metrics := by
  intro metric hmem
  exact List.mem_append_right _ (List.mem_append_left _ hmem)

/-- The run is cut at its queries. -/
theorem blocks_console (h : Echoed log.lines ls)
    (hmany : 1 < (arm.queries B (unlined ls)).length)
    (hint : ∀ b ∈ arm.queries B (unlined ls), (B.int b.number).isSome) :
    (arm.stack B).blocks (unlined ls) = some (texts (arm.queries B (unlined ls))) := by
  have hblocks : Tpch.blocks B (arm.heads B (unlined ls)) (unlined ls) =
      some (texts (arm.queries B (unlined ls))) := by
    rw [arm.heads_eq, blocks, length_begins, if_neg (Nat.not_le.mpr hmany), slices_begins,
      all_begins fun n => (B.int n).isSome, if_pos (List.all_eq_true.mpr hint)]
  cases arm with
  | duckdbTpch =>
    show (if SmoltcpS3.refused.found (unlined ls) then none else Tpch.blocks B _ _) = _
    rw [not_refused h rfl]
    exact hblocks
  | duckdbLinux =>
    have hnic : (parse B (DuckdbLinux.nic B) (unlined ls)).isSome := by
      refine isSome_read log nic_subset fun l hl => ?_
      rw [lines_console h] at hl
      exact .inr (h.mem_iff.mp hl)
    show (if _ ∨ _ then Tpch.blocks B _ _ else none) = _
    rw [if_pos (.inr hnic)]
    exact hblocks

/-- A query's row has what its line says. -/
theorem shows_of_parse {s : Setting} {text t : List Char} {n : Nat} {p : Record B} {r : Result B}
    {b : Block B} (hmany : 1 < (arm.queries B text).length) (hb : (arm.queries B text)[n]? = some b)
    (ht : lines t = b.lines ∨ lines t = b.lines ++ [[]])
    (hp : parse B (arm.stack B).metrics t = some p) (hhead : b.head = r.line) :
    Shows r n (p.putAll ((arm.stack B).sets s text n p)) := by
  have hsingle : b.Single := arm.queries_single text b (List.mem_of_getElem? hb)
  -- a block has one line that any of these patterns can begin on, and that is its head
  have hread : ∀ {metric : Metric} {ps : List Piece} {g : List Char},
      metric ∈ (arm.stack B).metrics → metric.Is ps → Heads B ps → Reads ps r.line [g] →
      metric.cast.apply B g = some (p metric.name) := by
    intro metric ps g hmem his hps hg
    have hfirst := (first_iff hsingle ht hps).mpr (hhead ▸ hg)
    rcases Arm.read_cases hp hmem his with ⟨g', hg', hcast⟩ | ⟨hnowhere, -⟩
    · rw [(first_iff hsingle ht hps), hhead] at hg'
      obtain rfl := (List.cons.inj (hg.unique hg')).1
      exact hcast
    · exact absurd hfirst (nowhere_iff.mp hnowhere _)
  obtain ⟨hms, hrows, hmatch⟩ := arm.mem_metrics (B := B)
  have htime : Cast.float.apply B r.ms = some (p "query_ms") :=
    hread hms queryMs_is heads_timed r.reads_timed
  have hcount : Cast.int.apply B r.count = some (p "rows") :=
    hread hrows rowCount_is heads_counted r.reads_counted
  have hanswer : Cast.str.apply B r.answer = some (p "match") :=
    hread hmatch answer_is heads_answered r.reads_answered
  have hnumber : B.int b.number = some r.query := by
    have hbegins := b.begins
    rw [hhead, r.headOf_line, Option.some_inj] at hbegins
    rw [← hbegins, r.number_eq]
  obtain ⟨hquery, hseq⟩ := Arm.sets_query (s := s) (p := p) hmany hb hnumber
  have hfloat : p "query_ms" = .float r.time := by
    rw [Cast.apply, r.time_eq] at htime
    exact (Option.some_inj.mp htime).symm
  refine ⟨hquery, hseq, ?_, ?_, ?_⟩
  · rw [Arm.sets_time (by decide), arm.recovered_eq_nil (by simp [hfloat])]
    exact hfloat
  · rw [Arm.sets_parsed (by decide)]
    rw [Cast.apply_int, r.count_eq] at hcount
    exact (Option.some_inj.mp hcount).symm
  · rw [Arm.sets_parsed (by decide)]
    exact (Option.some_inj.mp hanswer).symm

/-- **If the driver sees the queries begin where they do, it returns a row for each.** -/
theorem oneRowEach_of_heads (s : Setting) (h : Echoed log.lines ls)
    (hheads : (arm.queries B (unlined ls)).map Block.head = log.results) :
    OneRowEach log s (unlined ls) := by
  have hlength : (arm.queries B (unlined ls)).length = log.ran.length := by
    rw [← log.length_results, ← hheads, List.length_map]
  have hmany : 1 < (arm.queries B (unlined ls)).length := hlength ▸ log.several
  have hresult : ∀ {n : Nat} {b : Block B}, (arm.queries B (unlined ls))[n]? = some b →
      ∃ r, log.ran[n]? = some r ∧ b.head = r.result.line := by
    intro n b hb
    have hget := congrArg (·[n]?) hheads
    simp only [Transcript.results, List.getElem?_map, hb, Option.map_some] at hget
    obtain ⟨r, hr, hline⟩ := Option.map_eq_some_iff.mp hget.symm
    exact ⟨r, hr, hline.symm⟩
  -- each block begins with a result, whose number `int` reads
  have hint : ∀ b ∈ arm.queries B (unlined ls), (B.int b.number).isSome := by
    intro b hb
    obtain ⟨n, hn⟩ := List.getElem?_of_mem hb
    obtain ⟨r, -, hhead⟩ := hresult hn
    have hbegins := b.begins
    rw [hhead, r.result.headOf_line, Option.some_inj] at hbegins
    rw [← hbegins, r.result.number_eq]
    rfl
  have hblocks := blocks_console h hmany hint
  -- the lines of a block are lines of the log
  have hline : ∀ l ∈ flat (arm.queries B (unlined ls)), l ∈ log.lines := by
    intro l hl
    rw [arm.flat_queries] at hl
    have hmem := mem_lines_of_flat hl
    rw [lines_console h] at hmem
    exact h.mem_iff.mp hmem
  have htext : ∀ {n : Nat} {t : List Char}, (texts (arm.queries B (unlined ls)))[n]? = some t →
      ∃ b, (arm.queries B (unlined ls))[n]? = some b ∧
        (lines t = b.lines ∨ lines t = b.lines ++ [[]]) := fun ht =>
    lines_texts (fun _ hl => arm.not_mem_line hl) ht
  -- so every cast of a metric succeeds
  have hparse : ∀ t ∈ texts (arm.queries B (unlined ls)),
      (parse B (arm.stack B).metrics t).isSome := by
    intro t ht
    obtain ⟨n, hn⟩ := List.getElem?_of_mem ht
    obtain ⟨b, hb, hlines⟩ := htext hn
    refine isSome_read log (List.Subset.refl _) fun l hl => ?_
    have hblock : ∀ l ∈ b.lines, l ∈ log.lines := fun l hl =>
      hline l (mem_flat (List.mem_of_getElem? hb) hl)
    rcases hlines with hlines | hlines <;> rw [hlines] at hl
    · exact .inr (hblock l hl)
    · rcases List.mem_append.mp hl with hl | hl
      · exact .inr (hblock l hl)
      · exact .inl (List.mem_singleton.mp hl)
  obtain ⟨parsed, hparsed⟩ := Option.isSome_iff_exists.mp (isSome_mapM hparse)
  have hrows : (arm.stack B).rows B s (unlined ls) = some (parsed.mapIdx fun n row =>
      row.putAll ((arm.stack B).sets s (unlined ls) n row)) := by
    rw [Stack.rows, hblocks, Option.bind_some, hparsed, Option.map_some]
  refine ⟨_, hrows, ?_, ?_⟩
  · rw [Stack.length_rows hblocks hrows, length_texts, hlength]
  · intro n r row hr hrow
    have hn : n < (texts (arm.queries B (unlined ls))).length := by
      rw [length_texts, hlength]
      exact (List.getElem?_eq_some_iff.mp hr).1
    obtain ⟨p, hp, hget⟩ := Stack.rows_of_blocks hblocks hrows (List.getElem?_eq_getElem hn)
    obtain rfl := Option.some_inj.mp (hget.symm.trans hrow)
    -- the row is the block's, and the block begins with the query's result
    obtain ⟨b, hb, hlines⟩ := htext (List.getElem?_eq_getElem hn)
    obtain ⟨r', hr', hhead⟩ := hresult hb
    obtain rfl := Option.some_inj.mp (hr'.symm.trans hr)
    exact shows_of_parse hmany hb hlines hp hhead

/-- The rows of a boot with several queries are as many as the driver sees begin. -/
theorem length_of_oneRowEach {s : Setting} {text : List Char} (h : OneRowEach log s text) :
    (arm.queries B text).length = log.ran.length := by
  obtain ⟨rows, hrows, hlength, -⟩ := h
  obtain ⟨ts, hts⟩ := Stack.blocks_of_rows hrows
  have hseveral := log.several
  rw [Stack.length_rows hts hrows] at hlength
  rcases Arm.blocks_cases hts with ⟨-, rfl⟩ | ⟨-, rfl, -⟩
  · rw [List.length_singleton] at hlength
    omega
  · rwa [length_texts] at hlength

/-- **duckdb-linux returns one row for each query, and duckdb-tpch does if no line with a result
is printed twice in a row.** -/
theorem oneRowEach_iff (log : Log B arm) (h : Echoed log.lines ls) (s : Setting) :
    OneRowEach log s (unlined ls) ↔ (arm = .duckdbTpch → Unrepeated (isHead B) ls) := by
  have hechoed := h.filter (isHead B)
  have hiff := h.filter_eq_iff (p := isHead B) (by rw [log.filter_lines]; exact log.differ)
  rw [log.filter_lines] at hechoed hiff
  have hcut : (cut B (lines (unlined ls))).2.map Block.head = ls.filter (isHead B) := by
    rw [lines_console h, map_head_cut]
  cases arm with
  | duckdbTpch =>
    constructor
    · intro heach _
      have hlength : (cut B (lines (unlined ls))).2.length = log.ran.length :=
        length_of_oneRowEach heach
      rw [← hiff, ← hcut, List.length_map, hlength, log.length_results]
    · intro hrepeat
      refine oneRowEach_of_heads s h ?_
      exact hcut.trans (hechoed.eq_of_length (hiff.mpr (hrepeat rfl)))
  | duckdbLinux =>
    refine iff_of_true (oneRowEach_of_heads s h ?_) fun harm => by cases harm
    refine map_head_joined ?_ log.differ
    rw [hcut]
    exact hechoed

end Console

/-! ## A boot of two queries -/

theorem int_short {l : List Char} {n : Nat} (hne : l ≠ []) (hall : l.all B.digit = true)
    (hlength : l.length ≤ 9) (hn : B.natOf l = n) : B.int l = some n := by
  rw [← hn]
  exact if_pos ⟨hne, hall, hlength.trans (by simp [Builtins.maxDigits])⟩

def firstResult : Result Builtins.exact where
  number := "01".toList
  query := 1
  ms := "5".toList
  time := (5 : Rat)
  count := "4".toList
  rows := 4
  answer := "yes".toList
  rest := []
  number_eq := int_short (by decide) (by decide) (by decide) rfl
  ms_figure := ⟨by decide, List.all_eq_true.mp (by decide)⟩
  time_eq := rfl
  count_eq := int_short (by decide) (by decide) (by decide) rfl
  answer_word := ⟨by decide, List.all_eq_true.mp (by decide)⟩
  rest_ends := fun _ h => absurd h (by simp)
  rest_line := by decide

def secondResult : Result Builtins.exact where
  number := "06".toList
  query := 6
  ms := "3".toList
  time := (3 : Rat)
  count := "1".toList
  rows := 1
  answer := "yes".toList
  rest := []
  number_eq := int_short (by decide) (by decide) (by decide) rfl
  ms_figure := ⟨by decide, List.all_eq_true.mp (by decide)⟩
  time_eq := rfl
  count_eq := int_short (by decide) (by decide) (by decide) rfl
  answer_word := ⟨by decide, List.all_eq_true.mp (by decide)⟩
  rest_ends := fun _ h => absurd h (by simp)
  rest_line := by decide

def pairTranscript : Transcript Builtins.exact where
  preamble := ["tpch: sf=1, 2 queries".toList]
  ran := [⟨firstResult, ["HTTP STATS: n=7".toList]⟩, ⟨secondResult, []⟩]
  summary := ["TPCH SUMMARY: ok=2 total=2".toList, "COMPLETE:".toList, []]

/-- The metrics read the lines, what they find or not. -/
def readsPair (metrics : List Metric) : Bool := metrics.all fun metric =>
  pairTranscript.lines.all fun l => (metric.read Builtins.exact l).isSome

theorem readsPair_append {a b : List Metric} (ha : readsPair a = true) (hb : readsPair b = true) :
    readsPair (a ++ b) = true := by
  rw [readsPair, List.all_append, Bool.and_eq_true]
  exact ⟨ha, hb⟩

theorem readsPair_overlay {a b : List Metric} (ha : readsPair a = true) (hb : readsPair b = true) :
    readsPair (overlay a b) = true := by
  refine readsPair_append (List.all_eq_true.mpr fun metric hmem => ?_) hb
  exact List.all_eq_true.mp ha metric (List.mem_of_mem_filter hmem)

/-- In two parts, which are not both kept at once. -/
theorem readsPair_of_take (n : Nat) {l : List Metric} (htake : readsPair (l.take n) = true)
    (hdrop : readsPair (l.drop n) = true) : readsPair l = true := by
  rw [← List.take_append_drop n l]
  exact readsPair_append htake hdrop

theorem pairTranscript_readable (arm : Arm) : ∀ metric ∈ (arm.stack Builtins.exact).metrics,
    ∀ l ∈ pairTranscript.lines, (metric.read Builtins.exact l).isSome := by
  intro metric hmem l hl
  have hshared : readsPair (shared Builtins.exact) = true :=
    readsPair_of_take 11 (by decide +kernel) (readsPair_of_take 11 (by decide +kernel)
      (by decide +kernel))
  have hreads : readsPair (arm.stack Builtins.exact).metrics = true := by
    cases arm with
    | duckdbTpch =>
      exact readsPair_overlay hshared (readsPair_of_take 16 (by decide +kernel)
        (readsPair_of_take 16 (by decide +kernel) (by decide +kernel)))
    | duckdbLinux =>
      exact readsPair_overlay hshared (readsPair_of_take 11 (by decide +kernel)
        (by decide +kernel))
  exact List.all_eq_true.mp (List.all_eq_true.mp hreads metric hmem) l hl

def pairLog (arm : Arm) : Log Builtins.exact arm where
  toTranscript := pairTranscript
  several := by decide
  differ := by decide
  others_line := by decide
  others_head := fun l hl =>
    headOf_eq_none ((by decide : ∀ l ∈ pairTranscript.others, l.head? ≠ some 'Q') l hl)
  provided := fun _ => by decide
  readable := pairTranscript_readable arm

/-- The first result is printed twice. -/
def echoedLines : List (List Char) :=
  ["tpch: sf=1, 2 queries".toList, "Q01: 5 ms, 4 rows, match=yes".toList,
    "Q01: 5 ms, 4 rows, match=yes".toList, "HTTP STATS: n=7".toList,
    "Q06: 3 ms, 1 rows, match=yes".toList, "TPCH SUMMARY: ok=2 total=2".toList,
    "COMPLETE:".toList, []]

theorem pairLog_echoed (arm : Arm) : Echoed (pairLog arm).lines echoedLines :=
  .once _ (.twice _ (.once _ (Echoed.refl _)))

def pairRun : Setting :=
  { launched := ⟨"on-demand", "eu-central-1a", "i-1", "run.log", false⟩
    server := none
    benchZone := none
    ip := ""
    cfg := [("query", .str "1 6"), ("sf", .str "1")] }

/-- duckdb-linux passes over the echo. -/
theorem oneRowEach_iff_echoed :
    OneRowEach (pairLog .duckdbLinux) pairRun (unlined echoedLines) :=
  (oneRowEach_iff (pairLog .duckdbLinux) (pairLog_echoed _) pairRun).mpr fun harm => by cases harm

/-- duckdb-tpch makes a row of it. -/
theorem not_oneRowEach_echoed : Echoed (pairLog .duckdbTpch).lines echoedLines ∧
    ¬ OneRowEach (pairLog .duckdbTpch) pairRun (unlined echoedLines) := by
  refine ⟨pairLog_echoed _, fun h => ?_⟩
  have hthree : (Arm.duckdbTpch.queries Builtins.exact (unlined echoedLines)).length = 3 := by
    rw [Arm.queries, lines_console (pairLog_echoed .duckdbTpch), ← List.length_map Block.head,
      map_head_cut]
    decide
  have htwo := length_of_oneRowEach h
  rw [hthree] at htwo
  exact absurd htwo (by decide)

end Tpch
