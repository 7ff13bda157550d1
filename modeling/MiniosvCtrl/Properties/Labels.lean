import MiniosvCtrl.Bench.Results
import MiniosvCtrl.Properties.Measured

/-!
# Under which query a time is filed

A row of a boot with several queries takes its query from the line that its block begins with. Is
there one such line only, or none, the row takes the query of the point, and `main` writes what the
point was asked for.

* `queryList` — the queries that a boot runs
* `Filed` — a row's query is the one that its time is of
* `Labelled` — what a console and a point have to show
* `filed_iff` — every row is filed under its query exactly then
-/

namespace Tpch

open Infra Infra.Regex Runner

variable {B : Builtins} {d : Division B} {s : Setting} {m : Marks} {text t : List Char}
  {p : Record B} {n : Nat} {arm : Arm}

/-! ## The queries of a boot -/

variable (B) in
/-- `",".join(str(cfg["query"]).split())` -/
def benchQueries (s : Setting) : List Char :=
  [','].intercalate (((s.get B "query").text.toList.splitOnP isSpace).filter (· ≠ []))

variable (B) in
/-- `[int(x) for x in queries.split(",") if x.strip()]`; `none` is a `ValueError`. -/
def queryList (s : Setting) : Option (List Int) :=
  let words := ((benchQueries B s).splitOn ',').map String.ofList
  (words.filter (strip · ≠ "")).mapM fun x =>
    match intKnob B x with
    | some (.int n) => some n
    | _ => none

/-! ## The summary -/

variable (B) in
/-- `TPCH SUMMARY: ok=... total=...` -/
def totalPieces : List Piece :=
  [.text "TPCH SUMMARY: ok=", .run B.digit, .text " total=", .keep B.digit]

variable (B) in
/-- `TPCH SUMMARY: ok=... total=... ms=...` -/
def summaryPieces : List Piece :=
  [.text "TPCH SUMMARY: ok=", .run B.digit, .text " total=", .run B.digit, .text " ms=",
    .keep B.digitOrPoint]

variable (B) in
/-- The text shows the summary of one query, and its time. -/
def Summed (t : List Char) : Prop :=
  (∃ g, First (totalPieces B) (lines t) [g] ∧ B.int g = some 1) ∧
    ∃ g, First (summaryPieces B) (lines t) [g]

variable (B) in
def queriesTotal : Metric :=
  ⟨"queries_total", .seqs [.bol, .text "TPCH SUMMARY: ok=", digits B, .text " total=",
    .group (digits B)], .int⟩

variable (B) in
def summaryMs : Metric :=
  ⟨"summary_ms", .seqs [.bol, .text "TPCH SUMMARY: ok=", digits B, .text " total=", digits B,
    .text " ms=", .group (figure B)], .float⟩

theorem queriesTotal_is : (queriesTotal B).Is (totalPieces B) where
  bound := by simp [queriesTotal, seqs, Regex.text, LineBound, digits, plus, digit_line]
  anchored := trivial
  is := fun _ => rfl
  firm := ⟨stops_blank _, trivial⟩
  one := rfl

theorem summaryMs_is : (summaryMs B).Is (summaryPieces B) where
  bound := by
    simp [summaryMs, seqs, Regex.text, LineBound, digits, figure, plus, digit_line, figure_line]
  anchored := trivial
  is := fun _ => rfl
  firm := ⟨stops_blank _, stops_blank _, trivial⟩
  one := rfl

theorem mem_metrics_summary : queriesTotal B ∈ (Arm.duckdbLinux.stack B).metrics ∧
    summaryMs B ∈ (Arm.duckdbLinux.stack B).metrics := by
  have hget : (Arm.duckdbLinux.stack B).metrics[4]? = some (queriesTotal B) ∧
      (Arm.duckdbLinux.stack B).metrics[38]? = some (summaryMs B) := ⟨rfl, rfl⟩
  exact ⟨List.mem_of_getElem? hget.1, List.mem_of_getElem? hget.2⟩

/-! ## Rows and their times -/

/-- The row's time is filed under the query that it is of: the one on the line that the time was
read from, or the only one of the boot, if the time is the summary's. -/
inductive Filed (s : Setting) (t : List Char) (row : Record B) : Prop
  | line (q f : List Char) (number : Nat) (first : First (timingPieces B) (lines t) [q, f])
      (time : Cast.float.apply B f = some (row "query_ms")) (number_eq : B.int q = some number)
      (query : row "query" = .int number)
  | summary (number : Int) (lost : Nowhere (timingPieces B) (lines t))
      (recovered : row "query_ms_from_summary" = .bool true)
      (one : queryList B s = some [number]) (query : row "query" = .int number)

variable (B) in
/-- With one query's line at most, the point asked for that query and no other; a summary that is
taken for a query's time is that of a boot of this one query. -/
structure Labelled (arm : Arm) (s : Setting) (text : List Char) : Prop where
  line : (arm.queries B text).length ≤ 1 → ∀ q f, First (timingPieces B) (lines text) [q, f] →
    ∃ number : Nat, B.int q = some number ∧ s.get B "query" = .int number
  summary : (arm.queries B text).length ≤ 1 → arm = .duckdbLinux →
    Nowhere (timingPieces B) (lines text) → Summed B text →
      ∃ number, queryList B s = some [number] ∧ s.get B "query" = .int number
  slice : 1 < (arm.queries B text).length → arm = .duckdbLinux → ∀ (n : Nat) b t,
    (arm.queries B text)[n]? = some b → (texts (arm.queries B text))[n]? = some t →
      Nowhere (timingPieces B) (lines t) → Summed B t →
        ∃ number : Nat, B.int b.number = some number ∧ queryList B s = some [(number : Int)]

/-! ## Times that were read -/

theorem reads_timing {l : List Char} {gs : Groups} (h : Reads (timingPieces B) l gs) :
    ∃ q f, gs = [q, f] := by
  exact List.length_eq_two.mp h.length

theorem nowhere_timed {ls : List (List Char)} :
    Nowhere (timedPieces B) ls ↔ Nowhere (timingPieces B) ls := by
  refine forall₂_congr fun l _ => ⟨fun h gs hgs => ?_, fun h gs hgs => ?_⟩
  · obtain ⟨q, f, rfl⟩ := reads_timing hgs
    exact h [f] (timed_iff.mpr ⟨q, hgs⟩)
  · obtain ⟨f, rfl⟩ := hgs.eq_singleton rfl
    obtain ⟨q, hq⟩ := timed_iff.mp hgs
    exact h [q, f] hq

theorem first_timed {ls : List (List Char)} {f : List Char} :
    First (timedPieces B) ls [f] ↔ ∃ q, First (timingPieces B) ls [q, f] := by
  constructor
  · rintro ⟨before, l, after, rfl, hbefore, hl⟩
    obtain ⟨q, hq⟩ := timed_iff.mp hl
    exact ⟨q, before, l, after, rfl, nowhere_timed.mp hbefore, hq⟩
  · rintro ⟨q, before, l, after, rfl, hbefore, hl⟩
    exact ⟨before, l, after, rfl, nowhere_timed.mpr hbefore, timed_iff.mpr ⟨q, hl⟩⟩

theorem First.unique {ps : List Piece} {ls : List (List Char)} {gs gs' : Groups}
    (h : First ps ls gs) (h' : First ps ls gs') : gs = gs' := by
  obtain ⟨before, l, after, rfl, hbefore, hl⟩ := h
  obtain ⟨before', l', after', heq, hbefore', hl'⟩ := h'
  induction before generalizing before' with
  | nil =>
    cases before' with
    | nil =>
      obtain rfl := (List.cons.inj heq).1
      exact hl.unique hl'
    | cons x before' =>
      obtain rfl := (List.cons.inj heq).1
      exact absurd hl (hbefore' l List.mem_cons_self gs)
  | cons x before ih =>
    cases before' with
    | nil =>
      obtain rfl := (List.cons.inj heq).1
      exact absurd hl' (hbefore x List.mem_cons_self gs')
    | cons y before' =>
      exact ih (fun l hl => hbefore l (List.mem_cons_of_mem x hl)) before'
        (List.cons.inj heq).2 fun l hl => hbefore' l (List.mem_cons_of_mem y hl)

/-- A line with a time, or none. -/
theorem timing_cases (ls : List (List Char)) :
    (∃ q f, First (timingPieces B) ls [q, f]) ∨ Nowhere (timingPieces B) ls := by
  by_cases h : ∃ gs, First (timingPieces B) ls gs
  · obtain ⟨gs, hgs⟩ := h
    obtain ⟨l, -, hl⟩ := hgs.exists_mem
    obtain ⟨q, f, rfl⟩ := reads_timing hl
    exact .inl ⟨q, f, hgs⟩
  · exact .inr (nowhere_iff.mpr fun gs hgs => h ⟨gs, hgs⟩)

/-- A time that was read is the row's. -/
theorem time_of_first (d : Division B) (m : Marks) (text : List Char) (n : Nat)
    (hs : s.Of (arm.stack B)) (hp : parse B (arm.stack B).metrics t = some p)
    {q f : List Char} (h : First (timingPieces B) (lines t) [q, f]) :
    Cast.float.apply B f = some ((arm.stack B).finish d s m text n p "query_ms") ∧
      (arm.stack B).finish d s m text n p "query_ms" ≠ .none := by
  have hfirst := first_timed.mpr ⟨q, h⟩
  have hread : Cast.float.apply B f = some (p "query_ms") := by
    rcases Arm.read_cases hp arm.mem_metrics.1 queryMs_is with ⟨g, hg, hread⟩ | ⟨hnowhere, -⟩
    · obtain rfl := (List.cons.inj (First.unique hfirst hg)).1
      exact hread
    · exact absurd hfirst (nowhere_iff.mp hnowhere _)
  have hne : p "query_ms" ≠ .none := fun h => Cast.apply_ne_none .float f (h ▸ hread)
  rw [Arm.finish_time hs (by decide), arm.recovered_eq_nil hne]
  exact ⟨hread, hne⟩

theorem summed_iff (hp : parse B (Arm.duckdbLinux.stack B).metrics t = some p) :
    Summed B t ↔ p "queries_total" = .int 1 ∧ p "summary_ms" ≠ .none := by
  obtain ⟨htotal, hsum⟩ := mem_metrics_summary (B := B)
  refine and_congr ?_ ?_
  · rcases Arm.read_cases hp htotal queriesTotal_is with ⟨g, hg, hread⟩ | ⟨hnowhere, hnone⟩
    · have hread : Cast.int.apply B g = some (p "queries_total") := hread
      rw [Cast.apply_int] at hread
      obtain ⟨c, hc, hread⟩ := Option.map_eq_some_iff.mp hread
      rw [← hread, Scalar.int.injEq]
      constructor
      · rintro ⟨g', hg', hone⟩
        obtain rfl := (List.cons.inj (First.unique hg hg')).1
        rw [hc, Option.some_inj] at hone
        rw [hone]
        rfl
      · intro hone
        exact ⟨g, hg, by rw [hc, Int.ofNat_inj.mp (hone : (c : Int) = (1 : Nat))]⟩
    · have hnone : p "queries_total" = .none := hnone
      rw [hnone]
      exact ⟨fun ⟨g, hg, _⟩ => absurd hg (nowhere_iff.mp hnowhere _), fun h => by cases h⟩
  · rcases Arm.read_cases hp hsum summaryMs_is with ⟨g, hg, hread⟩ | ⟨hnowhere, hnone⟩
    · refine ⟨fun _ hnone => ?_, fun _ => ⟨g, hg⟩⟩
      exact Cast.apply_ne_none _ g (hread.trans (congrArg some hnone))
    · exact ⟨fun ⟨g, hg⟩ => absurd hg (nowhere_iff.mp hnowhere _), fun h => absurd hnone h⟩

/-- Without a time, only duckdb-linux has one, if it is the summary's. -/
theorem time_of_nowhere (d : Division B) (m : Marks) (text : List Char) (n : Nat)
    (hs : s.Of (arm.stack B)) (hp : parse B (arm.stack B).metrics t = some p)
    (h : Nowhere (timingPieces B) (lines t)) :
    ((arm.stack B).finish d s m text n p "query_ms" ≠ .none ↔
      arm = .duckdbLinux ∧ Summed B t) ∧
    ((arm.stack B).finish d s m text n p "query_ms" ≠ .none →
      (arm.stack B).finish d s m text n p "query_ms_from_summary" = .bool true) := by
  have hnone : p "query_ms" = .none := by
    rcases Arm.read_cases hp arm.mem_metrics.1 queryMs_is with ⟨g, hg, -⟩ | ⟨-, hnone⟩
    · exact absurd hg (nowhere_iff.mp (nowhere_timed.mpr h) _)
    · exact hnone
  rw [Arm.finish_time hs (by decide), Arm.finish_time hs (by decide)]
  -- duckdb-tpch has no summary to fall back on
  cases arm with
  | duckdbTpch =>
    have htime : p.putAll (Arm.duckdbTpch.recovered p) "query_ms" = .none := hnone
    rw [htime]
    simp
  | duckdbLinux =>
    have hmissed : (p "query_ms").isNone = true := by
      rw [hnone]
      rfl
    have hsummary : (!(p "summary_ms").isNone) = true ↔ p "summary_ms" ≠ .none := by
      cases p "summary_ms" <;> simp [Scalar.isNone]
    have hrecovered : Arm.duckdbLinux.recovered p =
        if p "queries_total" = .int 1 ∧ p "summary_ms" ≠ .none then
          [("query_ms", p "summary_ms"), ("query_ms_from_summary", .bool true)] else [] := by
      show DuckdbLinux.fromSummary B p = _
      rw [DuckdbLinux.fromSummary, hmissed, Bool.true_and]
      refine if_congr ?_ rfl rfl
      rw [Bool.and_eq_true, beq_iff_eq, hsummary]
    rw [hrecovered, summed_iff hp]
    split
    · rename_i hsummed
      have htime : p.putAll [("query_ms", p "summary_ms"), ("query_ms_from_summary", .bool true)]
          "query_ms" = p "summary_ms" := rfl
      rw [htime]
      exact ⟨⟨fun _ => ⟨rfl, hsummed⟩, fun _ => hsummed.2⟩, fun _ => rfl⟩
    · rename_i hsummed
      have htime : p.putAll [] "query_ms" = .none := hnone
      rw [htime]
      exact ⟨⟨fun h => absurd rfl h, fun h => absurd h.2 hsummed⟩, fun h => absurd rfl h⟩

/-! ## Every row -/

theorem query_of_parse (hp : parse B (arm.stack B).metrics t = some p) : p "query" = .none := by
  refine parse_of_not_mem hp ?_
  rw [arm.stack_eq, map_name_metrics]
  have hshared : ∀ key ∈ (shared Builtins.exact).map Metric.name, key ≠ "query" := by
    decide
  have hnames : ∀ key ∈ arm.name.metricNames, key ≠ "query" := by
    cases arm with
    | duckdbTpch => exact forall_name_overlay hshared (by decide)
    | duckdbLinux => exact forall_name_overlay hshared (by decide)
  exact fun hmem => hnames _ hmem rfl

/-- The block of a slice, and the query that its row is filed under. -/
theorem slice_query (hs : s.Of (arm.stack B)) {ts : List (List Char)}
    (hmany : 1 < (arm.queries B text).length) (hts : ts = texts (arm.queries B text))
    (hint : ∀ b ∈ arm.queries B text, (B.int b.number).isSome) (ht : ts[n]? = some t) :
    ∃ b, ∃ number : Nat, (arm.queries B text)[n]? = some b ∧ b.Single ∧
      (lines t = b.lines ∨ lines t = b.lines ++ [[]]) ∧ B.int b.number = some number ∧
      ∀ p, (arm.stack B).finish d s m text n p "query" = .int number := by
  subst hts
  obtain ⟨b, hb, hlines⟩ := lines_texts (fun _ => Arm.not_mem_line) ht
  have hmem := List.mem_of_getElem? hb
  obtain ⟨number, hnumber⟩ := Option.isSome_iff_exists.mp (hint b hmem)
  exact ⟨b, number, hb, arm.queries_single text b hmem, hlines, hnumber,
    fun p => Arm.finish_query hs hmany hb hnumber⟩

theorem heads_timing : Heads B (timingPieces B) := by
  intro l gs h
  obtain ⟨q, f, rfl⟩ := reads_timing h
  exact ⟨q, timing_head h⟩

/-- **Every time is filed under the query that it is of exactly when a console with one query's
line at most is that of a point for this query, and no summary of one query stands in for the time
of a query of several.** -/
theorem filed_iff (hs : s.Of (arm.stack B)) {ts : List (List Char)} {rows : List (Record B)}
    (hts : (arm.stack B).blocks text = some ts)
    (hrows : (arm.stack B).recorded d s m text = some rows) :
    (∀ (n : Nat) t row, ts[n]? = some t → rows[n]? = some row → row "query_ms" ≠ .none →
      Filed s t row) ↔ Labelled B arm s text := by
  have hrow : (∀ (n : Nat) t row, ts[n]? = some t → rows[n]? = some row →
      row "query_ms" ≠ .none → Filed s t row) ↔
      ∀ (n : Nat) t p, ts[n]? = some t → parse B (arm.stack B).metrics t = some p →
        (arm.stack B).finish d s m text n p "query_ms" ≠ .none →
          Filed s t ((arm.stack B).finish d s m text n p) := by
    refine forall₂_congr fun n t => ⟨fun h p ht hp => ?_, fun h row ht hrow => ?_⟩
    · obtain ⟨p', hp', hget⟩ := Stack.recorded_of_parsed hts hrows ht
      obtain rfl := Option.some_inj.mp (hp.symm.trans hp')
      exact h _ ht hget
    · obtain ⟨p, hp, hget⟩ := Stack.recorded_of_parsed hts hrows ht
      obtain rfl := Option.some_inj.mp (hrow.symm.trans hget)
      exact h p ht hp
  rw [hrow]
  rcases Arm.blocks_cases hts with ⟨hone, rfl⟩ | ⟨hmany, htexts, hint⟩
  · -- one row, of the whole text, under the point's query
    obtain ⟨p, hp, -⟩ := Stack.recorded_of_parsed hts hrows (n := 0) rfl
    have hquery : ∀ n, (arm.stack B).finish d s m text n p "query" = s.get B "query" := fun n =>
      Arm.finish_query_one hs (query_of_parse hp) hone
    constructor
    · intro h
      refine ⟨fun _ q f hfirst => ?_, fun _ harm hlost hsummed => ?_, fun hmany => ?_⟩
      · obtain ⟨htime, hne⟩ := time_of_first d m text 0 hs hp hfirst
        cases h 0 text p rfl hp hne with
        | line q' f' number first _ number_eq query =>
          obtain rfl := (List.cons.inj (First.unique hfirst first)).1
          exact ⟨number, number_eq, (hquery 0).symm.trans query⟩
        | summary number lost => exact absurd hfirst (nowhere_iff.mp lost _)
      · have hne := (time_of_nowhere d m text 0 hs hp hlost).1.mpr ⟨harm, hsummed⟩
        cases h 0 text p rfl hp hne with
        | line q f number first => exact absurd first (nowhere_iff.mp hlost _)
        | summary number _ _ one query => exact ⟨number, one, (hquery 0).symm.trans query⟩
      · omega
    · intro h n t p' ht hp' hne
      obtain rfl := List.mem_singleton.mp (List.mem_of_getElem? ht)
      obtain rfl := Option.some_inj.mp (hp.symm.trans hp')
      rcases timing_cases (B := B) (lines t) with ⟨q, f, hfirst⟩ | hlost
      · obtain ⟨number, hnumber, hasked⟩ := h.line hone q f hfirst
        exact .line q f number hfirst (time_of_first d m t n hs hp hfirst).1 hnumber
          ((hquery n).trans hasked)
      · obtain ⟨hcases, hrecovered⟩ := time_of_nowhere d m t n hs hp hlost
        obtain ⟨harm, hsummed⟩ := hcases.mp hne
        obtain ⟨number, hlist, hasked⟩ := h.summary hone harm hlost hsummed
        exact .summary number hlost (hrecovered hne) hlist ((hquery n).trans hasked)
  · constructor
    · intro h
      refine ⟨fun hone => by omega, fun hone => by omega,
        fun _ harm n b t hb ht hlost hsummed => ?_⟩
      obtain ⟨b', number, hb', -, -, hnumber, hquery⟩ :=
        slice_query (d := d) (m := m) hs hmany htexts hint (htexts ▸ ht)
      obtain rfl := Option.some_inj.mp (hb.symm.trans hb')
      obtain ⟨p, hp, -⟩ := Stack.recorded_of_parsed hts hrows (htexts ▸ ht)
      have hne := (time_of_nowhere d m text n hs hp hlost).1.mpr ⟨harm, hsummed⟩
      cases h n t p (htexts ▸ ht) hp hne with
      | line q f number first => exact absurd first (nowhere_iff.mp hlost _)
      | summary number' _ _ one query =>
        have heq := Scalar.int.inj ((hquery p).symm.trans query)
        exact ⟨number, hnumber, heq ▸ one⟩
    · intro h n t p ht hp hne
      obtain ⟨b, number, hb, hsingle, hlines, hnumber, hquery⟩ :=
        slice_query (d := d) (m := m) hs hmany htexts hint ht
      rcases timing_cases (B := B) (lines t) with ⟨q, f, hfirst⟩ | hlost
      · -- the time is that of the line which the block begins with
        have hhead := timing_head ((first_iff hsingle hlines heads_timing).mp hfirst)
        rw [b.begins, Option.some_inj] at hhead
        subst hhead
        exact .line _ f number hfirst (time_of_first d m text n hs hp hfirst).1 hnumber
          (hquery p)
      · obtain ⟨hcases, hrecovered⟩ := time_of_nowhere d m text n hs hp hlost
        obtain ⟨harm, hsummed⟩ := hcases.mp hne
        obtain ⟨number', hnumber', hlist⟩ := h.slice hmany harm n b t hb (htexts ▸ ht) hlost hsummed
        obtain rfl := Option.some_inj.mp (hnumber.symm.trans hnumber')
        exact .summary number hlost (hrecovered hne) hlist (hquery p)

/-! ## A boot of two queries -/

/-- Queries 1 and 6, one after the other. -/
def pairSetting : Setting :=
  { launched := ⟨"spot", "eu-central-1a", "i-1", "run.log", false⟩
    server := none
    benchZone := none
    ip := ""
    cfg := [("query", .str "1 6"), ("sf", .str "1"), ("pin", .str ""), ("gro", .str ""),
      ("queues", .str ""), ("httplog", .str ""), ("netphase", .str ""), ("cpuprobe", .str ""),
      ("threads", .int 0), ("scheme", .str "https")] }

def pairMarks : Marks := ⟨"2026-10-01T00:00:00+00:00", "c6in.8xlarge", "query", .str "1 6", 1, ""⟩

def pairDivision : Division Builtins.exact := ⟨fun _ _ => .none, fun _ _ => .none⟩

theorem pairSetting_of : pairSetting.Of (Arm.duckdbLinux.stack Builtins.exact) := rfl

/-- The line of the first query is lost. -/
def lostHead : List Char := "Q06: 3 ms, 1 rows, match=yes\nCOMPLETE:\n".toList

def bothHeads : List Char := "Q01: 5 ms, 4 rows, match=yes\n".toList ++ lostHead

/-- With both lines, each time is filed under its query. -/
theorem filed_iff_both : ∃ (ts : List (List Char)) (rows : List (Record Builtins.exact)),
    (Arm.duckdbLinux.stack Builtins.exact).blocks bothHeads = some ts ∧
    (Arm.duckdbLinux.stack Builtins.exact).recorded pairDivision pairSetting pairMarks bothHeads =
      some rows ∧
    ((∀ (n : Nat) t row, ts[n]? = some t → rows[n]? = some row → row "query_ms" ≠ .none →
      Filed pairSetting t row) ↔
        Labelled Builtins.exact .duckdbLinux pairSetting bothHeads) := by
  have hlost : lostHead = _ := String.toList_ofList
  have hheads : bothHeads = _ ++ lostHead := congrArg (· ++ lostHead) String.toList_ofList
  have hsome : ((Arm.duckdbLinux.stack Builtins.exact).recorded pairDivision pairSetting pairMarks
      bothHeads).isSome = true := by
    rewrite [hheads, hlost]
    decide +kernel
  obtain ⟨rows, hrows⟩ := Option.isSome_iff_exists.mp hsome
  obtain ⟨rows', hrows', -⟩ := Option.map_eq_some_iff.mp hrows
  obtain ⟨ts, hts⟩ := Stack.blocks_of_rows hrows'
  exact ⟨ts, rows, hts, hrows, filed_iff pairSetting_of hts hrows⟩

theorem not_filed {t : List Char} {row : Record B} {label : String}
    (h : row "query" = .str label) : ¬ Filed s t row := by
  rintro (⟨q, f, number, -, -, -, query⟩ | ⟨number, -, -, -, query⟩)
  · rw [h] at query
    cases query
  · rw [h] at query
    cases query

/-- With one line, its time is filed under what the point was asked for. -/
theorem filed_lost : ∃ (ts : List (List Char)) (rows : List (Record Builtins.exact)) (t : List Char)
    (row : Record Builtins.exact),
    pairSetting.Of (Arm.duckdbLinux.stack Builtins.exact) ∧
    (Arm.duckdbLinux.stack Builtins.exact).blocks lostHead = some ts ∧
    (Arm.duckdbLinux.stack Builtins.exact).recorded pairDivision pairSetting pairMarks lostHead =
      some rows ∧
    ts[0]? = some t ∧ rows[0]? = some row ∧ row "query_ms" ≠ .none ∧
      row "query" = .str "1 6" ∧ ¬ Filed pairSetting t row := by
  have hsome : ((Arm.duckdbLinux.stack Builtins.exact).recorded pairDivision pairSetting pairMarks
      lostHead).any (fun rows => rows[0]?.any fun row =>
        row "query_ms" ≠ .none ∧ row "query" = .str "1 6") = true := by
    decide +kernel
  obtain ⟨rows, hrows, hany⟩ := (Option.any_eq_true _ _).mp hsome
  obtain ⟨row, hrow, hfields⟩ := (Option.any_eq_true _ _).mp hany
  obtain ⟨hne, hquery⟩ := of_decide_eq_true hfields
  obtain ⟨ts, t, p, hts, ht, -, -⟩ := Stack.parsed_of_recorded hrows hrow
  exact ⟨ts, rows, t, row, pairSetting_of, hts, hrows, ht, hrow, hne, hquery, not_filed hquery⟩

end Tpch
