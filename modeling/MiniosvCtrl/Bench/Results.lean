import MiniosvCtrl.Bench.Blocks
import MiniosvCtrl.Bench.Figures
import MiniosvCtrl.Bench.Recorded

/-!
# The line with a query's result

`Qnn: ms ms, rows rows, match=...`: the line that a query's block begins with, unless it was lost,
and the three figures that both arms read off it.

* `headOf_iff`, `timed_iff`, `counted_iff`, `answered_iff` — what the line is made of
* `first_iff` — a block's figures are read off its first line
* `Arm.read_cases` — a parsed row has them
-/

namespace Tpch

open Infra Infra.Regex Runner

variable {B : Builtins} {l t : List Char} {ps : List Piece} {gs : Groups}

/-! ## Lines -/

variable (B) in
/-- `Qnn: ` -/
def headPieces : List Piece := [.text "Q", .keep B.digit, .text ": "]

variable (B) in
/-- `Qnn: ms ms,` -/
def timedPieces : List Piece :=
  [.text "Q", .run B.digit, .text ": ", .keep B.digitOrPoint, .text " ms,"]

variable (B) in
/-- `Qnn: ms ms, rows rows` -/
def countedPieces : List Piece :=
  [.text "Q", .run B.digit, .text ": ", .run B.digitOrPoint, .text " ms, ", .keep B.digit,
    .text " rows"]

variable (B) in
/-- `Qnn: ms ms, rows rows, match=...` -/
def answeredPieces : List Piece :=
  [.text "Q", .run B.digit, .text ": ", .run B.digitOrPoint, .text " ms, ", .run B.digit,
    .text " rows, match=", .keep B.word]

variable (B) in
/-- `Qnn: ms ms,`, with the query. -/
def timingPieces : List Piece :=
  [.text "Q", .keep B.digit, .text ": ", .keep B.digitOrPoint, .text " ms,"]

theorem digit_of_ascii {c : Char} (h : c.toNat < 128) (hc : c.isDigit = false) :
    B.digit c = false := by
  rw [B.digit_ascii h, hc]

theorem stops_colon (s : List Char) : Stops B.digit (':' :: s) := by
  simp [Stops, digit_of_ascii (B := B) (c := ':') (by decide) (by decide)]

theorem digit_space : B.digit ' ' = false := digit_of_ascii (by decide) (by decide)

theorem stops_blank (s : List Char) : Stops B.digit (' ' :: s) := by
  simp [Stops, digit_space]

theorem stops_blank_figure (s : List Char) : Stops B.digitOrPoint (' ' :: s) := by
  simp [Stops, Builtins.digitOrPoint, digit_space]

theorem figure_line : B.digitOrPoint '\n' = false := by
  simp [Builtins.digitOrPoint, digit_line]

theorem word_line : B.word '\n' = false := by
  rw [Builtins.word, B.alnum_ascii _ (by decide)]
  decide

theorem headOf_iff {q : List Char} : headOf B l = some q ↔ Reads (headPieces B) l [q] := by
  have hfirm : Firm (headPieces B) := ⟨stops_colon _, trivial⟩
  rw [← lineGroups_iff (r := head B) (fun _ => rfl) hfirm, headOf]
  constructor
  · intro h
    obtain ⟨gs, hgs, hq⟩ := Option.map_eq_some_iff.mp h
    obtain ⟨g, rfl⟩ := ((lineGroups_iff (fun _ => rfl) hfirm).mp hgs).eq_singleton rfl
    rw [hgs, ← hq]
    rfl
  · intro h
    rw [h]
    rfl

/-- A line with these pieces begins a query. -/
def Heads (B : Builtins) (ps : List Piece) : Prop :=
  ∀ l gs, Reads ps l gs → ∃ q, headOf B l = some q

theorem timing_head {q f : List Char} (h : Reads (timingPieces B) l [q, f]) :
    headOf B l = some q := by
  obtain ⟨a, rfl, q', b, gs', rfl, hq', hgs, c, rfl, -⟩ := h
  obtain rfl := (List.cons.inj hgs).1
  exact headOf_iff.mpr ⟨_, rfl, _, _, [], rfl, hq', rfl, _, rfl, rfl⟩

theorem timed_iff {f : List Char} :
    Reads (timedPieces B) l [f] ↔ ∃ q, Reads (timingPieces B) l [q, f] := by
  constructor
  · rintro ⟨a, rfl, q, b, rfl, hq, hrest⟩
    exact ⟨q, _, rfl, q, b, [f], rfl, hq, rfl, hrest⟩
  · rintro ⟨q, a, rfl, q', b, gs', rfl, hq', hgs, hrest⟩
    obtain rfl := (List.cons.inj hgs).2
    exact ⟨_, rfl, _, _, rfl, hq', hrest⟩

theorem heads_timed : Heads B (timedPieces B) := by
  rintro l gs ⟨a, rfl, q, b, rfl, hq, c, rfl, -⟩
  exact ⟨q, headOf_iff.mpr ⟨_, rfl, _, _, [], rfl, hq, rfl, _, rfl, rfl⟩⟩

theorem heads_counted : Heads B (countedPieces B) := by
  rintro l gs ⟨a, rfl, q, b, rfl, hq, c, rfl, -⟩
  exact ⟨q, headOf_iff.mpr ⟨_, rfl, _, _, [], rfl, hq, rfl, _, rfl, rfl⟩⟩

theorem heads_answered : Heads B (answeredPieces B) := by
  rintro l gs ⟨a, rfl, q, b, rfl, hq, c, rfl, -⟩
  exact ⟨q, headOf_iff.mpr ⟨_, rfl, _, _, [], rfl, hq, rfl, _, rfl, rfl⟩⟩

/-! ## The first line of a block -/

theorem headOf_nil : headOf B [] = none := rfl

theorem headOf_eq_none (h : l.head? ≠ some 'Q') : headOf B l = none := by
  refine Option.eq_none_iff_forall_ne_some.mpr fun q hq => ?_
  obtain ⟨a, rfl, -⟩ := headOf_iff.mp hq
  exact h rfl

/-- What begins a query is read off a block's first line. -/
theorem first_iff {b : Block B} (hb : b.Single)
    (ht : lines t = b.lines ∨ lines t = b.lines ++ [[]]) (hps : Heads B ps) :
    First ps (lines t) gs ↔ Reads ps b.head gs := by
  obtain ⟨rest, hlines, hrest⟩ : ∃ rest, lines t = b.head :: rest ∧
      ∀ l ∈ rest, headOf B l = none ∨ l = b.head := by
    rcases ht with ht | ht
    · exact ⟨b.body, ht, hb⟩
    · refine ⟨b.body ++ [[]], ht.trans List.cons_append, fun l hl => ?_⟩
      rcases List.mem_append.mp hl with hl | hl
      · exact hb l hl
      · rw [List.mem_singleton.mp hl]
        exact .inl headOf_nil
  rw [hlines]
  constructor
  · rintro ⟨before, l, after, heq, hbefore, hl⟩
    cases before with
    | nil =>
      obtain rfl := (List.cons.inj heq).1
      exact hl
    | cons x before =>
      obtain ⟨hx, heq⟩ := List.cons.inj heq
      have hmem : l ∈ rest := heq ▸ List.mem_append_right _ List.mem_cons_self
      obtain ⟨q, hq⟩ := hps l gs hl
      rcases hrest l hmem with hnone | rfl
      · rw [hnone] at hq
        cases hq
      · exact absurd hl (hbefore b.head (hx ▸ List.mem_cons_self) gs)
  · intro h
    exact ⟨[], b.head, rest, rfl, fun _ h => absurd h List.not_mem_nil, h⟩

theorem nowhere_iff {ls : List (List Char)} : Nowhere ps ls ↔ ∀ gs, ¬ First ps ls gs := by
  constructor
  · rintro h gs hfirst
    obtain ⟨l, hl, hreads⟩ := hfirst.exists_mem
    exact h l hl gs hreads
  · intro h
    induction ls with
    | nil => exact fun _ hl => absurd hl List.not_mem_nil
    | cons l ls ih =>
      have hhere : ∀ gs, ¬ Reads ps l gs := fun gs hgs =>
        h gs ⟨[], l, ls, rfl, fun _ h => absurd h List.not_mem_nil, hgs⟩
      refine List.forall_mem_cons.mpr ⟨hhere, ih fun gs hfirst => ?_⟩
      obtain ⟨before, l', after, rfl, hbefore, hl'⟩ := hfirst
      exact h gs ⟨l :: before, l', after, rfl, List.forall_mem_cons.mpr ⟨hhere, hbefore⟩, hl'⟩

/-! ## Metrics -/

variable (B) in
def queryMs : Metric := ⟨"query_ms", .seqs [line B, .group (figure B), .text " ms,"], .float⟩

variable (B) in
def rowCount : Metric :=
  ⟨"rows", .seqs [line B, figure B, .text " ms, ", .group (digits B), .text " rows"], .int⟩

variable (B) in
def answer : Metric :=
  ⟨"match", .seqs [line B, figure B, .text " ms, ", digits B, .text " rows, match=",
    .group (letters B)], .str⟩

theorem line_lineBound : (line B).LineBound := by
  simp [line, seqs, Regex.text, LineBound, digits, plus, digit_line]

theorem queryMs_is : (queryMs B).Is (timedPieces B) where
  bound := by simp [queryMs, seqs, Regex.text, LineBound, figure, plus, figure_line, line_lineBound]
  anchored := trivial
  is := fun _ => rfl
  firm := ⟨stops_colon _, stops_blank_figure _, trivial⟩
  one := rfl

theorem rowCount_is : (rowCount B).Is (countedPieces B) where
  bound := by
    simp [rowCount, seqs, Regex.text, LineBound, figure, digits, plus, figure_line, digit_line,
      line_lineBound]
  anchored := trivial
  is := fun _ => rfl
  firm := ⟨stops_colon _, stops_blank_figure _, stops_blank _, trivial⟩
  one := rfl

theorem answer_is : (answer B).Is (answeredPieces B) where
  bound := by
    simp [answer, seqs, Regex.text, LineBound, figure, digits, letters, plus, figure_line,
      digit_line, word_line, line_lineBound]
  anchored := trivial
  is := fun _ => rfl
  firm := ⟨stops_colon _, stops_blank_figure _, stops_blank _, trivial⟩
  one := rfl

/-! ## Rows -/

def Arm.name : Arm → BenchName
  | duckdbTpch => .duckdbTpch
  | duckdbLinux => .duckdbLinux

theorem Arm.stack_eq (arm : Arm) : arm.stack B = arm.name.stack B := by
  cases arm <;> rfl

/-- What a table has of both has the name once. -/
theorem nodup_overlay {a b : List Metric} (ha : (a.map Metric.name).Nodup)
    (hb : (b.map Metric.name).Nodup) : ((overlay a b).map Metric.name).Nodup := by
  rw [map_name_overlay]
  refine List.Nodup.append (ha.filter _) hb fun name hleft hright => ?_
  exact of_decide_eq_true (List.mem_filter.mp hleft).2 hright

theorem nodup_shared : ((shared Builtins.exact).map Metric.name).Nodup := by decide

theorem Arm.nodup_metrics (arm : Arm) : ((arm.stack B).metrics.map Metric.name).Nodup := by
  rw [arm.stack_eq, map_name_metrics]
  cases arm with
  | duckdbTpch => exact nodup_overlay nodup_shared (by decide)
  | duckdbLinux => exact nodup_overlay nodup_shared (by decide)

/-- The metrics of the result's line are those of either arm. -/
theorem Arm.mem_metrics (arm : Arm) : queryMs B ∈ (arm.stack B).metrics ∧
    rowCount B ∈ (arm.stack B).metrics ∧ answer B ∈ (arm.stack B).metrics := by
  have hget : (arm.stack B).metrics[0]? = some (queryMs B) ∧
      (arm.stack B).metrics[1]? = some (rowCount B) ∧
      (arm.stack B).metrics[2]? = some (answer B) := by
    cases arm <;> exact ⟨rfl, rfl, rfl⟩
  exact ⟨List.mem_of_getElem? hget.1, List.mem_of_getElem? hget.2.1,
    List.mem_of_getElem? hget.2.2⟩

theorem Arm.read (arm : Arm) {p : Record B} (hp : parse B (arm.stack B).metrics t = some p)
    {metric : Metric} (hmem : metric ∈ (arm.stack B).metrics) :
    metric.read B t = some (p metric.name) :=
  read_of_parse arm.nodup_metrics hp hmem

/-- What a parsed row has of a metric. -/
theorem Arm.read_cases {arm : Arm} {p : Record B}
    (hp : parse B (arm.stack B).metrics t = some p) {metric : Metric}
    (hmem : metric ∈ (arm.stack B).metrics) {ps : List Piece} (his : metric.Is ps) :
    (∃ g, First ps (lines t) [g] ∧ metric.cast.apply B g = some (p metric.name)) ∨
      (Nowhere ps (lines t) ∧ p metric.name = .none) := by
  have hread := arm.read hp hmem
  rcases his.read_cases (B := B) t with ⟨g, hfirst, hg⟩ | ⟨hnowhere, hg⟩
  · exact .inl ⟨g, hfirst, hg ▸ hread⟩
  · exact .inr ⟨hnowhere, Option.some_inj.mp (hread.symm.trans hg)⟩

/-! ## What the drivers set -/

section Sets

variable {arm : Arm} {d : Division B} {s : Setting} {m : Marks} {text : List Char} {p : Record B}
  {n : Nat}

/-- What a driver knows itself, and what duckdb-linux reads of the boot. -/
def Arm.own : Arm → List Name
  | duckdbTpch => ["complete", "crashed", "log", "interrupted"]
  | duckdbLinux => ["market", "zone", "complete", "instance_id", "log", "interrupted", "nic_gro",
      "nic_queues", "nic_tune_failed"]

/-- A time that is not lost with its line. -/
def Arm.recovered (arm : Arm) (p : Record B) : List (Name × Scalar B) :=
  match arm with
  | duckdbTpch => []
  | duckdbLinux => DuckdbLinux.fromSummary B p

theorem map_fst_nic {key : Name} (h : key ∈ (DuckdbLinux.runwide B text p).map Prod.fst) :
    key ∈ ["nic_gro", "nic_queues", "nic_tune_failed"] := by
  obtain ⟨kv, hkv, rfl⟩ := List.mem_map.mp h
  unfold DuckdbLinux.runwide at hkv
  split at hkv
  · exact absurd hkv List.not_mem_nil
  · obtain ⟨k, hk, hsome⟩ := List.mem_filterMap.mp hkv
    split at hsome
    · obtain rfl := Option.some_inj.mp hsome
      exact hk
    · cases hsome

/-- Of the other fields, a driver sets the query and the time. -/
theorem Arm.sets_field {key : Name} (hkey : key ∉ arm.own) :
    p.putAll ((arm.stack B).sets s text n p) key =
      p.putAll (Tpch.query B (arm.heads B text) n ++ arm.recovered p) key := by
  cases arm with
  | duckdbTpch =>
    show p.putAll (_ ++ Tpch.query B (Tpch.heads B text) n) key =
      p.putAll (Tpch.query B (Tpch.heads B text) n ++ []) key
    rw [putAll_append, List.append_nil]
    exact putAll_congr (putAll_of_not_mem hkey p) _
  | duckdbLinux =>
    have hown : key ∉ ["market", "zone", "complete", "instance_id", "log", "interrupted"] :=
      fun h => hkey (List.mem_append_left ["nic_gro", "nic_queues", "nic_tune_failed"] h)
    have hrunwide : key ∉ (if (DuckdbLinux.heads B text).length ≤ 1 then []
        else DuckdbLinux.runwide B text p).map Prod.fst := by
      split
      · exact List.not_mem_nil
      · exact fun h => hkey (List.mem_append_right
          ["market", "zone", "complete", "instance_id", "log", "interrupted"] (map_fst_nic h))
    show p.putAll (_ ++ Tpch.query B (DuckdbLinux.heads B text) n ++ DuckdbLinux.fromSummary B p ++ _)
      key = p.putAll (Tpch.query B (DuckdbLinux.heads B text) n ++ DuckdbLinux.fromSummary B p) key
    rw [putAll_append, putAll_of_not_mem hrunwide, List.append_assoc, putAll_append]
    exact putAll_congr (putAll_of_not_mem hown p) _

theorem map_fst_recovered :
    ∀ key ∈ (arm.recovered p).map Prod.fst, key ∈ ["query_ms", "query_ms_from_summary"] := by
  intro key hkey
  cases arm with
  | duckdbTpch => exact absurd hkey List.not_mem_nil
  | duckdbLinux =>
    have hkey : key ∈ (DuckdbLinux.fromSummary B p).map Prod.fst := hkey
    unfold DuckdbLinux.fromSummary at hkey
    split at hkey
    · exact hkey
    · exact absurd hkey List.not_mem_nil

theorem map_fst_queryFields :
    ∀ key ∈ (Tpch.query B (arm.heads B text) n).map Prod.fst, key ∈ ["query", "query_seq"] := by
  intro key hkey
  unfold Tpch.query at hkey
  split at hkey
  · exact absurd hkey List.not_mem_nil
  · exact hkey

/-- The figures stand in the row as they were parsed. -/
theorem Arm.sets_parsed {key : Name} (hkey : key ∈ ["rows", "match"]) :
    p.putAll ((arm.stack B).sets s text n p) key = p key := by
  have hall : ∀ key ∈ ["rows", "match"], key ∉ arm.own ∧
      key ∉ ["query", "query_seq"] ∧ key ∉ ["query_ms", "query_ms_from_summary"] := by
    cases arm <;> decide
  obtain ⟨hown, hquery, hrecovered⟩ := hall key hkey
  rw [Arm.sets_field hown, putAll_append,
    putAll_of_not_mem fun h => hrecovered (map_fst_recovered key h),
    putAll_of_not_mem fun h => hquery (map_fst_queryFields key h)]

/-- The time, and whether it is the summary's. -/
theorem Arm.sets_time {key : Name} (hkey : key ∈ ["query_ms", "query_ms_from_summary"]) :
    p.putAll ((arm.stack B).sets s text n p) key = p.putAll (arm.recovered p) key := by
  have hall : ∀ key ∈ ["query_ms", "query_ms_from_summary"], key ∉ arm.own ∧
      key ∉ ["query", "query_seq"] := by
    cases arm <;> decide
  obtain ⟨hown, hquery⟩ := hall key hkey
  rw [Arm.sets_field hown, putAll_append]
  exact putAll_congr (putAll_of_not_mem (fun h => hquery (map_fst_queryFields key h)) p) _

/-- A time that was read stays. -/
theorem Arm.recovered_eq_nil (arm : Arm) (hp : p "query_ms" ≠ .none) : arm.recovered p = [] := by
  cases arm with
  | duckdbTpch => rfl
  | duckdbLinux =>
    have hnone : (p "query_ms").isNone = false := by
      cases h : p "query_ms" <;> simp_all [Scalar.isNone]
    show DuckdbLinux.fromSummary B p = []
    rw [DuckdbLinux.fromSummary, hnone]
    rfl

/-- `main` leaves the time alone. -/
theorem Arm.finish_time (hs : s.Of (arm.stack B)) {key : Name}
    (hkey : key ∈ ["query_ms", "query_ms_from_summary"]) :
    (arm.stack B).finish d s m text n p key = p.putAll (arm.recovered p) key := by
  have hall : ∀ key ∈ ["query_ms", "query_ms_from_summary"],
      key ∉ derivedNames ∧ key ∉ markNames ∧ key ∉ arm.name.knobNames := by
    cases arm <;> decide
  obtain ⟨hderived, hmark, hknob⟩ := hall key hkey
  rw [Stack.finish, record_of_not_mem hderived, merge_of_not_mem hmark, Arm.sets_time hkey]
  rw [hs, arm.stack_eq, map_name_knobs]
  exact hknob

/-- One query at most: the row is filed under the point's. -/
theorem Arm.finish_query_one (hs : s.Of (arm.stack B)) (hp : p "query" = .none)
    (h : (arm.queries B text).length ≤ 1) :
    (arm.stack B).finish d s m text n p "query" = s.get B "query" := by
  have hnone : p.putAll ((arm.stack B).sets s text n p) "query" = .none := by
    rw [Arm.sets_field (by cases arm <;> decide), putAll_append,
      putAll_of_not_mem fun h => absurd (map_fst_recovered _ h) (by decide), Tpch.query,
      arm.heads_eq, length_begins, if_pos h]
    exact hp
  have hknob : "query" ∈ (arm.stack B).bench.knobs.map Knob.name := by
    rw [arm.stack_eq, map_name_knobs]
    cases arm <;> decide
  rw [Stack.finish, record_of_not_mem (by decide), merge_query hs hknob, hnone, if_pos rfl]

/-- Several: under the one that its block begins with, and in turn. -/
theorem Arm.sets_query {b : Block B} {number : Nat} (h : 1 < (arm.queries B text).length)
    (hb : (arm.queries B text)[n]? = some b) (hnumber : B.int b.number = some number) :
    p.putAll ((arm.stack B).sets s text n p) "query" = .int number ∧
      p.putAll ((arm.stack B).sets s text n p) "query_seq" = .int (n + 1) := by
  have hfields : Tpch.query B (arm.heads B text) n =
      [("query", .int number), ("query_seq", .int (n + 1))] := by
    have hhead : ((arm.heads B text)[n]?.bind fun h => B.int h.2) = some number := by
      have hget := getElem?_begins (arm.queries B text) n
      rw [hb, Option.map_some] at hget
      obtain ⟨f, hf, hf2⟩ := Option.map_eq_some_iff.mp hget
      rw [arm.heads_eq, hf, Option.bind_some, hf2, hnumber]
    rw [Tpch.query, hhead, arm.heads_eq, length_begins, if_neg (by omega), Option.getD_some]
  have hdisjoint : ∀ key ∈ ["query", "query_seq"],
      key ∉ ["query_ms", "query_ms_from_summary"] ∧ key ∉ arm.own := by
    cases arm <;> decide
  have hput : ∀ kv ∈ Tpch.query B (arm.heads B text) n,
      p.putAll ((arm.stack B).sets s text n p) kv.1 = kv.2 := by
    intro kv hkv
    have hkey := hdisjoint kv.1 (map_fst_queryFields kv.1 (List.mem_map_of_mem hkv))
    rw [Arm.sets_field hkey.2, putAll_append,
      putAll_of_not_mem fun hmem => hkey.1 (map_fst_recovered kv.1 hmem), hfields]
    refine putAll_of_mem ?_ (hfields ▸ hkv) p
    show ["query", "query_seq"].Nodup
    decide
  constructor
  · exact hput ("query", .int number) (by rw [hfields]; exact List.mem_cons_self)
  · exact hput ("query_seq", .int (n + 1))
      (by rw [hfields]; exact List.mem_cons_of_mem _ List.mem_cons_self)

/-- `main` leaves the query of a block alone. -/
theorem Arm.finish_query (hs : s.Of (arm.stack B)) {b : Block B} {number : Nat}
    (h : 1 < (arm.queries B text).length) (hb : (arm.queries B text)[n]? = some b)
    (hnumber : B.int b.number = some number) :
    (arm.stack B).finish d s m text n p "query" = .int number := by
  have hknob : "query" ∈ (arm.stack B).bench.knobs.map Knob.name := by
    rw [arm.stack_eq, map_name_knobs]
    cases arm <;> decide
  rw [Stack.finish, record_of_not_mem (by decide), merge_query hs hknob,
    (Arm.sets_query h hb hnumber).1, if_neg (by simp)]

end Sets

end Tpch
