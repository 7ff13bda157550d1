import MiniosvCtrl.Bench.Duckdb
import MiniosvCtrl.Infra.Lists

/-!
# The row that is recorded

`main` adds to every row of a run what the run was launched for, with all knobs (a row's own query
wins over the point's), judges the row, and derives a few figures from it.

* `BenchName` — the benches
* `Setting.merge` — `r |= {...}`
* `Stack.record` — the row in the CSV
* `putAll_of_not_mem`, `putAll_of_mem` — what becomes of a field
-/

namespace Runner

open Infra

variable (B : Builtins)

inductive BenchName
  | smoltcpS3 | linuxS3 | anyblob | linuxHttp | duckdbTpch | duckdbLinux

def BenchName.stack : BenchName → Stack B
  | smoltcpS3 => SmoltcpS3.stack B
  | linuxS3 => LinuxS3.stack B
  | anyblob => AnyBlob.stack B
  | linuxHttp => WrkHttp.stack B
  | duckdbTpch => DuckdbTpch.stack B
  | duckdbLinux => DuckdbLinux.stack B

/-- The names of a bench's knobs. -/
def BenchName.knobNames : BenchName → List Name
  | smoltcpS3 => ["workers", "conns", "block", "rxdesc", "blocks", "redial", "server"]
  | linuxS3 => ["workers", "conns", "block", "blocks", "mode"]
  | anyblob => ["workers", "conns", "block", "blocks", "chunk", "pin", "scheme", "url", "cpus",
      "mode", "server"]
  | linuxHttp => ["threads", "conns", "conns_per_cpu", "duration", "block", "close", "cpus",
      "mode", "server"]
  | duckdbTpch => ["query", "sf", "threads", "memlimit", "httplog", "cpuprobe", "profile",
      "workers", "conns", "tls"]
  | duckdbLinux => ["query", "sf", "pin", "gro", "queues", "httplog", "netphase", "cpuprobe",
      "threads", "scheme"]

theorem map_name_knobs (name : BenchName) :
    (name.stack B).bench.knobs.map Knob.name = name.knobNames := by
  cases name <;> rfl

/-- The fields that a bench reads on the console. -/
def BenchName.metricNames (name : BenchName) : List Name :=
  (name.stack Builtins.exact).metrics.map Metric.name

theorem map_name_overlay (a b : List Metric) :
    (overlay a b).map Metric.name =
      (a.map Metric.name).filter (· ∉ b.map Metric.name) ++ b.map Metric.name := by
  rw [overlay, List.map_append, List.filter_map]
  rfl

theorem forall_name_overlay {a b : List Metric} {P : Name → Prop}
    (ha : ∀ key ∈ a.map Metric.name, P key) (hb : ∀ key ∈ b.map Metric.name, P key) :
    ∀ key ∈ (overlay a b).map Metric.name, P key := by
  rw [map_name_overlay]
  intro key hkey
  rcases List.mem_append.mp hkey with h | h
  · exact ha key (List.mem_of_mem_filter h)
  · exact hb key h

/-- They do not depend on the tables of characters. -/
theorem map_name_metrics (name : BenchName) :
    (name.stack B).metrics.map Metric.name = name.metricNames := by
  have hcommon : (commonMetrics B).map Metric.name =
      (commonMetrics Builtins.exact).map Metric.name := rfl
  have hlinux : (LinuxS3.metrics B).map Metric.name =
      (LinuxS3.metrics Builtins.exact).map Metric.name := by
    rw [LinuxS3.metrics, LinuxS3.metrics, map_name_overlay, map_name_overlay, hcommon]
    rfl
  have hshared : (Tpch.shared B).map Metric.name =
      (Tpch.shared Builtins.exact).map Metric.name := rfl
  cases name with
  | smoltcpS3 =>
    show (SmoltcpS3.metrics B).map Metric.name =
      (SmoltcpS3.metrics Builtins.exact).map Metric.name
    rw [SmoltcpS3.metrics, SmoltcpS3.metrics, map_name_overlay, map_name_overlay, hcommon]
    rfl
  | linuxS3 => exact hlinux
  | anyblob =>
    show (AnyBlob.metrics B).map Metric.name = (AnyBlob.metrics Builtins.exact).map Metric.name
    rw [AnyBlob.metrics, AnyBlob.metrics, map_name_overlay, map_name_overlay, hlinux]
    rfl
  | linuxHttp => rfl
  | duckdbTpch =>
    show (DuckdbTpch.metrics B).map Metric.name =
      (DuckdbTpch.metrics Builtins.exact).map Metric.name
    rw [DuckdbTpch.metrics, DuckdbTpch.metrics, map_name_overlay, map_name_overlay, hshared]
    rfl
  | duckdbLinux =>
    show (DuckdbLinux.metrics B).map Metric.name =
      (DuckdbLinux.metrics Builtins.exact).map Metric.name
    rw [DuckdbLinux.metrics, DuckdbLinux.metrics, map_name_overlay, map_name_overlay, hshared]
    rfl

/-- What `main` knows of a run beside its knobs. -/
structure Marks where
  timestamp : String
  inst : String
  axis : Name
  value : Value
  rep : Nat
  note : String

def Marks.fields (m : Marks) : List (Name × Scalar B) :=
  [("timestamp", .str m.timestamp), ("instance", .str m.inst), ("axis", .str m.axis),
    ("axis_value", m.value.scalar B), ("rep", .int m.rep), ("note", .str m.note)]

/-- The divisions, on floats. -/
structure Division where
  /-- `round(bytes / 1460 / elapsed_s)` -/
  packets : Scalar B → Scalar B → Scalar B
  /-- `round(gbps / workers_actual, 4)` -/
  share : Scalar B → Scalar B → Scalar B

/-- `SETUP_BASELINE_US` -/
def setupBaseline : Int := 1200

/-- `v > n`, of an int. -/
def gt (v : Scalar B) (n : Int) : Bool :=
  match v with
  | .int m => decide (n < m)
  | _ => false

variable {B}

/-- `r |= {...}` -/
def Setting.merge (s : Setting) (m : Marks) (row : Record B) : Record B :=
  Record.putAll row (m.fields B ++
    (s.cfg.filter fun kv => kv.1 ≠ "query" ∨ row "query" = .none).map fun kv =>
      (kv.1, kv.2.scalar B))

/-- The figures that `main` derives. -/
def Division.fields (d : Division B) (r : Record B) : List (Name × Scalar B) :=
  (if (r "bytes").truthy && (r "elapsed_s").truthy then
    [("est_rx_pps", d.packets (r "bytes") (r "elapsed_s"))] else []) ++
  (if (r "gbps").truthy && (r "workers_actual").truthy then
    [("gbps_per_worker", d.share (r "gbps") (r "workers_actual"))] else []) ++
  (if (r "setup_us_p50").truthy then
    [("setup_degraded", .bool (gt B (r "setup_us_p50") (10 * setupBaseline)))] else [])

namespace Stack

variable (k : Stack B) (d : Division B) (s : Setting) (m : Marks)

/-- The row in the CSV. -/
def record (row : Record B) : Record B :=
  let r := s.merge m row
  let r := r.put "valid" (.bool (k.valid s r))
  r.putAll (d.fields r)

/-- What is parsed from each of a run's texts. -/
def parsed (text : List Char) : Option (List (Record B)) :=
  (k.blocks text).bind fun blocks => blocks.mapM (parse B k.metrics)

/-- A row, from what is parsed to what is recorded. -/
def finish (text : List Char) (n : Nat) (p : Record B) : Record B :=
  k.record d s m (p.putAll (k.sets s text n p))

/-- The rows that a run with this console adds to the CSV. -/
def recorded (text : List Char) : Option (List (Record B)) :=
  (k.rows B s text).map fun rows => rows.map (k.record d s m)

/-- They are what is parsed, row by row, and finished. -/
theorem recorded_eq (text : List Char) :
    k.recorded d s m text = (k.parsed text).map (List.mapIdx (k.finish d s m text)) := by
  rw [recorded, rows, parsed]
  cases k.blocks text with
  | none => rfl
  | some blocks =>
    rw [Option.bind_some, Option.bind_some, Option.map_map]
    congr 1
    funext l
    refine List.ext_getElem? fun n => ?_
    rw [Function.comp_apply, List.getElem?_map, List.getElem?_mapIdx, List.getElem?_mapIdx,
      Option.map_map]
    rfl

variable {k d s m}

/-- A row that is recorded was parsed from a text of its own. -/
theorem parsed_of_recorded {text : List Char} {rows : List (Record B)}
    (h : k.recorded d s m text = some rows) {n : Nat} {row : Record B} (hrow : rows[n]? = some row) :
    ∃ blocks t p, k.blocks text = some blocks ∧ blocks[n]? = some t ∧
      parse B k.metrics t = some p ∧ row = k.finish d s m text n p := by
  rw [recorded_eq] at h
  obtain ⟨parsed, hparsed, rfl⟩ := Option.map_eq_some_iff.mp h
  obtain ⟨blocks, hblocks, hmap⟩ := Option.bind_eq_some_iff.mp hparsed
  rw [List.getElem?_mapIdx] at hrow
  obtain ⟨p, hp, rfl⟩ := Option.map_eq_some_iff.mp hrow
  have hall := (mapM_eq_some_iff (f := parse B k.metrics)).mp hmap
  have hget := congrArg (·[n]?) hall
  simp only [List.getElem?_map, hp, Option.map_some] at hget
  obtain ⟨t, ht, hparse⟩ := Option.map_eq_some_iff.mp hget
  exact ⟨blocks, t, p, hblocks, ht, hparse, rfl⟩

/-- Rows are made of blocks. -/
theorem blocks_of_rows {text : List Char} {rows : List (Record B)}
    (h : k.rows B s text = some rows) : ∃ blocks, k.blocks text = some blocks := by
  obtain ⟨blocks, hblocks, -⟩ := Option.bind_eq_some_iff.mp h
  exact ⟨blocks, hblocks⟩

/-- Every text has its row. -/
theorem rows_of_blocks {text : List Char} {blocks : List (List Char)} {rows : List (Record B)}
    (hblocks : k.blocks text = some blocks) (h : k.rows B s text = some rows) {n : Nat}
    {t : List Char} (ht : blocks[n]? = some t) :
    ∃ p, parse B k.metrics t = some p ∧ rows[n]? = some (p.putAll (k.sets s text n p)) := by
  rw [Stack.rows, hblocks, Option.bind_some] at h
  obtain ⟨parsed, hparsed, rfl⟩ := Option.map_eq_some_iff.mp h
  have hget := congrArg (·[n]?) (mapM_eq_some_iff.mp hparsed)
  simp only [List.getElem?_map, ht, Option.map_some] at hget
  obtain ⟨p, hp, hparse⟩ := Option.map_eq_some_iff.mp hget.symm
  exact ⟨p, hparse.symm, by rw [List.getElem?_mapIdx, hp]; rfl⟩

theorem length_rows {text : List Char} {blocks : List (List Char)} {rows : List (Record B)}
    (hblocks : k.blocks text = some blocks) (h : k.rows B s text = some rows) :
    rows.length = blocks.length := by
  rw [Stack.rows, hblocks, Option.bind_some] at h
  obtain ⟨parsed, hparsed, rfl⟩ := Option.map_eq_some_iff.mp h
  rw [List.length_mapIdx, length_of_mapM hparsed]

/-- So it has in the CSV. -/
theorem recorded_of_parsed {text : List Char} {blocks : List (List Char)} {rows : List (Record B)}
    (hblocks : k.blocks text = some blocks) (h : k.recorded d s m text = some rows) {n : Nat}
    {t : List Char} (ht : blocks[n]? = some t) :
    ∃ p, parse B k.metrics t = some p ∧ rows[n]? = some (k.finish d s m text n p) := by
  obtain ⟨rows, hrows, rfl⟩ := Option.map_eq_some_iff.mp h
  obtain ⟨p, hp, hrow⟩ := rows_of_blocks hblocks hrows ht
  exact ⟨p, hp, by rw [List.getElem?_map, hrow]; rfl⟩

end Stack

theorem map_fst_of_mapM {metrics : List Metric} {text : List Char} {l : List (Name × Scalar B)}
    (h : (metrics.mapM fun m : Metric => (m.read B text).map fun v => (m.name, v)) = some l) :
    l.map Prod.fst = metrics.map Metric.name := by
  rw [mapM_eq_some_iff] at h
  induction metrics generalizing l with
  | nil =>
    obtain rfl : l = [] := List.map_eq_nil_iff.mp h.symm
    rfl
  | cons metric metrics ih =>
    cases l with
    | nil => cases h
    | cons kv l =>
      rw [List.map_cons, List.map_cons, List.cons.injEq] at h
      obtain ⟨v, -, rfl⟩ := Option.map_eq_some_iff.mp h.1
      rw [List.map_cons, List.map_cons, ih h.2]

/-- What `parse` returns is what each metric reads. -/
theorem read_of_parse {metrics : List Metric} (hn : (metrics.map Metric.name).Nodup)
    {text : List Char} {p : Record B} (h : parse B metrics text = some p) {metric : Metric}
    (hmem : metric ∈ metrics) : metric.read B text = some (p metric.name) := by
  obtain ⟨l, hl, rfl⟩ := Option.map_eq_some_iff.mp h
  obtain ⟨kv, hkv, hread⟩ := exists_of_mem_of_mapM hl hmem
  obtain ⟨v, hv, rfl⟩ := Option.map_eq_some_iff.mp hread
  rw [hv, ofFields, lookup_of_mem (map_fst_of_mapM hl ▸ hn) hkv]
  rfl

theorem isSome_parse {metrics : List Metric} {text : List Char}
    (h : ∀ metric ∈ metrics, (metric.read B text).isSome) : (parse B metrics text).isSome := by
  rw [parse, Option.isSome_map]
  refine isSome_mapM fun metric hmem => ?_
  rw [Option.isSome_map]
  exact h metric hmem

theorem parse_of_not_mem {metrics : List Metric} {text : List Char} {p : Record B}
    (h : parse B metrics text = some p) {key : Name} (hkey : key ∉ metrics.map Metric.name) :
    p key = .none := by
  obtain ⟨l, hl, rfl⟩ := Option.map_eq_some_iff.mp h
  rw [ofFields, lookup_of_not_mem (map_fst_of_mapM hl ▸ hkey)]
  rfl

/-! ## Fields -/

/-- The names of the fields that `main` derives. -/
def derivedNames : List Name := ["valid", "est_rx_pps", "gbps_per_worker", "setup_degraded"]

/-- The names of the fields of `Marks`. -/
def markNames : List Name := ["timestamp", "instance", "axis", "axis_value", "rep", "note"]

theorem putAll_append (r : Record B) (a b : List (Name × Scalar B)) :
    r.putAll (a ++ b) = (r.putAll a).putAll b :=
  List.foldl_append

theorem putAll_of_not_mem {l : List (Name × Scalar B)} {key : Name} (h : key ∉ l.map Prod.fst)
    (r : Record B) : r.putAll l key = r key := by
  induction l generalizing r with
  | nil => rfl
  | cons kv l ih =>
    rw [List.map_cons, List.mem_cons, not_or] at h
    show (Record.put r kv.1 kv.2).putAll l key = r key
    rw [ih h.2, Record.put, Function.update_of_ne h.1]

theorem putAll_of_mem {l : List (Name × Scalar B)} (hn : (l.map Prod.fst).Nodup) {key : Name}
    {v : Scalar B} (h : (key, v) ∈ l) (r : Record B) : r.putAll l key = v := by
  induction l generalizing r with
  | nil => exact absurd h List.not_mem_nil
  | cons kv l ih =>
    rw [List.map_cons, List.nodup_cons] at hn
    rcases List.mem_cons.mp h with rfl | hmem
    · show (Record.put r key v).putAll l key = v
      rw [putAll_of_not_mem hn.1, Record.put, Function.update_self]
    · exact ih hn.2 hmem _

/-- A field is what was there, or what is put there. -/
theorem putAll_congr {r r' : Record B} {key : Name} (h : r key = r' key)
    (l : List (Name × Scalar B)) : r.putAll l key = r'.putAll l key := by
  induction l generalizing r r' with
  | nil => exact h
  | cons kv l ih =>
    refine ih ?_
    show Function.update r kv.1 kv.2 key = Function.update r' kv.1 kv.2 key
    rw [Function.update_apply, Function.update_apply, h]

theorem map_fst_division (d : Division B) (r : Record B) :
    ∀ key ∈ (d.fields r).map Prod.fst, key ∈ derivedNames := by
  intro key hkey
  rw [Division.fields, List.map_append, List.map_append, List.mem_append, List.mem_append] at hkey
  rcases hkey with (hkey | hkey) | hkey <;> split at hkey <;>
    simp_all [derivedNames]

/-- A field that `main` has no name for is as `run_once` returned it. -/
theorem merge_of_not_mem {s : Setting} {m : Marks} {key : Name} (hmark : key ∉ markNames)
    (hcfg : key ∉ s.cfg.map Prod.fst) (row : Record B) : s.merge m row key = row key := by
  refine putAll_of_not_mem ?_ row
  rw [List.map_append, List.mem_append]
  rintro (h | h)
  · exact hmark h
  · rw [List.map_map] at h
    obtain ⟨kv, hkv, rfl⟩ := List.mem_map.mp h
    exact hcfg (List.mem_map_of_mem (f := Prod.fst) (List.mem_of_mem_filter hkv))

/-- A knob other than the query is as it was asked for. -/
theorem merge_of_mem {s : Setting} {m : Marks} {key : Name} {v : Value}
    (hn : (s.cfg.map Prod.fst).Nodup) (h : (key, v) ∈ s.cfg) (hquery : key ≠ "query")
    (row : Record B) : s.merge m row key = v.scalar B := by
  rw [Setting.merge, putAll_append]
  have hsub : ((s.cfg.filter fun kv => kv.1 ≠ "query" ∨ row "query" = .none).map
      fun kv => (kv.1, kv.2.scalar B)).map Prod.fst =
      (s.cfg.filter fun kv => kv.1 ≠ "query" ∨ row "query" = .none).map Prod.fst := by
    rw [List.map_map]
    rfl
  refine putAll_of_mem ?_ (List.mem_map.mpr ⟨(key, v), List.mem_filter.mpr ⟨h, ?_⟩, rfl⟩) _
  · rw [hsub]
    exact hn.sublist (List.filter_sublist.map _)
  · simp [hquery]

theorem record_of_not_mem {k : Stack B} {d : Division B} {s : Setting} {m : Marks} {key : Name}
    (h : key ∉ derivedNames) (row : Record B) : k.record d s m row key = s.merge m row key := by
  rw [Stack.record, putAll_of_not_mem fun hkey => h (map_fst_division d _ key hkey), Record.put,
    Function.update_of_ne]
  rintro rfl
  exact h List.mem_cons_self

theorem record_valid (k : Stack B) (d : Division B) (s : Setting) (m : Marks) (row : Record B) :
    k.record d s m row "valid" = .bool (k.valid s (s.merge m row)) := by
  rw [Stack.record, putAll_of_not_mem, Record.put, Function.update_self]
  rw [Division.fields, List.map_append, List.map_append, List.mem_append, List.mem_append]
  rintro ((h | h) | h) <;> split at h <;> simp at h

variable {d : Division B} {s : Setting} {m : Marks} {text : List Char} {p : Record B} {n : Nat}

theorem merge_putAll_of_not_mem {l : List (Name × Scalar B)} {key : Name}
    (hmark : key ∉ markNames) (hcfg : key ∉ s.cfg.map Prod.fst) (hsets : key ∉ l.map Prod.fst) :
    s.merge m (p.putAll l) key = p key := by
  rw [merge_of_not_mem hmark hcfg, putAll_of_not_mem hsets]

/-- A field that `main`, the knobs and `run_once` leave alone is as it was parsed. -/
theorem finish_of_not_mem {k : Stack B} {key : Name} (hderived : key ∉ derivedNames)
    (hmark : key ∉ markNames) (hcfg : key ∉ s.cfg.map Prod.fst)
    (hsets : key ∉ (k.sets s text n p).map Prod.fst) : k.finish d s m text n p key = p key := by
  rw [Stack.finish, record_of_not_mem hderived, merge_putAll_of_not_mem hmark hcfg hsets]

/-- The knobs of a run are those of its bench. -/
def Setting.Of (s : Setting) (k : Stack B) : Prop :=
  s.cfg.map Prod.fst = k.bench.knobs.map Knob.name

theorem Setting.get_of_mem {key : Name} {v : Value} (hn : (s.cfg.map Prod.fst).Nodup)
    (h : (key, v) ∈ s.cfg) : s.get B key = v.scalar B := by
  rw [Setting.get, lookup_of_mem hn h]
  rfl

/-- A knob other than the query is as it was asked for. -/
theorem merge_knob {k : Stack B} (hs : s.Of k) {key : Name}
    (hkey : key ∈ k.bench.knobs.map Knob.name) (hquery : key ≠ "query") (row : Record B) :
    s.merge m row key = s.get B key := by
  have hn : (s.cfg.map Prod.fst).Nodup := hs ▸ k.bench.nodup
  obtain ⟨kv, hkv, rfl⟩ := List.mem_map.mp (hs ▸ hkey)
  rw [merge_of_mem hn hkv hquery, Setting.get_of_mem hn hkv]

/-- A row's own query wins over the point's. -/
theorem merge_query {k : Stack B} (hs : s.Of k) (hkey : "query" ∈ k.bench.knobs.map Knob.name)
    (row : Record B) :
    s.merge m row "query" = if row "query" = .none then s.get B "query" else row "query" := by
  have hn : (s.cfg.map Prod.fst).Nodup := hs ▸ k.bench.nodup
  obtain ⟨⟨key, v⟩, hv, rfl : key = "query"⟩ := List.mem_map.mp (hs ▸ hkey)
  rw [Setting.merge, putAll_append, Setting.get_of_mem hn hv]
  split
  · rename_i hnone
    have hfilter : s.cfg.filter (fun kv => kv.1 ≠ "query" ∨ row "query" = .none) = s.cfg :=
      List.filter_eq_self.mpr fun kv _ => by simp [hnone]
    rw [hfilter]
    refine putAll_of_mem ?_ (List.mem_map.mpr ⟨("query", v), hv, rfl⟩) _
    rw [List.map_map]
    exact hn
  · rename_i hsome
    rw [putAll_of_not_mem, putAll_of_not_mem]
    · exact (by decide : "query" ∉ markNames)
    · rw [List.map_map]
      intro hmem
      obtain ⟨kv, hkv, hquery⟩ := List.mem_map.mp hmem
      have hkeep := (List.mem_filter.mp hkv).2
      have hquery : kv.1 = "query" := hquery
      simp [hquery, hsome] at hkeep

/-! ## What the transfer benches set -/

/-- What the benches set of a server. -/
def serverNames : List Name := ["server_id", "server_zone", "target_ip"]

/-- The names of what the transfer benches set themselves. -/
def setNames : List Name :=
  ["market", "zone", "complete", "instance_id", "log", "interrupted", "allowance_exceeded"] ++
    serverNames

/-- The benches whose gate does not look at the headline. -/
def BenchName.IsTransfer : BenchName → Prop
  | duckdbTpch | duckdbLinux => False
  | _ => True

theorem map_fst_serverSets {l : List (Name × Scalar B)}
    (h : l = SmoltcpS3.serverSets B s ∨ l = AnyBlob.serverSets B s ∨ l = WrkHttp.serverSets B s) :
    ∀ key ∈ l.map Prod.fst, key ∈ serverNames := by
  intro key hkey
  rcases h with rfl | rfl | rfl
  · unfold SmoltcpS3.serverSets at hkey
    repeat' split at hkey
    all_goals simp_all [serverNames]
  · unfold AnyBlob.serverSets at hkey
    repeat' split at hkey
    all_goals simp_all [serverNames]
  · unfold WrkHttp.serverSets at hkey
    split at hkey
    all_goals simp_all [serverNames]

/-- A bench that sets fields of a server sets its own before. -/
theorem map_fst_append {a l : List (Name × Scalar B)} (ha : ∀ key ∈ a.map Prod.fst, key ∈ setNames)
    (hl : l = SmoltcpS3.serverSets B s ∨ l = AnyBlob.serverSets B s ∨ l = WrkHttp.serverSets B s) :
    ∀ key ∈ (a ++ l).map Prod.fst, key ∈ setNames := by
  intro key hkey
  rw [List.map_append, List.mem_append] at hkey
  rcases hkey with hkey | hkey
  · exact ha key hkey
  · exact List.mem_append_right _ (map_fst_serverSets hl key hkey)

theorem map_fst_launch (s : Setting) (text : List Char) :
    ∀ key ∈ (LinuxS3.sets B s text).map Prod.fst, key ∈ setNames :=
  fun _ hkey => List.mem_append_left _ hkey

theorem map_fst_sets {name : BenchName} (h : name.IsTransfer) (s : Setting) (text : List Char)
    (n : Nat) (p : Record B) :
    ∀ key ∈ ((name.stack B).sets s text n p).map Prod.fst, key ∈ setNames := by
  cases name with
  | smoltcpS3 =>
    have hown : ∀ key ∈ ["complete", "log", "interrupted"], key ∈ setNames := by decide
    exact map_fst_append hown (Or.inl rfl)
  | linuxS3 => exact map_fst_launch s text
  | anyblob => exact map_fst_append (map_fst_launch s text) (Or.inr (Or.inl rfl))
  | linuxHttp => exact map_fst_append (map_fst_launch s text) (Or.inr (Or.inr rfl))
  | duckdbTpch => exact h.elim
  | duckdbLinux => exact h.elim

end Runner
