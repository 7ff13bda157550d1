import MiniosvCtrl.Bench.Recorded

/-!
# Measured figures in the row

A figure that a bench read on the console is to stand in the recorded row as it was read. `main`
lays the knobs over the row, and `run_once` lays what it knows itself of its machines over it.

* `BenchName.known` — those of them that are laid over, and with what
* `finish_metric` — what becomes of a figure that was read
* `measured_iff` — it stands in the row exactly when what is laid over it is the same
-/

namespace Runner

open Infra

variable {B : Builtins} {d : Division B} {s : Setting} {m : Marks} {text : List Char}
  {p : Record B} {n : Nat}

/-! ## What is laid over a row -/

/-- The machine, as the driver launched it. -/
def Setting.launchedFields (B : Builtins) (s : Setting) : List (Name × Scalar B) :=
  [("market", .str s.launched.market), ("zone", .str s.launched.zone)]

/-- The address of the server, among the fields that are set of it. -/
def dialled (l : List (Name × Scalar B)) : List (Name × Scalar B) :=
  l.filter fun kv => kv.1 = "target_ip"

/-- The fields that a bench reads and that `run_once` lays over, with what it lays over them. -/
def BenchName.laid (name : BenchName) (s : Setting) : List (Name × Scalar B) :=
  match name with
  | smoltcpS3 => dialled (SmoltcpS3.serverSets B s)
  | linuxS3 => s.launchedFields B
  | anyblob => dialled (AnyBlob.serverSets B s) ++ s.launchedFields B
  | linuxHttp => []
  | duckdbTpch => []
  | duckdbLinux => s.launchedFields B

/-- The knobs that are also read back from the guest. -/
def BenchName.readBack : BenchName → List Name
  | anyblob => ["scheme"]
  | duckdbLinux => ["scheme"]
  | _ => []

/-- What was asked for of them. -/
def BenchName.asked (B : Builtins) (name : BenchName) (s : Setting) : List (Name × Scalar B) :=
  name.readBack.map fun key => (key, s.get B key)

/-- What the driver knows of the fields that it reads. -/
def BenchName.known (name : BenchName) (s : Setting) : List (Name × Scalar B) :=
  name.asked B s ++ name.laid s

/-- Neither missing nor the empty text. -/
def NonEmpty (v : Scalar B) : Prop := v ≠ .none ∧ v ≠ .str ""

instance (v : Scalar B) : Decidable (NonEmpty v) := inferInstanceAs (Decidable (_ ∧ _))

/-! ## What becomes of a figure -/

theorem putAll_eq_lookup {l : List (Name × Scalar B)} (hn : (l.map Prod.fst).Nodup) (key : Name)
    (r : Record B) : r.putAll l key = (l.lookup key).getD (r key) := by
  by_cases hkey : key ∈ l.map Prod.fst
  · obtain ⟨⟨key, v⟩, hv, rfl⟩ := List.mem_map.mp hkey
    rw [putAll_of_mem hn hv, lookup_of_mem hn hv]
    rfl
  · rw [putAll_of_not_mem hkey, lookup_of_not_mem hkey]
    rfl

/-- What every bench on the launch path sets beside the machine. -/
def ownNames : List Name := ["complete", "instance_id", "log", "interrupted", "allowance_exceeded"]

theorem putAll_launch {key : Name} (h : key ∉ ownNames) (r : Record B) :
    r.putAll (LinuxS3.sets B s text) key = ((s.launchedFields B).lookup key).getD (r key) := by
  have hsplit : LinuxS3.sets B s text =
      s.launchedFields B ++ (LinuxS3.sets B s text).drop 2 := rfl
  rw [hsplit, putAll_append, putAll_of_not_mem h, putAll_eq_lookup]
  show ["market", "zone"].Nodup
  decide

/-- Of what is set of a server, only the address is a field that is read. -/
theorem putAll_server {l : List (Name × Scalar B)}
    (hl : l = SmoltcpS3.serverSets B s ∨ l = AnyBlob.serverSets B s) {key : Name}
    (hid : key ≠ "server_id") (hzone : key ≠ "server_zone") (r : Record B) :
    r.putAll l key = ((dialled l).lookup key).getD (r key) := by
  have hlookup : (dialled l).lookup key = if key = "target_ip" then l.lookup key else none := by
    rw [dialled, lookup_filter_fst (fun k => decide (k = "target_ip"))]
    simp
  have hn : (l.map Prod.fst).Nodup := by
    rcases hl with rfl | rfl
    · unfold SmoltcpS3.serverSets
      repeat' split
      all_goals simp
    · unfold AnyBlob.serverSets
      repeat' split
      all_goals simp
  rw [putAll_eq_lookup hn, hlookup]
  split
  · rfl
  · rename_i htarget
    have hmem : ∀ key ∈ l.map Prod.fst, key ∈ ["server_id", "server_zone", "target_ip"] := by
      rcases hl with rfl | rfl
      · unfold SmoltcpS3.serverSets
        repeat' split
        all_goals simp
      · unfold AnyBlob.serverSets
        repeat' split
        all_goals simp
    rw [lookup_of_not_mem fun hkey => ?_]
    have hkey := hmem key hkey
    simp_all

/-- Fields that are set, and that no bench reads. -/
def plainNames : List Name :=
  derivedNames ++ markNames ++ ["complete", "log", "interrupted", "allowance_exceeded",
    "server_id", "server_zone", "query", "query_seq", "query_ms_from_summary", "crashed"]

theorem not_plain (name : BenchName) : ∀ key ∈ name.metricNames, key ∉ plainNames := by
  have hcommon : ∀ key ∈ (commonMetrics Builtins.exact).map Metric.name, key ∉ plainNames := by
    decide +kernel
  have hlinux : ∀ key ∈ (LinuxS3.metrics Builtins.exact).map Metric.name, key ∉ plainNames :=
    forall_name_overlay hcommon (by decide +kernel)
  have hshared : ∀ key ∈ (Tpch.shared Builtins.exact).map Metric.name, key ∉ plainNames := by
    decide +kernel
  cases name with
  | smoltcpS3 => exact forall_name_overlay hcommon (by decide +kernel)
  | linuxS3 => exact hlinux
  | anyblob => exact forall_name_overlay hlinux (by decide +kernel)
  | linuxHttp => decide +kernel
  | duckdbTpch => exact forall_name_overlay hshared (by decide +kernel)
  | duckdbLinux => exact forall_name_overlay hshared (by decide +kernel)

/-- The only knob that is also read back is the scheme. -/
theorem knob_metric (name : BenchName) :
    ∀ key ∈ name.metricNames, key ∈ name.knobNames → key ∈ name.readBack := by
  cases name with
  | smoltcpS3 => exact forall_name_overlay (by decide) (by decide)
  | linuxS3 => exact forall_name_overlay (by decide) (by decide)
  | anyblob => exact forall_name_overlay (forall_name_overlay (by decide) (by decide)) (by decide)
  | linuxHttp => decide
  | duckdbTpch => exact forall_name_overlay (by decide) (by decide)
  | duckdbLinux => exact forall_name_overlay (by decide) (by decide)

theorem readBack_knob (name : BenchName) :
    ∀ key ∈ name.readBack, key ∈ name.knobNames ∧ key ≠ "query" := by
  cases name <;> decide

theorem not_own (name : BenchName) (h : "instance_id" ∉ name.metricNames) {key : Name}
    (hkey : key ∈ name.metricNames) : key ∉ ownNames := by
  have hown : ∀ key ∈ ownNames, key ∈ plainNames ∨ key = "instance_id" := by decide
  intro hmem
  rcases hown key hmem with hplain | rfl
  · exact not_plain name key hkey hplain
  · exact h hkey

theorem map_fst_query (found : List (List Char × List Char)) (n : Nat) :
    ∀ key ∈ (Tpch.query B found n).map Prod.fst, key ∈ plainNames := by
  intro key hkey
  unfold Tpch.query at hkey
  split at hkey
  · exact absurd hkey List.not_mem_nil
  · have hsub : ∀ k ∈ ["query", "query_seq"], k ∈ plainNames := by decide
    exact hsub key hkey

/-- The time of a query is only taken from the summary where it is missing. -/
theorem map_fst_fromSummary {key : Name}
    (h : key ∈ (DuckdbLinux.fromSummary B p).map Prod.fst) (hname : key ≠ "query_ms_from_summary")
    (hp : NonEmpty (p key)) : False := by
  unfold DuckdbLinux.fromSummary at h
  split at h
  · rename_i hnone
    rcases List.mem_cons.mp h with rfl | h
    · refine hp.1 ?_
      cases hq : p "query_ms" <;> simp_all [Scalar.isNone]
    · exact hname (List.mem_singleton.mp h)
  · exact absurd h List.not_mem_nil

/-- A field of the whole boot is only taken where a query's text does not show it. -/
theorem map_fst_runwide {key : Name} (h : key ∈ (DuckdbLinux.runwide B text p).map Prod.fst)
    (hp : NonEmpty (p key)) : False := by
  obtain ⟨kv, hkv, rfl⟩ := List.mem_map.mp h
  unfold DuckdbLinux.runwide at hkv
  split at hkv
  · exact absurd hkv List.not_mem_nil
  · obtain ⟨k, -, hk⟩ := List.mem_filterMap.mp hkv
    split at hk
    · rename_i hempty
      obtain rfl := Option.some_inj.mp hk
      simp only [Bool.and_eq_true, Bool.or_eq_true, beq_iff_eq] at hempty
      rcases hempty.2 with h | h
      · exact hp.1 h
      · exact hp.2 h
    · cases hk

/-- What `run_once` sets leaves a figure, unless it is laid over it. -/
theorem putAll_sets {name : BenchName} {key : Name} (hkey : key ∈ name.metricNames)
    (hp : NonEmpty (p key)) :
    p.putAll ((name.stack B).sets s text n p) key = ((name.laid s).lookup key).getD (p key) := by
  have hplain : ∀ k ∈ plainNames, key ≠ k := fun k hk he => not_plain name key hkey (he ▸ hk)
  have hid := hplain "server_id" (by decide)
  have hzone := hplain "server_zone" (by decide)
  -- each bench lays its own fields over what was read
  cases name with
  | smoltcpS3 =>
    have hsub : ∀ k ∈ ["complete", "log", "interrupted"], k ∈ plainNames := by decide
    show p.putAll (_ ++ SmoltcpS3.serverSets B s) key = _
    rw [putAll_append, putAll_server (Or.inl rfl) hid hzone,
      putAll_of_not_mem fun h => hplain key (hsub key h) rfl]
    rfl
  | linuxS3 => exact putAll_launch (not_own .linuxS3 (by decide) hkey) p
  | anyblob =>
    show p.putAll (LinuxS3.sets B s text ++ AnyBlob.serverSets B s) key = _
    rw [putAll_append, putAll_server (Or.inr rfl) hid hzone,
      putAll_launch (not_own .anyblob (by decide) hkey), BenchName.laid, List.lookup_append,
      Option.getD_or]
  | linuxHttp =>
    have hdisjoint : ∀ key ∈ BenchName.linuxHttp.metricNames, key ∉ setNames := by decide
    have htransfer : BenchName.linuxHttp.IsTransfer := trivial
    exact putAll_of_not_mem
      (fun h => hdisjoint key hkey (map_fst_sets htransfer s text n p key h)) p
  | duckdbTpch =>
    refine putAll_of_not_mem (fun h => ?_) p
    have hsub : ∀ k ∈ ["complete", "crashed", "log", "interrupted"], k ∈ plainNames := by
      decide
    rcases List.mem_append.mp (List.map_append ▸ h) with h | h
    · exact hplain key (hsub key h) rfl
    · exact hplain key (map_fst_query _ _ key h) rfl
  | duckdbLinux =>
    have hsub : ∀ k ∈ ["complete", "instance_id", "log", "interrupted"], k ∈ ownNames := by
      decide
    have hown := not_own .duckdbLinux (by decide) hkey
    have hrunwide : key ∉ (if (DuckdbLinux.heads B text).length ≤ 1 then []
        else DuckdbLinux.runwide B text p).map Prod.fst := by
      split
      · exact List.not_mem_nil
      · exact fun h => map_fst_runwide h hp
    have hquery : key ∉ (Tpch.query B (DuckdbLinux.heads B text) n).map Prod.fst := fun h =>
      hplain key (map_fst_query _ _ key h) rfl
    have hsummary : key ∉ (DuckdbLinux.fromSummary B p).map Prod.fst := fun h =>
      map_fst_fromSummary h (hplain _ (by decide)) hp
    show p.putAll (s.launchedFields B ++ _ ++ _ ++ _ ++ _) key = _
    rw [putAll_append, putAll_of_not_mem hrunwide, putAll_append, putAll_of_not_mem hsummary,
      putAll_append, putAll_of_not_mem hquery, putAll_append,
      putAll_of_not_mem fun h => hown (hsub key h), putAll_eq_lookup]
    · rfl
    · show ["market", "zone"].Nodup
      decide

/-- **A figure that was read is in the row, unless the driver knows the field itself.** -/
theorem finish_metric {name : BenchName} (hs : s.Of (name.stack B)) {key : Name}
    (hkey : key ∈ name.metricNames) (hp : NonEmpty (p key)) :
    (name.stack B).finish d s m text n p key = ((name.known s).lookup key).getD (p key) := by
  have hplain : ∀ l : List Name, (∀ k ∈ l, k ∈ plainNames) → key ∉ l := fun l hl h =>
    not_plain name key hkey (hl key h)
  rw [Stack.finish, record_of_not_mem (hplain _ (by decide)), BenchName.known,
    List.lookup_append, Option.getD_or]
  by_cases hasked : key ∈ name.readBack
  · obtain ⟨hknob, hquery⟩ := readBack_knob name key hasked
    have hlookup : (name.asked B s).lookup key = some (s.get B key) := by
      cases name <;> simp_all [BenchName.asked, BenchName.readBack]
    rw [merge_knob hs (by rw [map_name_knobs]; exact hknob) hquery, hlookup]
    rfl
  · have hlookup : (name.asked B s).lookup key = none := by
      refine lookup_of_not_mem fun h => hasked ?_
      rw [BenchName.asked, List.map_map] at h
      simpa using h
    rw [merge_of_not_mem (hplain _ (by decide)), hlookup, putAll_sets hkey hp]
    · rfl
    · rw [hs, map_name_knobs]
      exact fun h => hasked (knob_metric name key hkey h)

/-! ## Rows -/

/-- The fields that a bench reads and that are laid over at times. -/
def BenchName.knownNames : BenchName → List Name
  | smoltcpS3 => ["target_ip"]
  | linuxS3 => ["market", "zone"]
  | anyblob => ["scheme", "target_ip", "market", "zone"]
  | linuxHttp => []
  | duckdbTpch => []
  | duckdbLinux => ["scheme", "market", "zone"]

theorem map_fst_dialled {l : List (Name × Scalar B)}
    (hl : l = SmoltcpS3.serverSets B s ∨ l = AnyBlob.serverSets B s) :
    ((dialled l).map Prod.fst).Sublist ["target_ip"] := by
  rcases hl with rfl | rfl
  · unfold SmoltcpS3.serverSets
    repeat' split
    all_goals simp [dialled]
  · unfold AnyBlob.serverSets
    repeat' split
    all_goals simp [dialled]

theorem map_fst_known (name : BenchName) (s : Setting) :
    ((name.known s : List (Name × Scalar B)).map Prod.fst).Sublist name.knownNames := by
  cases name with
  | smoltcpS3 => exact map_fst_dialled (Or.inl rfl)
  | linuxS3 => exact List.Sublist.refl _
  | anyblob =>
    show List.Sublist (List.map _ (_ :: (dialled _ ++ _))) _
    rw [List.map_cons, List.map_append]
    exact ((map_fst_dialled (Or.inr rfl)).append (List.Sublist.refl _)).cons_cons _
  | linuxHttp => exact List.Sublist.refl _
  | duckdbTpch => exact List.Sublist.refl _
  | duckdbLinux => exact List.Sublist.refl _

theorem known_nodup (name : BenchName) (s : Setting) :
    ((name.known s : List (Name × Scalar B)).map Prod.fst).Nodup := by
  refine List.Nodup.sublist (map_fst_known name s) ?_
  cases name <;> decide

theorem known_metric (name : BenchName) (s : Setting) {kv : Name × Scalar B}
    (h : kv ∈ name.known s) : kv.1 ∈ name.metricNames := by
  have hnames : ∀ key ∈ name.knownNames, key ∈ name.metricNames := by
    cases name <;> decide
  exact hnames _ ((map_fst_known name s).subset (List.mem_map_of_mem h))

/--
**Every figure that a bench read stands in the recorded row as it was read, exactly when what the
driver lays over it, where it does, is the same.**
-/
theorem measured_iff {name : BenchName} (hs : s.Of (name.stack B)) {rows parsed : List (Record B)}
    (hparsed : (name.stack B).parsed text = some parsed)
    (hrows : (name.stack B).recorded d s m text = some rows) :
    (∀ (n : Nat) (p row : Record B), parsed[n]? = some p → rows[n]? = some row →
      ∀ key ∈ (name.stack B).metrics.map Metric.name, NonEmpty (p key) → row key = p key) ↔
      ∀ p ∈ parsed, ∀ kv ∈ name.known s, NonEmpty (p kv.1) → p kv.1 = kv.2 := by
  rw [Stack.recorded_eq, hparsed, Option.map_some, Option.some_inj] at hrows
  subst hrows
  rw [map_name_metrics]
  have hrow : ∀ (n : Nat) (p : Record B), parsed[n]? = some p →
      (parsed.mapIdx ((name.stack B).finish d s m text))[n]? =
        some ((name.stack B).finish d s m text n p) := by
    intro n p hp
    rw [List.getElem?_mapIdx, hp]
    rfl
  constructor
  · intro hall p hp kv hkv hne
    obtain ⟨n, hn⟩ := List.mem_iff_getElem?.mp hp
    have hkey := known_metric name s hkv
    have hfigure := hall n p _ hn (hrow n p hn) kv.1 hkey hne
    rw [finish_metric hs hkey hne, lookup_of_mem (known_nodup name s) hkv] at hfigure
    exact hfigure.symm
  · intro hknown n p row hn hr key hkey hne
    rw [hrow n p hn, Option.some_inj] at hr
    subst hr
    rw [finish_metric hs hkey hne]
    cases hlookup : (name.known s).lookup key with
    | none => rfl
    | some v =>
      have hmem := (lookup_eq_some_iff_mem (known_nodup name s)).mp hlookup
      exact (hknown p (List.mem_of_getElem? hn) _ hmem hne).symm

/-! ## A run of duckdb-linux -/

/-- A query, over a scheme. -/
def querySetting (scheme : String) : Setting :=
  { launched := ⟨"spot", "eu-central-1a", "i-1", "run.log", false⟩
    server := none
    benchZone := none
    ip := ""
    cfg := [("query", .int 6), ("sf", .str "1"), ("pin", .str ""), ("gro", .str ""),
      ("queues", .str ""), ("httplog", .str ""), ("netphase", .str ""), ("cpuprobe", .str ""),
      ("threads", .int 0), ("scheme", .str scheme)] }

def queryMarks : Marks := ⟨"2026-10-01T00:00:00+00:00", "r6in.8xlarge", "threads", .int 0, 1, ""⟩

def queryDivision : Division Builtins.exact := ⟨fun _ _ => .none, fun _ _ => .none⟩

/-- The guest says that it used http. -/
def httpConsole : List Char := "tpch-linux: sf=1, 1 query, bucket b (http)\n".toList

theorem querySetting_of (scheme : String) :
    (querySetting scheme).Of (BenchName.duckdbLinux.stack Builtins.exact) := rfl

/-- When http was asked for, everything stands as it was read. -/
theorem measured_iff_http :
    ∃ parsed rows : List (Record Builtins.exact),
      (BenchName.duckdbLinux.stack Builtins.exact).parsed httpConsole = some parsed ∧
      (BenchName.duckdbLinux.stack Builtins.exact).recorded queryDivision (querySetting "http")
        queryMarks httpConsole = some rows ∧
      ∀ (n : Nat) (p row : Record Builtins.exact), parsed[n]? = some p → rows[n]? = some row →
        ∀ key ∈ (BenchName.duckdbLinux.stack Builtins.exact).metrics.map Metric.name,
          NonEmpty (p key) → row key = p key := by
  have hsome : ((BenchName.duckdbLinux.stack Builtins.exact).parsed httpConsole).any
      (fun parsed => parsed.all fun p =>
        (BenchName.duckdbLinux.known (querySetting "http")).all fun kv =>
          NonEmpty (p kv.1) → p kv.1 = kv.2) = true := by
    decide +kernel
  obtain ⟨parsed, hparsed, hall⟩ := (Option.any_eq_true _ _).mp hsome
  have hrows := (BenchName.duckdbLinux.stack Builtins.exact).recorded_eq queryDivision
    (querySetting "http") queryMarks httpConsole
  rw [hparsed, Option.map_some] at hrows
  refine ⟨_, _, hparsed, hrows, (measured_iff (querySetting_of "http") hparsed hrows).mpr ?_⟩
  intro p hp kv hkv
  exact of_decide_eq_true (List.all_eq_true.mp (List.all_eq_true.mp hall p hp) kv hkv)

/-- When https was asked for, the row says https. -/
theorem scheme_echoed :
    ∃ parsed rows : List (Record Builtins.exact), ∃ p row : Record Builtins.exact,
      (querySetting "https").Of (BenchName.duckdbLinux.stack Builtins.exact) ∧
      (BenchName.duckdbLinux.stack Builtins.exact).parsed httpConsole = some parsed ∧
      (BenchName.duckdbLinux.stack Builtins.exact).recorded queryDivision (querySetting "https")
        queryMarks httpConsole = some rows ∧
      parsed[0]? = some p ∧ rows[0]? = some row ∧
      "scheme" ∈ (BenchName.duckdbLinux.stack Builtins.exact).metrics.map Metric.name ∧
      NonEmpty (p "scheme") ∧ row "scheme" ≠ p "scheme" := by
  have hsome : ((BenchName.duckdbLinux.stack Builtins.exact).parsed httpConsole).any
      (fun parsed => parsed[0]?.any fun p => p "scheme" = .str "http") = true := by
    decide +kernel
  obtain ⟨parsed, hparsed, hany⟩ := (Option.any_eq_true _ _).mp hsome
  obtain ⟨p, hp, hscheme⟩ := (Option.any_eq_true _ _).mp hany
  have hscheme : p "scheme" = .str "http" := of_decide_eq_true hscheme
  have hkey : "scheme" ∈ BenchName.duckdbLinux.metricNames := by decide
  have hne : NonEmpty (p "scheme") := by
    rw [hscheme]
    decide
  have hrows := (BenchName.duckdbLinux.stack Builtins.exact).recorded_eq queryDivision
    (querySetting "https") queryMarks httpConsole
  rw [hparsed, Option.map_some] at hrows
  let row := (BenchName.duckdbLinux.stack Builtins.exact).finish queryDivision
    (querySetting "https") queryMarks httpConsole 0 p
  refine ⟨_, _, p, row, querySetting_of "https", hparsed, hrows, hp, ?_, hkey, hne, ?_⟩
  · rw [List.getElem?_mapIdx, hp, Option.map_some]
  · have hrow : row "scheme" = _ := finish_metric (querySetting_of "https") hkey hne
    rw [hrow, hscheme]
    show Scalar.str "https" ≠ Scalar.str "http"
    decide

end Runner
