import MiniosvCtrl.Bench.Recorded

/-!
# What a valid row measured

A row that is recorded as valid is to have its headline figure. Console lines are lost one by one,
and the gates of the transfer benches look at other lines than the one with the figure.

* `finish_of_not_mem` — a field that nothing but the console fills
* `SharedGate`, `BenchName.Passes` — what a text shows that passes a gate
* `valid_finish_iff` — the gates look at nothing else
* `valid_measures_iff` — valid rows have their figure exactly when no text passes without it
-/

namespace Runner

open Infra

variable {B : Builtins} {d : Division B} {s : Setting} {m : Marks} {text : List Char}
  {p : Record B} {n : Nat}

/-! ## The gates -/

/-- The text shows what the shared gate asks for; the worst setup may not count. -/
structure SharedGate (text : List Char) (p : Record B) (lenient : Bool) : Prop where
  complete : completed.found text = true
  /-- The median, or else the maximum, is missing or below a second. -/
  setup : lt (((p "setup_us_p50").or (if lenient then .int 0 else p "setup_us_max")).or (.int 0))
    1000000 = true
  misrouted : p "misrouted" = .int 0
  /-- Missing, or 0. -/
  http : (p "http_bad").truthy = false
  /-- Both are missing, or they are equal. -/
  conns : p "conns_total" = p "conns_clean"

/-- The text shows what the bench's gate asks for, whether it shows the headline or not. -/
def BenchName.Passes (name : BenchName) (s : Setting) (text : List Char) (p : Record B) : Prop :=
  match name with
  | smoltcpS3 => SharedGate text p s.server.isSome
  | linuxS3 => SharedGate text p false
  | anyblob => SharedGate text p false ∧ (p "hdr_bad").truthy = false
  | linuxHttp => completed.found text = true ∧ ∀ key ∈ WrkHttp.errors, (p key).truthy = false
  -- these two look at the headline themselves
  | duckdbTpch => False
  | duckdbLinux => False

theorem or_zero_eq_iff (v : Scalar B) : v.or (.int 0) = .int 0 ↔ v.truthy = false := by
  unfold Scalar.or
  by_cases h : v.truthy = true
  · rw [if_pos h]
    constructor
    · rintro rfl
      cases h
    · intro h'
      rw [h] at h'
      cases h'
  · rw [if_neg h]
    simp [h]

/-- The shared gate looks at seven fields. -/
theorem valid_iff {row p : Record B} {text : List Char} (lenient : Bool)
    (hcomplete : row "complete" = .bool (completed.found text))
    (hmax : row "setup_us_max" = if lenient then .int 0 else p "setup_us_max")
    (hrow : ∀ key ∈ ["setup_us_p50", "misrouted", "http_bad", "conns_total", "conns_clean"],
      row key = p key) : valid row = true ↔ SharedGate text p lenient := by
  have h50 := hrow "setup_us_p50" (by simp)
  have hmis := hrow "misrouted" (by simp)
  have hhttp := hrow "http_bad" (by simp)
  have htotal := hrow "conns_total" (by simp)
  have hclean := hrow "conns_clean" (by simp)
  unfold valid setupOk
  rw [hcomplete, hmax, h50, hmis, hhttp, htotal, hclean]
  simp only [Bool.and_eq_true, or_zero_eq_iff, beq_iff_eq]
  exact ⟨fun ⟨⟨⟨⟨h₁, h₂⟩, h₃⟩, h₄⟩, h₅⟩ => ⟨h₁, h₂, h₃, h₄, h₅⟩,
    fun ⟨h₁, h₂, h₃, h₄, h₅⟩ => ⟨⟨⟨⟨h₁, h₂⟩, h₃⟩, h₄⟩, h₅⟩⟩

/-! ## Fields of the gates -/

/-- The fields that the gates of the transfer benches look at, `complete` apart. -/
def gateNames : List Name :=
  ["setup_us_p50", "setup_us_max", "misrouted", "http_bad", "conns_total", "conns_clean",
    "hdr_bad", "gbps"] ++ WrkHttp.errors

theorem gateNames_main : ∀ key ∈ gateNames, key ∉ derivedNames ∧ key ∉ markNames := by
  decide

theorem gateNames_knobs {name : BenchName} (h : name.IsTransfer) :
    ∀ key ∈ "complete" :: gateNames, key ∉ (name.stack B).bench.knobs.map Knob.name := by
  rw [map_name_knobs]
  cases name with
  | duckdbTpch => exact h.elim
  | duckdbLinux => exact h.elim
  | _ => decide

/-- What the gates look at is as it was parsed. -/
theorem merge_gate {name : BenchName} (h : name.IsTransfer) (hs : s.Of (name.stack B)) {key : Name}
    (hkey : key ∈ gateNames) :
    s.merge m (p.putAll ((name.stack B).sets s text n p)) key = p key := by
  refine merge_putAll_of_not_mem (gateNames_main key hkey).2 ?_ fun hset => ?_
  · rw [hs]
    exact gateNames_knobs h key (List.mem_cons_of_mem _ hkey)
  · have hdisjoint : ∀ key ∈ gateNames, key ∉ setNames := by decide
    exact hdisjoint key hkey (map_fst_sets h s text n p key hset)

/-- `complete` is set from the text. -/
theorem merge_complete {name : BenchName} (h : name.IsTransfer) (hs : s.Of (name.stack B)) :
    s.merge m (p.putAll ((name.stack B).sets s text n p)) "complete" =
      .bool (completed.found text) := by
  have hlaunch : p.putAll (LinuxS3.sets B s text) "complete" = .bool (completed.found text) := by
    refine putAll_of_mem ?_ (by simp [LinuxS3.sets]) p
    show ["market", "zone", "complete", "instance_id", "log", "interrupted",
      "allowance_exceeded"].Nodup
    decide
  have hserver : ∀ {a l : List (Name × Scalar B)}, l = SmoltcpS3.serverSets B s ∨
      l = AnyBlob.serverSets B s ∨ l = WrkHttp.serverSets B s →
      p.putAll a "complete" = .bool (completed.found text) →
      p.putAll (a ++ l) "complete" = .bool (completed.found text) := by
    intro a l hl ha
    rw [putAll_append, putAll_of_not_mem fun hkey => ?_, ha]
    exact absurd (map_fst_serverSets hl _ hkey) (by decide)
  rw [merge_of_not_mem (by decide) (hs ▸ gateNames_knobs h _ List.mem_cons_self)]
  cases name with
  | smoltcpS3 =>
    exact hserver (Or.inl rfl) (putAll_of_mem (by simp) (List.mem_cons_self) p)
  | linuxS3 => exact hlaunch
  | anyblob => exact hserver (Or.inr (Or.inl rfl)) hlaunch
  | linuxHttp => exact hserver (Or.inr (Or.inr rfl)) hlaunch
  | duckdbTpch => exact h.elim
  | duckdbLinux => exact h.elim

/-- **A gate passes a row exactly when the row's text shows what it asks for.** -/
theorem valid_finish_iff {name : BenchName} (h : name.IsTransfer) (hs : s.Of (name.stack B)) :
    (name.stack B).finish d s m text n p "valid" = .bool true ↔ name.Passes s text p := by
  have hgate : ∀ key ∈ gateNames,
      s.merge m (p.putAll ((name.stack B).sets s text n p)) key = p key :=
    fun key hkey => merge_gate h hs hkey
  have hcomplete : s.merge m (p.putAll ((name.stack B).sets s text n p)) "complete" =
      .bool (completed.found text) := merge_complete h hs
  rw [Stack.finish, record_valid, Scalar.bool.injEq]
  -- smoltcp asks for less without a server, anyblob and wrk for more than the others
  cases name with
  | smoltcpS3 =>
    show valid (if s.server.isSome = true then _ else _) = true ↔ _
    cases hserver : s.server.isSome with
    | true =>
      rw [if_pos rfl]
      refine (valid_iff true ?_ ?_ fun key hkey => ?_).trans (by
        rw [BenchName.Passes, hserver])
      · rw [Record.put, Function.update_of_ne (by decide)]
        exact hcomplete
      · exact Function.update_self ..
      · have hne : key ≠ "setup_us_max" := by
          rintro rfl
          exact absurd hkey (by decide)
        rw [Record.put, Function.update_of_ne hne]
        exact hgate key (by revert key; decide)
    | false =>
      rw [if_neg Bool.false_ne_true]
      refine (valid_iff false hcomplete (hgate _ (by decide))
        fun key hkey => hgate key (by revert key; decide)).trans (by
          rw [BenchName.Passes, hserver])
  | linuxS3 =>
    exact valid_iff false hcomplete (hgate _ (by decide))
      fun key hkey => hgate key (by revert key; decide)
  | anyblob =>
    show (valid _ && _) = true ↔ _
    rw [Bool.and_eq_true, valid_iff false hcomplete (hgate _ (by decide))
      fun key hkey => hgate key (by revert key; decide), beq_iff_eq, or_zero_eq_iff,
      hgate "hdr_bad" (by decide)]
    rfl
  | linuxHttp =>
    show ((Scalar.truthy _) && !(WrkHttp.errors.any _)) = true ↔ _
    rw [hcomplete, Bool.and_eq_true, Bool.not_eq_true', List.any_eq_false, BenchName.Passes]
    refine and_congr Iff.rfl (forall₂_congr fun key hkey => ?_)
    rw [hgate key (List.mem_append_right _ hkey), Bool.not_eq_true]
  | duckdbTpch => exact h.elim
  | duckdbLinux => exact h.elim

/-! ## The headline -/

/-- `str(cfg.get("cpuprobe") or "") == "1"` -/
def Setting.cpuprobe (B : Builtins) (s : Setting) : Bool :=
  ((s.get B "cpuprobe").or (.str "")).text == "1"

theorem cpuprobe_merge {k : Stack B} (hs : s.Of k)
    (hkey : "cpuprobe" ∈ k.bench.knobs.map Knob.name) (row : Record B) :
    Tpch.cpuprobe B (s.merge m row) = s.cpuprobe B := by
  rw [Tpch.cpuprobe, merge_knob hs hkey (by decide), Setting.cpuprobe]

/-- The gates of the TPC-H benches look at the headline. -/
theorem headline_of_valid {name : BenchName} (h : ¬ name.IsTransfer) (hs : s.Of (name.stack B))
    (hprobe : s.cpuprobe B = false)
    (hvalid : (name.stack B).finish d s m text n p "valid" = .bool true) :
    (name.stack B).finish d s m text n p (name.stack B).headline ≠ .none := by
  rw [Stack.finish, record_valid, Scalar.bool.injEq] at hvalid
  rw [Stack.finish]
  cases name with
  | duckdbTpch =>
    show (DuckdbTpch.stack B).record d s m _ "query_ms" ≠ _
    rw [record_of_not_mem (by decide)]
    have hgate : DuckdbTpch.valid B (s.merge m _) = true := hvalid
    rw [DuckdbTpch.valid, cpuprobe_merge hs (by simp [DuckdbTpch.bench, BenchName.stack,
      DuckdbTpch.stack]), hprobe] at hgate
    intro hnone
    rw [hnone] at hgate
    simp [Scalar.isNone] at hgate
  | duckdbLinux =>
    show (DuckdbLinux.stack B).record d s m _ "query_ms" ≠ _
    rw [record_of_not_mem (by decide)]
    have hgate : DuckdbLinux.valid B (s.merge m _) = true := hvalid
    rw [DuckdbLinux.valid, cpuprobe_merge hs (by simp [DuckdbLinux.bench, BenchName.stack,
      DuckdbLinux.stack]), hprobe] at hgate
    intro hnone
    rw [hnone] at hgate
    simp [Scalar.isNone] at hgate
  | smoltcpS3 => exact absurd trivial h
  | linuxS3 => exact absurd trivial h
  | anyblob => exact absurd trivial h
  | linuxHttp => exact absurd trivial h

/--
**Every valid row of a run has its headline figure, exactly when no text of it passes the gate
without the line that the figure stands in.**
-/
theorem valid_measures_iff {name : BenchName} (hs : s.Of (name.stack B))
    (hprobe : s.cpuprobe B = false) {rows parsed : List (Record B)}
    (hparsed : (name.stack B).parsed text = some parsed)
    (hrows : (name.stack B).recorded d s m text = some rows) :
    (∀ row ∈ rows, row "valid" = .bool true → row (name.stack B).headline ≠ .none) ↔
      ∀ p ∈ parsed, name.Passes s text p → p (name.stack B).headline ≠ .none := by
  rw [Stack.recorded_eq, hparsed, Option.map_some, Option.some_inj] at hrows
  subst hrows
  -- the rows are the texts' readings, finished one by one
  have hrow : (∀ row ∈ parsed.mapIdx ((name.stack B).finish d s m text),
      row "valid" = .bool true → row (name.stack B).headline ≠ .none) ↔
      ∀ n p, parsed[n]? = some p → (name.stack B).finish d s m text n p "valid" = .bool true →
        (name.stack B).finish d s m text n p (name.stack B).headline ≠ .none := by
    constructor
    · intro hall n p hp
      refine hall _ (List.mem_mapIdx.mpr ?_)
      obtain ⟨hn, rfl⟩ := List.getElem?_eq_some_iff.mp hp
      exact ⟨n, hn, rfl⟩
    · intro hall row hmem
      obtain ⟨n, hn, rfl⟩ := List.mem_mapIdx.mp hmem
      exact hall n _ (List.getElem?_eq_getElem hn)
  rw [hrow]
  by_cases h : name.IsTransfer
  · have hgbps : ∀ n p, (name.stack B).finish d s m text n p (name.stack B).headline =
        p (name.stack B).headline := by
      intro n p
      have hheadline : (name.stack B).headline = "gbps" := by
        cases name <;> first | rfl | exact h.elim
      rw [hheadline, Stack.finish, record_of_not_mem (by decide), merge_gate h hs (by decide)]
    simp only [valid_finish_iff h hs, hgbps]
    constructor
    · intro hall p hp
      obtain ⟨n, hn⟩ := List.mem_iff_getElem?.mp hp
      exact hall n p hn
    · exact fun hall n p hp => hall p (List.mem_of_getElem? hp)
  · refine ⟨fun _ p _ hpasses => ?_, fun _ n p _ => headline_of_valid h hs hprobe⟩
    cases name <;> first | exact hpasses.elim | exact absurd trivial h

/-! ## A run of linux-s3 -/

/-- One connection of one worker. -/
def smallSetting : Setting :=
  { launched := ⟨"spot", "eu-central-1a", "i-1", "run.log", false⟩
    server := none
    benchZone := none
    ip := ""
    cfg := [("workers", .int 1), ("conns", .int 1), ("block", .int 1), ("blocks", .int 0),
      ("mode", .str "stock")] }

def smallMarks : Marks := ⟨"2026-10-01T00:00:00+00:00", "c6in.8xlarge", "conns", .int 1, 1, ""⟩

/-- No division is made. -/
def noDivision : Division Builtins.exact := ⟨fun _ _ => .none, fun _ _ => .none⟩

/-- Without the line of the figure. -/
def lostAggregate : List Char := "misrouted rx : 0\nCOMPLETE:\n".toList

def withAggregate : List Char :=
  "AGGREGATE: 1 MiB in 1 s => 1 MB/s, 8 Gbps\n".toList ++ lostAggregate

theorem smallSetting_of : smallSetting.Of (BenchName.linuxS3.stack Builtins.exact) := rfl

/-- With the line, the row is valid and has its figure. -/
theorem valid_measures_iff_aggregate :
    ∃ rows, (BenchName.linuxS3.stack Builtins.exact).recorded noDivision smallSetting smallMarks
        withAggregate = some rows ∧
      ∀ row ∈ rows, row "valid" = .bool true → row "gbps" ≠ .none := by
  have hsome : ((BenchName.linuxS3.stack Builtins.exact).parsed withAggregate).any
      (fun parsed => parsed.all fun p => p "gbps" ≠ .none) = true := by
    have hlost : lostAggregate = _ := String.toList_ofList
    have hwith : withAggregate = _ ++ lostAggregate :=
      congrArg (· ++ lostAggregate) String.toList_ofList
    rewrite [hwith, hlost]
    decide
  obtain ⟨parsed, hparsed, hall⟩ := (Option.any_eq_true _ _).mp hsome
  have hrows := (BenchName.linuxS3.stack Builtins.exact).recorded_eq noDivision smallSetting
    smallMarks withAggregate
  rw [hparsed, Option.map_some] at hrows
  refine ⟨_, hrows, (valid_measures_iff smallSetting_of (by decide) hparsed hrows).mpr ?_⟩
  intro p hp _
  exact of_decide_eq_true (List.all_eq_true.mp hall p hp)

/-- Without it, the row is valid all the same. -/
theorem valid_without_headline :
    ∃ rows row, (BenchName.linuxS3.stack Builtins.exact).recorded noDivision smallSetting
        smallMarks lostAggregate = some rows ∧ row ∈ rows ∧ smallSetting.cpuprobe Builtins.exact = false ∧
      row "valid" = .bool true ∧ row "gbps" = .none := by
  have hsome : ((BenchName.linuxS3.stack Builtins.exact).recorded noDivision smallSetting
      smallMarks lostAggregate).any (fun rows => rows.any fun row =>
        row "valid" = .bool true ∧ row "gbps" = .none) = true := by
    have hlost : lostAggregate = _ := String.toList_ofList
    rewrite [hlost]
    decide
  obtain ⟨rows, hrows, hany⟩ := (Option.any_eq_true _ _).mp hsome
  obtain ⟨row, hmem, hrow⟩ := List.any_eq_true.mp hany
  obtain ⟨hvalid, hgbps⟩ := of_decide_eq_true hrow
  exact ⟨rows, row, hrows, hmem, by decide, hvalid, hgbps⟩

end Runner
