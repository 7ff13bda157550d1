import MiniosvCtrl.Bench.Results
import MiniosvCtrl.Properties.Measured

/-!
# Whether a parity run had parity

duckdb-linux may be asked to turn GRO off and for a number of queues. The guest prints what the NIC
ends up with, once in a boot, and the driver merges it into every row and compares.

* `SaysGro`, `SaysQueues` — what a line says of the NIC
* `Parity` — the NIC's line reports what was asked for, and no line reports a failure
* `nic_shown` — where a row has its fields of the NIC from
* `parity_iff` — when a valid row had parity
-/

namespace DuckdbLinux

open Infra Infra.Regex Runner Tpch

variable {B : Builtins} {d : Division B} {s : Setting} {m : Marks} {text t : List Char}
  {p : Record B} {n : Nat}

/-! ## What is printed of the NIC -/

/-- `\\S` -/
def isSolid (c : Char) : Bool := !isSpace c

/-- `nic: iface=... gro=...` -/
def groPieces : List Piece :=
  [.text "nic: iface=", .run isSolid, .text " gro=", .keep isSolid]

/-- `nic: iface=... gro=... combined=...` -/
def queuesPieces (B : Builtins) : List Piece :=
  [.text "nic: iface=", .run isSolid, .text " gro=", .run isSolid, .text " combined=",
    .keep B.digit]

def failedPieces : List Piece := [.text "nic", .text ": ", .text "", .mark "FAILED".toList]

/-- The line says that this is the state of GRO. -/
def SaysGro (l g : List Char) : Prop := Reads groPieces l [g]

/-- The line says that the NIC has so many combined queues. -/
def SaysQueues (B : Builtins) (l : List Char) (n : Nat) : Prop :=
  ∃ ds, Reads (queuesPieces B) l [ds] ∧ B.natOf ds = n

/-- The line reports that the NIC could not be set up. -/
def SaysFailed (l : List Char) : Prop := "nic: FAILED".toList <+: l

variable (B) in
/-- `gro` is set. -/
def AsksGro (s : Setting) : Prop := (s.get B "gro").truthy = true

variable (B) in
/-- `queues` is set. -/
def AsksQueues (s : Setting) : Prop := (s.get B "queues").truthy = true

variable (B) in
/-- The state of GRO that was asked for. -/
def askedGro (s : Setting) : List Char := (s.get B "gro").text.toList

variable (B) in
/-- `int` of the number of queues that was asked for. -/
def askedQueues (s : Setting) : Option Value := intKnob B (s.get B "queues").text

variable (B) in
/-- The line reports what was asked for. -/
structure Reports (s : Setting) (l : List Char) : Prop where
  gro : AsksGro B s → SaysGro l (askedGro B s)
  queues : AsksQueues B s → ∃ n : Nat, askedQueues B s = some (.int n) ∧ SaysQueues B l n

variable (B) in
/-- The boot's line of the NIC reports what was asked for, and no failure is reported. -/
structure Parity (s : Setting) (text : List Char) : Prop where
  tuned : ∀ l ∈ lines text, ¬ SaysFailed l
  reported : ∃ l ∈ lines text, Reports B s l
  gro_alone : AsksGro B s → ∀ l ∈ lines text, ∀ g, SaysGro l g → g = askedGro B s
  queues_alone : AsksQueues B s →
    ∀ l ∈ lines text, ∀ n : Nat, SaysQueues B l n → askedQueues B s = some (.int n)

variable (B) in
/-- No two lines contradict each other, and what was asked for is not what stands for a line that
is missing: `str(None)`, or `-1`. -/
structure Settled (s : Setting) (text : List Char) : Prop where
  gro : AsksGro B s → ∀ l ∈ lines text, ∀ l' ∈ lines text, ∀ g g', SaysGro l g → SaysGro l' g' →
    g = g'
  queues : AsksQueues B s → ∀ l ∈ lines text, ∀ l' ∈ lines text, ∀ n n', SaysQueues B l n →
    SaysQueues B l' n' → n = n'
  none : AsksGro B s → askedGro B s = "None".toList → ∃ l ∈ lines text, ∃ g, SaysGro l g
  minus : AsksQueues B s → askedQueues B s ≠ some (.int (-1))

/-! ## The metrics -/

def groMetric : Metric :=
  ⟨"nic_gro", .seqs [.bol, .text "nic: iface=", solid, .text " gro=", .group solid], .str⟩

variable (B) in
def queuesMetric : Metric :=
  ⟨"nic_queues", .seqs [.bol, .text "nic: iface=", solid, .text " gro=", solid,
    .text " combined=", .group (digits B)], .int⟩

def failedMetric : Metric := ⟨"nic_tune_failed", leading "nic" "" (.text "FAILED"), .str⟩

theorem nic_eq : nic B = [groMetric, queuesMetric B, failedMetric] := rfl

theorem stops_space (s : List Char) : Stops isSolid (' ' :: s) := by
  simp [Stops, isSolid, isSpace]

theorem groMetric_is : groMetric.Is groPieces where
  bound := by simp [groMetric, seqs, Regex.text, LineBound, solid, plus, isSpace]
  anchored := trivial
  is := fun _ => rfl
  firm := ⟨stops_space _, trivial⟩
  one := rfl

theorem queuesMetric_is : (queuesMetric B).Is (queuesPieces B) where
  bound := by
    simp [queuesMetric, seqs, Regex.text, LineBound, solid, plus, isSpace, digits, digit_line]
  anchored := trivial
  is := fun _ => rfl
  firm := ⟨stops_space _, stops_space _, trivial⟩
  one := rfl

theorem failedMetric_is : failedMetric.Is failedPieces where
  bound := by simp [failedMetric, leading, seqs, Regex.text, LineBound]
  anchored := trivial
  is := fun _ => rfl
  firm := trivial
  one := rfl

theorem failed_iff {l : List Char} : SaysFailed l ↔ ∃ g, Reads failedPieces l [g] := by
  constructor
  · rintro ⟨rest, rfl⟩
    exact ⟨_, _, rfl, _, rfl, _, rfl, _, _, rfl, rfl, rfl⟩
  · rintro ⟨g, a, rfl, b, rfl, c, rfl, rest, _, rfl, -, -⟩
    exact ⟨rest, rfl⟩

theorem SaysQueues.gro {l : List Char} (h : SaysQueues B l n) : ∃ g, SaysGro l g := by
  obtain ⟨ds, ⟨a, rfl, iface, b, rfl, hiface, c, rfl, g, rest, rfl, hg, -⟩, -⟩ := h
  exact ⟨g, _, rfl, _, _, rfl, hiface, _, rfl, _, _, _, rfl, hg, rfl, rfl⟩

/-! ## Where a row has its fields of the NIC from -/

theorem putAll_filled {names : List Name} (hn : names.Nodup) (c : Name → Bool)
    (f : Name → Scalar B) (r : Record B) {key : Name} (hkey : key ∈ names) :
    r.putAll (names.filterMap fun k => if c k then some (k, f k) else none) key =
      if c key then f key else r key := by
  have hfst : (names.filterMap fun k => if c k then some (k, f k) else none).map Prod.fst =
      names.filter c := by
    rw [List.map_filterMap, ← List.filterMap_eq_filter]
    refine congrArg (List.filterMap · names) (funext fun k => ?_)
    cases hc : c k <;> simp [Option.guard, hc]
  split
  · rename_i hc
    refine putAll_of_mem (hfst ▸ hn.filter c) (List.mem_filterMap.mpr ⟨key, hkey, ?_⟩) r
    rw [if_pos hc]
  · rename_i hc
    refine putAll_of_not_mem (fun hmem => hc ?_) r
    rw [hfst] at hmem
    exact (List.mem_filter.mp hmem).2

/-- What `main` and the driver leave alone of the NIC. -/
theorem not_mem_nic {key : Name} (hkey : key ∈ (nic B).map Metric.name) :
    key ∉ markNames ∧ key ∉ BenchName.duckdbLinux.knobNames ∧
      key ∉ ["market", "zone", "complete", "instance_id", "log", "interrupted"] ∧
      key ∉ plainNames ∧ key ∉ ["query_ms", "query_ms_from_summary"] := by
  have hall : ∀ key ∈ ["nic_gro", "nic_queues", "nic_tune_failed"], key ∉ markNames ∧
      key ∉ BenchName.duckdbLinux.knobNames ∧
      key ∉ ["market", "zone", "complete", "instance_id", "log", "interrupted"] ∧
      key ∉ plainNames ∧ key ∉ ["query_ms", "query_ms_from_summary"] := by
    decide
  exact hall key hkey

/-- Fields of the NIC, of the row that the gate sees. -/
theorem nic_field (hs : s.Of (stack B)) {key : Name} (hkey : key ∈ (nic B).map Metric.name) :
    s.merge m (p.putAll ((stack B).sets s text n p)) key =
      p.putAll (if (heads B text).length ≤ 1 then [] else runwide B text p) key := by
  obtain ⟨hmark, hknob, hown, hplain, hmissed⟩ := not_mem_nic hkey
  have hquery : key ∉ (Tpch.query B (heads B text) n).map Prod.fst := fun h =>
    hplain (map_fst_query _ _ key h)
  have hsummary : key ∉ (fromSummary B p).map Prod.fst := by
    unfold fromSummary
    split
    · exact hmissed
    · exact List.not_mem_nil
  have hcfg : key ∉ s.cfg.map Prod.fst := by
    rw [hs]
    exact fun h => hknob (map_name_knobs (B := B) .duckdbLinux ▸ h)
  rw [merge_of_not_mem hmark hcfg]
  show p.putAll (_ ++ _ ++ _ ++ _) key = _
  rw [putAll_append]
  refine putAll_congr ?_ _
  rw [putAll_append, putAll_of_not_mem hsummary, putAll_append, putAll_of_not_mem hquery]
  exact putAll_of_not_mem hown p

/-- A field of the NIC was read off the console, and if it is empty there is no line with it. -/
theorem nic_shown (hs : s.Of (stack B)) {blocks : List (List Char)}
    (hblocks : (stack B).blocks text = some blocks) (ht : blocks[n]? = some t)
    (hp : parse B (metrics B) t = some p) {metric : Metric} (hmetric : metric ∈ nic B)
    {v : Scalar B} (hv : s.merge m (p.putAll ((stack B).sets s text n p)) metric.name = v) :
    (∃ t', (∀ l ∈ lines t', l = [] ∨ l ∈ lines text) ∧ metric.read B t' = some v) ∧
      (v = .none → metric.read B text = some .none) := by
  have hmem : metric ∈ metrics B := by
    rw [metrics, overlay]
    exact List.mem_append_right _ (List.mem_append_left _ hmetric)
  have hread : metric.read B t = some (p metric.name) := Arm.duckdbLinux.read hp hmem
  have harm : (Arm.duckdbLinux.stack B).blocks text = some blocks := hblocks
  have hlines := Arm.mem_lines_of_block harm (List.mem_of_getElem? ht)
  rw [nic_field hs (List.mem_map_of_mem hmetric)] at hv
  have hlength : (heads B text).length = (Arm.duckdbLinux.queries B text).length := by
    rw [← length_begins, ← Arm.heads_eq]
    rfl
  -- one query has the whole log as its block; of several, each has its own lines
  rcases Arm.blocks_cases harm with ⟨hle, rfl⟩ | ⟨hlt, -, -⟩
  · rw [if_pos (hlength ▸ hle)] at hv
    obtain rfl : t = text := (List.mem_singleton.mp (List.mem_of_getElem? ht))
    have hv : p metric.name = v := hv
    rw [hv] at hread
    exact ⟨⟨t, hlines, hread⟩, fun hnone => hnone ▸ hread⟩
  · have hmany : ¬ (heads B text).length ≤ 1 := by omega
    obtain ⟨boot, hboot⟩ : ∃ boot, parse B (nic B) text = some boot := by
      have hblocks : (if _ then Tpch.blocks B _ text else none) = some blocks := hblocks
      split at hblocks
      · rename_i h
        exact Option.isSome_iff_exists.mp (h.resolve_left hmany)
      · cases hblocks
    have hnic : ((nic B).map Metric.name).Nodup := by
      show ["nic_gro", "nic_queues", "nic_tune_failed"].Nodup
      decide
    have hwhole : metric.read B text = some (boot metric.name) := read_of_parse hnic hboot hmetric
    -- what a block lacks is filled from the whole log
    have hrunwide : runwide B text p = ((nic B).map Metric.name).filterMap fun k =>
        if !(boot k).isNone && (p k == .none || p k == .str "") then some (k, boot k) else none := by
      rw [runwide, hboot]
    rw [if_neg hmany, hrunwide, putAll_filled hnic _ _ _ (List.mem_map_of_mem hmetric)] at hv
    split at hv
    · rename_i hfill
      rw [hv] at hwhole
      refine ⟨⟨text, fun _ h => .inr h, hwhole⟩, fun hnone => hnone ▸ hwhole⟩
    · rename_i hfill
      rw [hv] at hread
      refine ⟨⟨t, hlines, hread⟩, fun hnone => ?_⟩
      rw [hv, hnone] at hfill
      rw [hwhole]
      cases hmissing : boot metric.name <;> simp_all [Scalar.isNone]

/-- Either a line of the console shows the field, or no line of it does and it is missing. -/
theorem nic_cases (hs : s.Of (stack B)) {blocks : List (List Char)}
    (hblocks : (stack B).blocks text = some blocks) (ht : blocks[n]? = some t)
    (hp : parse B (metrics B) t = some p) {metric : Metric} (hmetric : metric ∈ nic B)
    {ps : List Piece} (his : metric.Is ps) (hnil : ∀ gs, ¬ Reads ps [] gs) {v : Scalar B}
    (hv : s.merge m (p.putAll ((stack B).sets s text n p)) metric.name = v) :
    (∃ l ∈ lines text, ∃ g, Reads ps l [g] ∧ metric.cast.apply B g = some v) ∨
      (Nowhere ps (lines text) ∧ v = .none) := by
  obtain ⟨⟨t', hlines, hread⟩, hnone⟩ := nic_shown hs hblocks ht hp hmetric hv
  rcases his.read_cases (B := B) t' with ⟨g, hfirst, hg⟩ | ⟨-, hg⟩
  · obtain ⟨l, hl, hreads⟩ := hfirst.exists_mem
    rcases hlines l hl with rfl | hl
    · exact absurd hreads (hnil _)
    · exact .inl ⟨l, hl, g, hreads, hg ▸ hread⟩
  · have hv : v = .none := Option.some_inj.mp (hread.symm.trans hg)
    rcases his.read_cases (B := B) text with ⟨g, -, hg⟩ | ⟨hnowhere, -⟩
    · exact absurd (hg.symm.trans (hnone hv)) (Cast.apply_ne_none _ _)
    · exact .inr ⟨hnowhere, hv⟩

/-! ## The gate -/

/-- What the gate asks of a row's fields of the NIC. -/
structure Gate (s : Setting) (row : Record B) : Prop where
  failed : (row "nic_tune_failed").truthy = false
  gro : AsksGro B s → askedGro B s = (row "nic_gro").text.toList
  queues : AsksQueues B s → ∃ k : Int, askedQueues B s = some (.int k) ∧
    Scalar.int k = (row "nic_queues").or (.int (-1))

theorem gate_of_valid (hs : s.Of (stack B)) {row : Record B}
    (hvalid : valid B (s.merge m row) = true) (hprobe : cpuprobe B (s.merge m row) = false) :
    Gate s (s.merge m row) := by
  have hgro : s.merge m row "gro" = s.get B "gro" :=
    merge_knob hs (by simp [stack, bench]) (by decide) row
  have hqueues : s.merge m row "queues" = s.get B "queues" :=
    merge_knob hs (by simp [stack, bench]) (by decide) row
  rw [valid, hprobe, if_neg Bool.false_ne_true] at hvalid
  simp only [Bool.and_eq_true, Bool.not_eq_true', Bool.and_eq_false_iff, hgro, hqueues] at hvalid
  obtain ⟨-, ⟨⟨-, hfailed⟩, hgate⟩, hdiffer⟩ := hvalid
  refine ⟨hfailed, fun hasks => ?_, fun hasks => ?_⟩
  · rcases hgate with h | h
    · rw [AsksGro, h] at hasks
      cases hasks
    · rw [askedGro, bne_eq_false_iff_eq.mp h]
  · rcases hdiffer with h | h
    · rw [AsksQueues, h] at hasks
      cases hasks
    · rw [valid.queuesDiffer, hqueues] at h
      split at h
      · rename_i k hk
        exact ⟨k, hk, bne_eq_false_iff_eq.mp h⟩
      · cases h

theorem lines_cases (hgate : Gate s (s.merge m (p.putAll ((stack B).sets s text n p))))
    (hs : s.Of (stack B)) {blocks : List (List Char)}
    (hblocks : (stack B).blocks text = some blocks) (ht : blocks[n]? = some t)
    (hp : parse B (metrics B) t = some p) :
    (∀ l ∈ lines text, ¬ SaysFailed l) ∧
    (AsksGro B s → (∃ l ∈ lines text, SaysGro l (askedGro B s)) ∨
      (∀ l ∈ lines text, ∀ g, ¬ SaysGro l g) ∧ askedGro B s = "None".toList) ∧
    (AsksQueues B s →
      (∃ l ∈ lines text, ∃ k : Nat, askedQueues B s = some (.int k) ∧ SaysQueues B l k) ∨
      askedQueues B s = some (.int (-1))) := by
  refine ⟨fun l hl hfailed => ?_, fun hasks => ?_, fun hasks => ?_⟩
  · obtain ⟨g, hg⟩ := failed_iff.mp hfailed
    -- a line of a failure would set the column that the gate looks at
    rcases nic_cases hs hblocks ht hp (by rw [nic_eq]; simp) failedMetric_is
      (fun g h => by obtain ⟨_, h, -⟩ := h; cases h) rfl with ⟨l', -, g', hg', hv⟩ | ⟨hnowhere, -⟩
    · obtain ⟨_, _, _, _, _, _, _, _, _, hmark, -⟩ := hg'
      obtain rfl := (List.cons.inj hmark).1
      have hv : s.merge m _ "nic_tune_failed" = .str "FAILED" := (Option.some_inj.mp hv).symm
      have hfalse := hgate.failed
      rw [hv] at hfalse
      cases hfalse
    · exact hnowhere l hl [g] hg
  · have hgro := hgate.gro hasks
    rcases nic_cases hs hblocks ht hp (by rw [nic_eq]; simp) groMetric_is
      (fun g h => by obtain ⟨_, h, -⟩ := h; cases h) rfl with ⟨l, hl, g, hg, hv⟩ | ⟨hnowhere, hv⟩
    · have hv : s.merge m _ "nic_gro" = .str (String.ofList g) := (Option.some_inj.mp hv).symm
      rw [hv] at hgro
      have hasked : askedGro B s = g := by rw [hgro, Scalar.text, String.toList_ofList]
      exact .inl ⟨l, hl, hasked ▸ hg⟩
    · have hv : s.merge m _ "nic_gro" = .none := hv
      rw [hv] at hgro
      exact .inr ⟨fun l hl g => hnowhere l hl [g], hgro⟩
  · obtain ⟨k, hk, hqueues⟩ := hgate.queues hasks
    rcases nic_cases hs hblocks ht hp (by rw [nic_eq]; simp) (queuesMetric_is (B := B))
      (fun g h => by obtain ⟨_, h, -⟩ := h; cases h) rfl with ⟨l, hl, ds, hds, hv⟩ | ⟨-, hv⟩
    · have hv : Cast.int.apply B ds = some _ := hv
      rw [Cast.apply_int] at hv
      obtain ⟨c, hc, hv⟩ := Option.map_eq_some_iff.mp hv
      have hv : s.merge m _ "nic_queues" = .int c := hv.symm
      -- `int` succeeded, so the digits are few enough and mean the number
      have hcount : B.natOf ds = c := by
        unfold Builtins.int at hc
        split at hc
        · exact Option.some_inj.mp hc
        · cases hc
      -- a count of 0 is false, and `-1` takes its place
      rw [hv, Scalar.or] at hqueues
      split at hqueues
      · obtain rfl : k = (c : Int) := Scalar.int.inj hqueues
        exact .inl ⟨l, hl, c, hk, ds, hds, hcount⟩
      · obtain rfl : k = -1 := Scalar.int.inj hqueues
        exact .inr hk
    · have hv : s.merge m _ "nic_queues" = .none := hv
      rw [hv] at hqueues
      obtain rfl : k = -1 := Scalar.int.inj hqueues
      exact .inr hk

/-- No NIC has a negative number of queues. -/
theorem not_parity_of_minus (hasks : AsksQueues B s) (h : askedQueues B s = some (.int (-1))) :
    ¬ Parity B s text := by
  intro hparity
  obtain ⟨l, -, hreports⟩ := hparity.reported
  obtain ⟨k, hk, -⟩ := hreports.queues hasks
  rw [h, Option.some_inj, Value.int.injEq] at hk
  omega

/-- **A valid row of a parity run had parity exactly when no two of the console's lines of the NIC
contradict each other, and what was asked for is not what stands for a line that is missing.** -/
theorem parity_iff (hs : s.Of (stack B)) {rows : List (Record B)}
    (hrows : (stack B).recorded d s m text = some rows) {row : Record B} (hrow : row ∈ rows)
    (hvalid : row "valid" = .bool true) (hprobe : cpuprobe B row = false) :
    Parity B s text ↔ Settled B s text := by
  obtain ⟨n, hn⟩ := List.mem_iff_getElem?.mp hrow
  obtain ⟨blocks, t, p, hblocks, ht, hp, rfl⟩ := Stack.parsed_of_recorded hrows hn
  rw [Stack.finish] at hvalid hprobe
  rw [record_valid, Scalar.bool.injEq] at hvalid
  rw [cpuprobe, record_of_not_mem (by decide)] at hprobe
  obtain ⟨htuned, hgro, hqueues⟩ :=
    lines_cases (gate_of_valid hs hvalid hprobe) hs hblocks ht hp
  constructor
  · intro h
    refine ⟨fun hasks l hl l' hl' g g' hg hg' => ?_, fun hasks l hl l' hl' n n' hn hn' => ?_,
      fun hasks _ => ?_, fun hasks hminus => not_parity_of_minus hasks hminus h⟩
    · rw [h.gro_alone hasks l hl g hg, h.gro_alone hasks l' hl' g' hg']
    · have heq := (h.queues_alone hasks l hl n hn).symm.trans (h.queues_alone hasks l' hl' n' hn')
      exact Int.ofNat_inj.mp (by simpa using heq)
    · obtain ⟨l, hl, hreports⟩ := h.reported
      exact ⟨l, hl, _, hreports.gro hasks⟩
  · intro h
    have hgro : AsksGro B s → ∃ l ∈ lines text, SaysGro l (askedGro B s) := by
      intro hasks
      rcases hgro hasks with hgro | ⟨hnowhere, hnone⟩
      · exact hgro
      · obtain ⟨l, hl, g, hg⟩ := h.none hasks hnone
        exact absurd hg (hnowhere l hl g)
    have hqueues : AsksQueues B s →
        ∃ l ∈ lines text, ∃ k : Nat, askedQueues B s = some (.int k) ∧ SaysQueues B l k :=
      fun hasks => (hqueues hasks).resolve_right (h.minus hasks)
    refine ⟨htuned, ?_, fun hasks l hl g hg => ?_, fun hasks l hl k hk => ?_⟩
    · -- a line that says how many queues there are says the state of GRO too
      by_cases hasks : AsksQueues B s
      · obtain ⟨l, hl, k, hk, hsays⟩ := hqueues hasks
        refine ⟨l, hl, fun hasks => ?_, fun _ => ⟨k, hk, hsays⟩⟩
        obtain ⟨l', hl', hg'⟩ := hgro hasks
        obtain ⟨g, hg⟩ := hsays.gro
        rwa [h.gro hasks l' hl' l hl _ g hg' hg]
      · by_cases hasks' : AsksGro B s
        · obtain ⟨l, hl, hg⟩ := hgro hasks'
          exact ⟨l, hl, fun _ => hg, fun h => absurd h hasks⟩
        · obtain ⟨l, hl⟩ := List.exists_mem_of_ne_nil _ (lines_ne_nil text)
          exact ⟨l, hl, fun h => absurd h hasks', fun h => absurd h hasks⟩
    · obtain ⟨l', hl', hg'⟩ := hgro hasks
      exact h.gro hasks l hl l' hl' g _ hg hg'
    · obtain ⟨l', hl', k', hk', hsays⟩ := hqueues hasks
      rw [h.queues hasks l hl l' hl' k k' hk hsays, hk']

/-! ## Two boots -/

/-- Two queries, with these settings of the NIC. -/
def paritySetting (gro queues : String) : Setting :=
  { launched := ⟨"spot", "eu-central-1a", "i-1", "run.log", false⟩
    server := none
    benchZone := none
    ip := ""
    cfg := [("query", .str "1 6"), ("sf", .str "1"), ("pin", .str ""), ("gro", .str gro),
      ("queues", .str queues), ("httplog", .str ""), ("netphase", .str ""),
      ("cpuprobe", .str ""), ("threads", .int 0), ("scheme", .str "https")] }

def parityMarks : Marks := ⟨"2026-10-01T00:00:00+00:00", "c6in.8xlarge", "query", .str "1 6", 1, ""⟩

def parityDivision : Division Builtins.exact := ⟨fun _ _ => .none, fun _ _ => .none⟩

def bothQueries : List Char :=
  "Q01: 5 ms, 4 rows, match=yes\nQ06: 3 ms, 1 rows, match=yes\nCOMPLETE:\n".toList

theorem paritySetting_of (gro queues : String) :
    (paritySetting gro queues).Of (stack Builtins.exact) := rfl

theorem valid_row {gro queues : String} {text : List Char}
    (h : ((stack Builtins.exact).recorded parityDivision (paritySetting gro queues) parityMarks
      text).any (fun rows => rows.any fun row => row "valid" = .bool true ∧
        cpuprobe Builtins.exact row = false) = true) :
    ∃ rows row, (stack Builtins.exact).recorded parityDivision (paritySetting gro queues)
        parityMarks text = some rows ∧ row ∈ rows ∧ row "valid" = .bool true ∧
      cpuprobe Builtins.exact row = false := by
  obtain ⟨rows, hrows, hany⟩ := (Option.any_eq_true _ _).mp h
  obtain ⟨row, hmem, hrow⟩ := List.any_eq_true.mp hany
  obtain ⟨hvalid, hprobe⟩ := of_decide_eq_true hrow
  exact ⟨rows, row, hrows, hmem, hvalid, hprobe⟩

def tunedConsole : List Char := "nic: iface=ens5 gro=off combined=4\n".toList ++ bothQueries

/-- The NIC was set up before the queries. -/
theorem parity_iff_tuned :
    ∃ rows row, (stack Builtins.exact).recorded parityDivision (paritySetting "off" "4")
        parityMarks tunedConsole = some rows ∧ row ∈ rows ∧ row "valid" = .bool true ∧
      (Parity Builtins.exact (paritySetting "off" "4") tunedConsole ↔
        Settled Builtins.exact (paritySetting "off" "4") tunedConsole) := by
  have hboth : bothQueries = _ := String.toList_ofList
  have htuned : tunedConsole = _ ++ bothQueries :=
    congrArg (· ++ bothQueries) String.toList_ofList
  obtain ⟨rows, row, hrows, hmem, hvalid, hprobe⟩ :=
    valid_row (by rewrite [htuned, hboth]; decide +kernel : ((stack Builtins.exact).recorded
      parityDivision (paritySetting "off" "4") parityMarks tunedConsole).any _ = true)
  exact ⟨rows, row, hrows, hmem, hvalid,
    parity_iff (paritySetting_of "off" "4") hrows hmem hvalid hprobe⟩

/-- Asked for -1 queues, a row is valid without any line of the NIC. -/
theorem not_parity_minus : ∃ rows row,
    (paritySetting "" "-1").Of (stack Builtins.exact) ∧
      AsksQueues Builtins.exact (paritySetting "" "-1") ∧
      (stack Builtins.exact).recorded parityDivision (paritySetting "" "-1") parityMarks
        bothQueries = some rows ∧
      row ∈ rows ∧ row "valid" = .bool true ∧ cpuprobe Builtins.exact row = false ∧
      ¬ Parity Builtins.exact (paritySetting "" "-1") bothQueries := by
  have hboth : bothQueries = _ := String.toList_ofList
  obtain ⟨rows, row, hrows, hmem, hvalid, hprobe⟩ :=
    valid_row (by rewrite [hboth]; decide +kernel : ((stack Builtins.exact).recorded parityDivision
      (paritySetting "" "-1") parityMarks bothQueries).any _ = true)
  have hasks : AsksQueues Builtins.exact (paritySetting "" "-1") := rfl
  exact ⟨rows, row, paritySetting_of "" "-1", hasks, hrows, hmem, hvalid, hprobe,
    not_parity_of_minus hasks (by decide)⟩

end DuckdbLinux
