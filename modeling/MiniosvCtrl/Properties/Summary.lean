import MiniosvCtrl.Properties.Columns

/-!
# What linux-s3 prints is what its bench reads

Every metric's pattern finds its own line: the lines before it are passed over, whatever numbers,
errors and host they have. The figures are then the printed ones, and the gate of the row is that
of the run.

* `Report.find?_entries` — which line a metric finds
* `Report.Printable` — what is known of the texts from outside
* `Report.table` — what was printed, by the names of the columns
* `Report.parse_printed` — the row is the table, and valid when the run was complete
-/

namespace LinuxS3

open Infra Infra.Regex Runner

/-! ## The lines of a run -/

namespace Entry

/-- The lines of the NIC's counter. -/
def isWire : Entry → Bool
  | noIface | wire .. | steady .. | noWindow | peak _ => true
  | _ => false

theorem clean_of_isWire {e : Entry} (h : e.isWire = true) : e.Clean := by
  cases e with
  | fail => cases h
  | target => cases h
  | _ => trivial

end Entry

/-! ## Patterns on the lines of others -/

namespace Entry

def isAggregate : Entry → Bool
  | aggregate .. => true
  | _ => false

def isTransfer : Entry → Bool
  | transfer .. => true
  | _ => false

def isBlocks : Entry → Bool
  | blocks .. => true
  | _ => false

def isRun : Entry → Bool
  | wire .. => true
  | _ => false

def isSteady : Entry → Bool
  | steady .. => true
  | _ => false

def isPeak : Entry → Bool
  | peak _ => true
  | _ => false

/-- The rate of frames in a line of the wire. -/
def rate : Entry → Option Nat
  | wire gbps _ | steady gbps _ _ _ | peak gbps => some gbps
  | _ => none

theorem absent_of_isOutside {e : Entry} (h : e.isOutside = false) :
    ['C', 'P'] ∈ e.absent ∧ ['I', 'n'] ∈ e.absent ∧
      (e.isAggregate = false → ['A', 'G'] ∈ e.absent) ∧
      (e.isTransfer = false → ['T', 'R'] ∈ e.absent) ∧
      (e.isBlocks = false → ['b', 'y', 't', 'e', 's', ')'] ∈ e.absent) := by
  cases e with
  | fail => cases h
  | target => cases h
  | _ => simp [absent, isAggregate, isTransfer, isBlocks]

theorem free_aggregate {e : Entry} (he : e.Clean) (h : e.isAggregate = false) :
    Free "AGGREGATE:".toList e.line.chars := by
  have hpre : ['A', 'G'] <+: "AGGREGATE:".toList := ⟨_, rfl⟩
  exact free_line he (.head _) hpre (List.cons_ne_nil _ _) fun hout =>
    (absent_of_isOutside hout).2.2.1 h

theorem free_transfer {e : Entry} (he : e.Clean) (h : e.isTransfer = false) :
    Free "TRANSFER:".toList e.line.chars := by
  have hpre : ['T', 'R'] <+: "TRANSFER:".toList := ⟨_, rfl⟩
  exact free_line he (.tail _ (.head _)) hpre (List.cons_ne_nil _ _) fun hout =>
    (absent_of_isOutside hout).2.2.2.1 h

theorem free_cpu {e : Entry} (he : e.Clean) : Free "CPU:".toList e.line.chars := by
  have hpre : ['C', 'P'] <+: "CPU:".toList := ⟨_, rfl⟩
  exact free_line he (.tail _ (.tail _ (.head _))) hpre (List.cons_ne_nil _ _) fun hout =>
    (absent_of_isOutside hout).1

theorem free_running {e : Entry} (he : e.Clean) : Free "Instance running:".toList e.line.chars := by
  have hpre : ['I', 'n'] <+: "Instance running:".toList := ⟨_, rfl⟩
  exact free_line he (.tail _ (.tail _ (.tail _ (.head _)))) hpre (List.cons_ne_nil _ _)
    fun hout => (absent_of_isOutside hout).2.1

theorem free_bytes {e : Entry} (he : e.Clean) (h : e.isBlocks = false) :
    Free "bytes)".toList e.line.chars := by
  have hpre : ['b', 'y', 't', 'e', 's', ')'] <+: "bytes)".toList := ⟨_, rfl⟩
  exact free_line he (.tail _ (.tail _ (.tail _ (.tail _ (.head _))))) hpre
    (List.cons_ne_nil _ _) fun hout => (absent_of_isOutside hout).2.2.2.2 h

variable (B : Builtins)

theorem skips_run {e : Entry} (he : e.Clean) (h : e.isRun = false) :
    Skips (LinuxS3.wire B "gbps_wire" "WIRE").pattern e.line.chars := by
  have hcolon : Opens [':'] (.seqs [.text ": ", .group (figure B), .text " Gbps"]) :=
    (Opens.lit.shorter ⟨_, rfl⟩).seq
  have hopens : Opens ['W', 'I', 'R', 'E', ':'] (LinuxS3.wire B "gbps_wire" "WIRE").pattern :=
    Opens.bol (hcolon.lit_seq : Opens ("WIRE".toList ++ [':']) _)
  cases e with
  | wire => cases h
  | noIface => exact skips_noIface B
  | _ => exact skips_of_begins he trivial hopens rfl

theorem skips_steady {e : Entry} (he : e.Clean) (h : e.isSteady = false) :
    Skips (LinuxS3.wire B "gbps_wire_steady" "WIRE STEADY").pattern e.line.chars := by
  have hopens : Opens ['W', 'I', 'R', 'E', ' ', 'S']
      (LinuxS3.wire B "gbps_wire_steady" "WIRE STEADY").pattern :=
    Opens.bol (Opens.lit.shorter ⟨_, rfl⟩).seq
  cases e with
  | steady => cases h
  | noWindow => exact skips_noWindow B
  | _ => exact skips_of_begins he trivial hopens rfl

theorem skips_peak {e : Entry} (he : e.Clean) (h : e.isPeak = false) :
    Skips (LinuxS3.wire B "gbps_wire_peak" "WIRE PEAK").pattern e.line.chars := by
  have hopens : Opens ['W', 'I', 'R', 'E', ' ', 'P']
      (LinuxS3.wire B "gbps_wire_peak" "WIRE PEAK").pattern :=
    Opens.bol (Opens.lit.shorter ⟨_, rfl⟩).seq
  cases e with
  | peak => cases h
  | _ => exact skips_of_begins he trivial hopens rfl

end Entry

/-- No line of which there may be any number is one that is looked for. -/
structure Passes (own : Entry → Bool) : Prop where
  ignored : own .ignored = false
  fail : ∀ f, own (.fail f) = false
  unclean : ∀ w port received expected, own (.unclean w port received expected) = false
  more : ∀ n, own (.more n) = false
  worker : ∀ w bytes seconds rate, own (.worker w bytes seconds rate) = false

namespace Report

variable (F : Floats) (r : Report)

theorem isWire_of_mem {e : Entry} (h : e ∈ r.wireEntries F) : e.isWire = true := by
  rw [wireEntries, wireWindows] at h
  split at h
  · split at h
    · obtain rfl := List.mem_singleton.mp h
      rfl
    · rw [List.mem_cons, List.mem_cons, List.mem_singleton] at h
      rcases h with rfl | rfl | rfl
      · rfl
      · split
        · split <;> rfl
        · rfl
      · rfl
  · obtain rfl := List.mem_singleton.mp h
    rfl

/-- The lines that are printed once, before those of the wire. -/
def opens : List Entry :=
  [r.benchEntry, r.targetEntry, .note r.mode r.tuning r.cores, .blank, r.aggregateEntry F,
    r.transferEntry F]

/-- Those after them. -/
def closes : List Entry :=
  [.blank, r.connectionsEntry, .misrouted, .drops, r.setupEntry, r.dialEntry, r.blocksEntry,
    r.bytesEntry F, r.verdictEntry]

variable {F r} {own : Entry → Bool}

/-- **The line that is found is the first one of those that are printed once.** -/
theorem find?_entries (h : Passes own) : (r.entries F).find? own =
    (((r.opens F).find? own).or ((r.wireEntries F).find? own)).or ((r.closes F).find? own) := by
  -- none of the lines of which there may be any number is found
  have hignored : (if r.config.plain && r.stubAsked then [Entry.ignored] else []).find? own =
      none := by
    split
    · rw [List.find?_cons, h.ignored]
      rfl
    · rfl
  have hfails : (r.fails.map Entry.fail).find? own = none := by
    refine List.find?_eq_none.mpr fun e he => ?_
    obtain ⟨f, -, rfl⟩ := List.mem_map.mp he
    simp [h.fail f]
  have hunclean : r.uncleanEntries.find? own = none := by
    refine List.find?_eq_none.mpr fun e he => ?_
    rw [uncleanEntries, List.mem_append] at he
    rcases he with he | he
    · obtain ⟨o, -, rfl⟩ := List.mem_map.mp he
      simp [h.unclean]
    · split at he
      · obtain rfl := List.mem_singleton.mp he
        simp [h.more]
      · exact absurd he List.not_mem_nil
  have hworkers : ((List.range r.config.workers.toNat).map (r.workerEntry F)).find? own =
      none := by
    refine List.find?_eq_none.mpr fun e he => ?_
    obtain ⟨w, -, rfl⟩ := List.mem_map.mp he
    simp [workerEntry, h.worker]
  have hopens : (r.opens F).find? own =
      ([r.benchEntry, r.targetEntry, Entry.note r.mode r.tuning r.cores].find? own).or
        ([Entry.blank, r.aggregateEntry F, r.transferEntry F].find? own) := by
    rw [← List.find?_append]
    rfl
  rw [entries, List.find?_append, List.find?_append, List.find?_append, List.find?_append,
    List.find?_append, List.find?_append, List.find?_append, hignored, hfails, hunclean, hworkers,
    hopens, Option.none_or, Option.or_none, Option.or_none, Option.or_none]
  rfl

theorem find?_opens (h : Passes own) {e : Entry} (hopens : (r.opens F).find? own = some e) :
    (r.entries F).find? own = some e := by
  rw [find?_entries h, hopens]
  rfl

theorem find?_wire (h : ∀ e : Entry, e.isWire = true → own e = false) :
    (r.wireEntries F).find? own = none :=
  List.find?_eq_none.mpr fun e he => by simp [h e (isWire_of_mem F r he)]

theorem find?_closes (h : Passes own) (hwire : ∀ e : Entry, e.isWire = true → own e = false)
    (hopens : (r.opens F).find? own = none) :
    (r.entries F).find? own = (r.closes F).find? own := by
  rw [find?_entries h, hopens, find?_wire hwire]
  rfl

/-! ## The texts from outside -/

/-- What is known of them, and that there are no more connections than a vector holds. -/
structure Printable (r : Report) : Prop where
  length : r.conns.length < 2 ^ 64
  host : IsHost r.host
  fails : ∀ f ∈ r.fails, Plain f.error

theorem clean_of_mem (hr : r.Printable) {e : Entry} (he : e ∈ r.entries F) : e.Clean := by
  simp only [entries, List.mem_append, List.mem_cons, List.not_mem_nil, or_false] at he
  rcases he with ((((((he | rfl | rfl | rfl) | he) | he) | he) | rfl | rfl | rfl) | he) | he
  · split at he
    · obtain rfl := List.mem_singleton.mp he
      trivial
    · exact absurd he List.not_mem_nil
  · trivial
  · exact hr.host
  · trivial
  · obtain ⟨f, hf, rfl⟩ := List.mem_map.mp he
    exact hr.fails f hf
  · rw [uncleanEntries, List.mem_append] at he
    rcases he with he | he
    · obtain ⟨o, -, rfl⟩ := List.mem_map.mp he
      trivial
    · split at he
      · obtain rfl := List.mem_singleton.mp he
        trivial
      · exact absurd he List.not_mem_nil
  · obtain ⟨w, -, rfl⟩ := List.mem_map.mp he
    trivial
  · trivial
  · trivial
  · trivial
  · exact Entry.clean_of_isWire (isWire_of_mem F r he)
  · rcases he with rfl | rfl | rfl | rfl | rfl | rfl | rfl | rfl | rfl
    · trivial
    · trivial
    · trivial
    · trivial
    · trivial
    · trivial
    · trivial
    · rw [bytesEntry]
      split <;> trivial
    · rw [verdictEntry]
      split
      · split <;> trivial
      · trivial

/-! ## What a metric reads -/

theorem text_eq : r.text F = unlines ((r.entries F).map fun e => e.line.chars) := by
  rw [text, unlines, List.flatMap_map]

/-- **A search ends in the line that it is for.** -/
theorem search_text (hr : r.Printable) {p : Regex} {e : Entry} {gs : Groups}
    (hskip : ∀ e : Entry, e.Clean → own e = false → Skips p e.line.chars)
    (hfind : (r.entries F).find? own = some e) (hit : Hits p e.line.chars gs) :
    Yields (p.search (r.text F)) gs := by
  rw [text_eq]
  exact search_find (fun e he => hskip e (clean_of_mem hr he)) hfind hit

theorem search_text_none (hr : r.Printable) (own : Entry → Bool) {p : Regex} {s : List Char}
    (hskip : ∀ e : Entry, e.Clean → own e = false → Skips p e.line.chars)
    (hfind : (r.entries F).find? own = none) (ho : Opens s p) (hs : s ≠ []) :
    p.search (r.text F) = none := by
  rw [text_eq]
  exact search_find_none (fun e he => hskip e (clean_of_mem hr he)) hfind ho hs

theorem group1_eq (hr : r.Printable) {p : Regex} {e : Entry} {s : List Char}
    (hskip : ∀ e : Entry, e.Clean → own e = false → Skips p e.line.chars)
    (hfind : (r.entries F).find? own = some e) (hit : Hits p e.line.chars [s]) :
    p.group1 (r.text F) = some s :=
  (search_text hr hskip hfind hit).group1

theorem group1_eq_none (hr : r.Printable) (own : Entry → Bool) {p : Regex} {s : List Char}
    (hskip : ∀ e : Entry, e.Clean → own e = false → Skips p e.line.chars)
    (hfind : (r.entries F).find? own = none) (ho : Opens s p) (hs : s ≠ []) :
    p.group1 (r.text F) = none := by
  rw [Regex.group1, search_text_none hr own hskip hfind ho hs]
  rfl

/-! ## Line by line -/

theorem opens_line {label : String} {rest : Regex} {w : List Char} (h : w <+: label.toList) :
    Opens w (.seq .bol (.seq (.text label) rest)) :=
  Opens.bol ((Opens.lit.shorter h).seq)

/-- A pattern for the start of a line. -/
theorem group1_begins (hr : r.Printable) {label : String} {rest : Regex} {w s : List Char}
    {e : Entry} (hfind : (r.entries F).find? (Entry.begins w) = some e)
    (hit : Hits (.seq .bol (.seq (.text label) rest)) e.line.chars [s]) (hw : w <+: label.toList) :
    (Regex.seq .bol (.seq (.text label) rest)).group1 (r.text F) = some s :=
  group1_eq hr (fun _ he hown => Entry.skips_of_begins he trivial (opens_line hw) hown) hfind hit

/-- The beginnings that are looked for, those of the wire apart. -/
def beginnings : List (List Char) :=
  [['b', 'e'], ['t', 'a'], ['c'], ['m'], ['S'], ['D'], ['C', 'P'], ['C', 'O']]

theorem passes_begins {w : List Char} (hw : w ∈ beginnings) : Passes (Entry.begins w) := by
  simp only [beginnings, List.mem_cons, List.not_mem_nil, or_false] at hw
  rcases hw with rfl | rfl | rfl | rfl | rfl | rfl | rfl | rfl <;>
    exact ⟨rfl, fun _ => rfl, fun _ _ _ _ => rfl, fun _ => rfl, fun _ _ _ _ => rfl⟩

theorem begins_wire {w : List Char} (hw : w ∈ beginnings) {e : Entry} (he : e.isWire = true) :
    Entry.begins w e = false := by
  have hall : ∀ u ∈ [Entry.noIface.opening, (Entry.wire 0 0).opening,
      (Entry.steady 0 0 0 0).opening, Entry.noWindow.opening, (Entry.peak 0).opening],
      ∀ w ∈ beginnings, (w.isPrefixOf u || u.isPrefixOf w) = false := by decide
  cases e with
  | noIface => exact hall _ (.head _) w hw
  | wire => exact hall _ (.tail _ (.head _)) w hw
  | steady => exact hall _ (.tail _ (.tail _ (.head _))) w hw
  | noWindow => exact hall _ (.tail _ (.tail _ (.tail _ (.head _)))) w hw
  | peak => exact hall _ (.tail _ (.tail _ (.tail _ (.tail _ (.head _))))) w hw
  | _ => cases he

section Finds

variable (F r)

theorem find?_bench : (r.entries F).find? (Entry.begins ['b', 'e']) = some r.benchEntry :=
  find?_opens (passes_begins (by decide)) rfl

theorem find?_target : (r.entries F).find? (Entry.begins ['t', 'a']) = some r.targetEntry :=
  find?_opens (passes_begins (by decide)) rfl

theorem find?_connections : (r.entries F).find? (Entry.begins ['c']) = some r.connectionsEntry :=
  find?_closes (passes_begins (by decide)) (fun _ => begins_wire (by decide)) rfl

theorem find?_misrouted : (r.entries F).find? (Entry.begins ['m']) = some .misrouted :=
  find?_closes (passes_begins (by decide)) (fun _ => begins_wire (by decide)) rfl

theorem find?_setup : (r.entries F).find? (Entry.begins ['S']) = some r.setupEntry :=
  find?_closes (passes_begins (by decide)) (fun _ => begins_wire (by decide)) rfl

theorem find?_dial : (r.entries F).find? (Entry.begins ['D']) = some r.dialEntry :=
  find?_closes (passes_begins (by decide)) (fun _ => begins_wire (by decide)) rfl

theorem find?_aggregate : (r.entries F).find? Entry.isAggregate = some (r.aggregateEntry F) :=
  find?_opens ⟨rfl, fun _ => rfl, fun _ _ _ _ => rfl, fun _ => rfl, fun _ _ _ _ => rfl⟩ rfl

theorem find?_transfer : (r.entries F).find? Entry.isTransfer = some (r.transferEntry F) :=
  find?_opens ⟨rfl, fun _ => rfl, fun _ _ _ _ => rfl, fun _ => rfl, fun _ _ _ _ => rfl⟩ rfl

theorem find?_blocks : (r.entries F).find? Entry.isBlocks = some r.blocksEntry := by
  refine find?_closes ⟨rfl, fun _ => rfl, fun _ _ _ _ => rfl, fun _ => rfl, fun _ _ _ _ => rfl⟩
    (fun e he => ?_) rfl
  cases e with
  | blocks => cases he
  | _ => rfl

theorem find?_verdict : (r.entries F).find? (Entry.begins ['C', 'O']) =
    if complete r.config r.outcomes then some r.verdictEntry else none := by
  have hbytes : Entry.begins ['C', 'O'] (r.bytesEntry F) = false := by
    rw [bytesEntry]
    split <;> rfl
  have hstart : (r.closes F).find? (Entry.begins ['C', 'O']) =
      [r.bytesEntry F, r.verdictEntry].find? (Entry.begins ['C', 'O']) := rfl
  rw [find?_closes (passes_begins (by decide)) (fun _ => begins_wire (by decide)) rfl, hstart,
    List.find?_cons, hbytes]
  by_cases hcomplete : complete r.config r.outcomes = true
  · have hverdict : Entry.begins ['C', 'O'] r.verdictEntry = true := by
      rw [verdictEntry, if_pos hcomplete]
      split <;> rfl
    simp [hcomplete, hverdict]
  · have hverdict : Entry.begins ['C', 'O'] r.verdictEntry = false := by
      rw [verdictEntry, if_neg hcomplete]
      rfl
    simp [hcomplete, hverdict]

end Finds

/-- The rate in the first of the wire's lines of a kind. -/
def wireRate (F : Floats) (r : Report) (own : Entry → Bool) : Option Nat :=
  ((r.wireEntries F).find? own).bind Entry.rate

theorem find?_of_wire (h : ∀ e : Entry, own e = true → e.isWire = true) :
    (r.entries F).find? own = (r.wireEntries F).find? own := by
  have hnot : ∀ e : Entry, e.isWire = false → own e = false := fun e he => by
    cases hown : own e with
    | false => rfl
    | true =>
      rw [h e hown] at he
      cases he
  -- what is looked for is on the wire's lines only
  have hpasses : Passes own :=
    ⟨hnot _ rfl, fun _ => hnot _ rfl, fun _ _ _ _ => hnot _ rfl, fun _ => hnot _ rfl,
      fun _ _ _ _ => hnot _ rfl⟩
  have hopens : (r.opens F).find? own = none := by
    refine List.find?_eq_none.mpr fun e he => ?_
    have hw : e.isWire = false := by
      simp only [opens, List.mem_cons, List.not_mem_nil, or_false] at he
      rcases he with rfl | rfl | rfl | rfl | rfl | rfl <;> rfl
    simp [hnot e hw]
  have hcloses : (r.closes F).find? own = none := by
    refine List.find?_eq_none.mpr fun e he => ?_
    have hw : e.isWire = false := by
      simp only [closes, List.mem_cons, List.not_mem_nil, or_false] at he
      rcases he with rfl | rfl | rfl | rfl | rfl | rfl | rfl | rfl | rfl
      all_goals first | rfl | skip
      · rw [bytesEntry]
        split <;> rfl
      · rw [verdictEntry]
        split
        · split <;> rfl
        · rfl
    simp [hnot e hw]
  rw [find?_entries hpasses, hopens, hcloses, Option.none_or, Option.or_none]

/-! ## The row -/

section Row

variable {B : Builtins}

/-- `float` reads what is printed with so many places. -/
def Reads (B : Builtins) (value : Nat → Nat → B.Float) : Prop :=
  ∀ places units, B.float (fixedChars places units) = some (value places units)

variable (value : Nat → Nat → B.Float)

/-- A rate that there may not be. -/
def rateColumn : Option Nat → Scalar B
  | some units => .float (value 3 units)
  | none => .none

/-- What was printed, by the names of the columns. -/
def table (F : Floats) (r : Report) : List (Name × Scalar B) :=
  let b := totalB r.outcomes
  let setup := r.setupUs
  let dial := r.dialUs
  let ip := r.ip
  [("tls_stub", .bool r.config.stub),
    ("scheme", .str (if r.config.plain then "http" else "https")),
    ("gbps", .float (value 3 (F.gbps b r.overallNs))),
    ("transfer_gbps", .float (value 3 (F.transferGbps b r.overallNs setup.max))),
    ("cpu_s", .none), ("cpus_active", .none), ("gbps_per_cpu_s", .none),
    ("mb_per_s", .float (value 1 (F.rate b r.overallNs))),
    ("elapsed_s", .float (value 3 (F.seconds r.overallNs))),
    ("conns_clean", .int (connsClean r.outcomes).toNat),
    ("conns_total", .int (connsTotal r.outcomes).toNat), ("misrouted", .int 0),
    ("setup_conns", .int setup.n.toNat), ("setup_failed", .int r.failed),
    ("setup_us_avg", .int setup.avg.toNat), ("setup_us_p50", .int setup.p50.toNat),
    ("setup_us_p90", .int setup.p90.toNat), ("setup_us_max", .int setup.max.toNat),
    ("dial_n", .int dial.n.toNat), ("dial_us_avg", .int dial.avg.toNat),
    ("dial_us_p50", .int dial.p50.toNat), ("dial_us_p90", .int dial.p90.toNat),
    ("dial_us_max", .int dial.max.toNat), ("dial_loop_ms", .float (value 1 0)),
    ("gbps_transfer", .float (value 3 (F.transferGbps b r.overallNs setup.max))),
    ("setup_wall_s", .float (value 3 (F.setupSeconds setup.max))),
    ("bytes", .int (totalExpected r.outcomes).toNat),
    ("target_ip", .str (String.ofList
      (Entry.ipChars ip.1.toNat ip.2.1.toNat ip.2.2.1.toNat ip.2.2.2.toNat))),
    ("target_port", .int r.port), ("market", .none), ("zone", .none), ("cores_in", .none),
    ("cores_out", .none), ("workers_actual", .int r.config.workers.toNat),
    ("gbps_wire", rateColumn value (wireRate F r Entry.isRun)),
    ("gbps_wire_steady", rateColumn value (wireRate F r Entry.isSteady)),
    ("gbps_wire_peak", rateColumn value (wireRate F r Entry.isPeak))]

theorem metrics_eq : metrics B = commonMetrics B ++
    [coresIn B, coresOut B,
      ⟨"workers_actual", .seqs [.bol, .text "bench: ", .group (digits B), .text " workers"], .int⟩,
      LinuxS3.wire B "gbps_wire" "WIRE", LinuxS3.wire B "gbps_wire_steady" "WIRE STEADY",
      LinuxS3.wire B "gbps_wire_peak" "WIRE PEAK"] := rfl

variable {m : Metric} {t text : List Char} {v : Scalar B}

theorem read_eq (h : m.pattern.group1 text = some t) (hcast : m.cast.apply B t = some v) :
    m.read B text = some v := by
  rw [Metric.read, h]
  exact hcast

theorem read_none (h : m.pattern.group1 text = none) : m.read B text = some .none := by
  rw [Metric.read, h]

theorem mapM_read {metrics : List Metric} {fields : List (Name × Scalar B)}
    (h : List.Forall₂ (fun m f => m.name = f.1 ∧ m.read B text = some f.2) metrics fields) :
    (metrics.mapM fun m : Metric => (m.read B text).map fun v => (m.name, v)) = some fields := by
  rw [mapM_eq_some_iff]
  induction h with
  | nil => rfl
  | cons hm _ ih =>
    rw [List.map_cons, List.map_cons, ih, hm.1, hm.2]
    rfl

theorem cast_int {n : Nat} (h : n < 2 ^ 64) :
    Cast.int.apply B (Nat.toDigits 10 n) = some (.int n) := by
  rw [Cast.apply, B.int_toDigits (Builtins.lt_maxDigits (Nat.lt_trans h (by decide)))]
  rfl

theorem cast_uint (n : UInt64) : Cast.int.apply B (Nat.toDigits 10 n.toNat) = some (.int n.toNat) :=
  cast_int n.toNat_lt

variable {value}

theorem cast_float (hvalue : Reads B value) (places units : Nat) :
    Cast.float.apply B (fixedChars places units) = some (.float (value places units)) := by
  rw [Cast.apply, hvalue]
  rfl

theorem cast_stub (stub : Bool) :
    Cast.isTrue.apply B (boolPiece stub).chars = some (.bool stub) := by
  cases stub <;> rfl

section Lines

variable (hr : r.Printable) {p : Regex} {s : List Char}

include hr

theorem group1_aggregate (ho : Opens "AGGREGATE:".toList p)
    (hit : Hits p (r.aggregateEntry F).line.chars [s]) : p.group1 (r.text F) = some s :=
  group1_eq hr (fun _ he hown => skips_of_free (by decide) ho (Entry.free_aggregate he hown))
    (find?_aggregate F r) hit

theorem group1_transfer (ho : Opens "TRANSFER:".toList p)
    (hit : Hits p (r.transferEntry F).line.chars [s]) : p.group1 (r.text F) = some s :=
  group1_eq hr (fun _ he hown => skips_of_free (by decide) ho (Entry.free_transfer he hown))
    (find?_transfer F r) hit

theorem group1_cpu (ho : Opens "CPU:".toList p) : p.group1 (r.text F) = none :=
  group1_eq_none hr (fun _ => false)
    (fun _ he _ => skips_of_free (by decide) ho (Entry.free_cpu he)) (by simp) ho (by decide)

theorem group1_running (ho : Opens "Instance running:".toList p) : p.group1 (r.text F) = none :=
  group1_eq_none hr (fun _ => false)
    (fun _ he _ => skips_of_free (by decide) ho (Entry.free_running he)) (by simp) ho (by decide)

theorem group1_budget (ha : p.Anchored) (ho : Opens ['C', 'P'] p) :
    p.group1 (r.text F) = none := by
  refine group1_eq_none hr (fun _ => false) (fun e he _ => ?_) (by simp) ho (by decide)
  exact Entry.skips_of_begins he ha ho (by cases e <;> rfl)

theorem group1_bytes :
    (Regex.seqs [.text "(", .group (digits B), .text " bytes)"]).group1 (r.text F) =
      some (Nat.toDigits 10 (totalExpected r.outcomes).toNat) := by
  have hpart : "bytes)".toList <:+: " bytes)".toList := ⟨[' '], [], rfl⟩
  refine group1_eq hr (fun e he hown => ?_) (find?_blocks F r) (Entry.hits_bytes B _ _ _ _)
  exact skips_of_last (by decide) (by decide) (digit_eq_false B (by decide) rfl)
    ((Entry.free_bytes he hown).extend hpart)

end Lines

theorem read_wire (hr : r.Printable) (hvalue : Reads B value) {name label : String}
    {own : Entry → Bool} (hwire : ∀ e : Entry, own e = true → e.isWire = true)
    (hskip : ∀ e : Entry, e.Clean → own e = false →
      Skips (LinuxS3.wire B name label).pattern e.line.chars)
    (hit : ∀ e : Entry, own e = true → ∃ units, e.rate = some units ∧
      Hits (LinuxS3.wire B name label).pattern e.line.chars [fixedChars 3 units])
    (ho : Opens label.toList (LinuxS3.wire B name label).pattern) (hlabel : label.toList ≠ []) :
    (LinuxS3.wire B name label).read B (r.text F) =
      some (rateColumn value (wireRate F r own)) := by
  have hfind := find?_of_wire (F := F) (r := r) hwire
  cases he : (r.wireEntries F).find? own with
  | none =>
    rw [wireRate, he]
    exact read_none (group1_eq_none hr own hskip (hfind.trans he) ho hlabel)
  | some e =>
    obtain ⟨units, hrate, hit⟩ := hit e (List.find?_some he)
    rw [wireRate, he, Option.bind_some, hrate]
    exact read_eq (group1_eq hr hskip (hfind.trans he) hit) (cast_float hvalue 3 units)

theorem read_run (hr : r.Printable) (hvalue : Reads B value) :
    (LinuxS3.wire B "gbps_wire" "WIRE").read B (r.text F) =
      some (rateColumn value (wireRate F r Entry.isRun)) := by
  refine read_wire hr hvalue (fun e he => ?_) (fun e he hown => Entry.skips_run B he hown)
    (fun e he => ?_) (opens_line List.prefix_rfl) (by decide)
  · cases e with
    | wire => rfl
    | _ => cases he
  · cases e with
    | wire gbps bytes => exact ⟨gbps, rfl, Entry.hits_wireGbps B gbps bytes⟩
    | _ => cases he

theorem read_steady (hr : r.Printable) (hvalue : Reads B value) :
    (LinuxS3.wire B "gbps_wire_steady" "WIRE STEADY").read B (r.text F) =
      some (rateColumn value (wireRate F r Entry.isSteady)) := by
  refine read_wire hr hvalue (fun e he => ?_) (fun e he hown => Entry.skips_steady B he hown)
    (fun e he => ?_) (opens_line List.prefix_rfl) (by decide)
  · cases e with
    | steady => rfl
    | _ => cases he
  · cases e with
    | steady gbps start stop bytes => exact ⟨gbps, rfl, Entry.hits_steady B gbps bytes start stop⟩
    | _ => cases he

theorem read_peak (hr : r.Printable) (hvalue : Reads B value) :
    (LinuxS3.wire B "gbps_wire_peak" "WIRE PEAK").read B (r.text F) =
      some (rateColumn value (wireRate F r Entry.isPeak)) := by
  refine read_wire hr hvalue (fun e he => ?_) (fun e he hown => Entry.skips_peak B he hown)
    (fun e he => ?_) (opens_line List.prefix_rfl) (by decide)
  · cases e with
    | peak => rfl
    | _ => cases he
  · cases e with
    | peak gbps => exact ⟨gbps, rfl, Entry.hits_peak B gbps⟩
    | _ => cases he

theorem failed_lt (hr : r.Printable) : r.failed < 2 ^ 64 := by
  refine Nat.lt_of_le_of_lt List.countP_le_length ?_
  rw [outcomes, List.length_map]
  exact hr.length

theorem port_lt (r : Report) : r.port < 2 ^ 64 := by
  rw [port]
  split <;> decide

/-- Each metric, with the column that it reads. -/
theorem forall₂_table (hr : r.Printable) (hvalue : Reads B value) :
    List.Forall₂ (fun m f => m.name = f.1 ∧ m.read B (r.text F) = some f.2) (metrics B)
      (table value F r) := by
  have hcpu : ∀ {rest : Regex}, Opens "CPU:".toList (.seq (.text "CPU: ") rest) :=
    (Opens.lit.shorter ⟨_, rfl⟩).seq
  have hrunning : ∀ {rest : Regex}, Opens "Instance running:".toList (.seq running rest) :=
    (Opens.lit.shorter ⟨_, rfl⟩).seq.seq
  rw [metrics_eq]
  -- one goal for each metric, in the order of the table
  repeat' refine List.Forall₂.cons ⟨rfl, ?_⟩ ?_
  · exact read_eq (group1_begins hr (find?_bench F r) (Entry.hits_tlsStub B _ _ _ _ _) ⟨_, rfl⟩)
      (cast_stub _)
  · exact read_eq (group1_begins hr (find?_bench F r) (Entry.hits_scheme B _ _ _ _ _) ⟨_, rfl⟩)
      (by simp [Cast.apply])
  · exact read_eq (group1_aggregate hr Opens.lit.seq (Entry.hits_gbps B _ _ _ _))
      (cast_float hvalue _ _)
  · exact read_eq (group1_transfer hr Opens.lit.seq (Entry.hits_transfer B _ _ _ _ _))
      (cast_float hvalue _ _)
  -- a line that linux-s3 does not print
  · exact read_none (group1_cpu hr hcpu)
  · exact read_none (group1_cpu hr hcpu)
  · exact read_none (group1_cpu hr hcpu)
  · exact read_eq (group1_aggregate hr Opens.lit.seq (Entry.hits_mbPerS B _ _ _ _))
      (cast_float hvalue _ _)
  · exact read_eq (group1_aggregate hr (Opens.lit.shorter ⟨_, rfl⟩).seq
        (Entry.hits_elapsed B _ _ _ _))
      (cast_float hvalue _ _)
  · exact read_eq (group1_begins hr (find?_connections F r)
        (Entry.hits_connsClean B _ _ _) ⟨_, rfl⟩)
      (cast_uint _)
  · exact read_eq (group1_begins hr (find?_connections F r)
        (Entry.hits_connsTotal B _ _ _) ⟨_, rfl⟩)
      (cast_uint _)
  · exact read_eq (group1_begins hr (find?_misrouted F r) (Entry.hits_misrouted B) ⟨_, rfl⟩)
      (cast_int (by decide : 0 < 2 ^ 64))
  · exact read_eq (group1_begins hr (find?_setup F r) (Entry.hits_setupConns B _ _) ⟨_, rfl⟩)
      (cast_uint _)
  · exact read_eq (group1_begins hr (find?_setup F r)
        (Entry.hits_setupStat B _ _ (.head _)) ⟨_, rfl⟩)
      (cast_int (failed_lt hr))
  · exact read_eq (group1_begins hr (find?_setup F r)
        (Entry.hits_setupStat B _ _ (.tail _ (.head _))) ⟨_, rfl⟩)
      (cast_uint _)
  · exact read_eq (group1_begins hr (find?_setup F r)
        (Entry.hits_setupStat B _ _ (.tail _ (.tail _ (.head _)))) ⟨_, rfl⟩)
      (cast_uint _)
  · exact read_eq (group1_begins hr (find?_setup F r)
        (Entry.hits_setupStat B _ _ (.tail _ (.tail _ (.tail _ (.head _))))) ⟨_, rfl⟩)
      (cast_uint _)
  · exact read_eq (group1_begins hr (find?_setup F r)
        (Entry.hits_setupStat B _ _ (.tail _ (.tail _ (.tail _ (.tail _ (.head _)))))) ⟨_, rfl⟩)
      (cast_uint _)
  · exact read_eq (group1_begins hr (find?_dial F r) (Entry.hits_dialN B _) ⟨_, rfl⟩) (cast_uint _)
  · exact read_eq (group1_begins hr (find?_dial F r) (Entry.hits_dialStat B _ (.head _)) ⟨_, rfl⟩)
      (cast_uint _)
  · exact read_eq (group1_begins hr (find?_dial F r)
        (Entry.hits_dialStat B _ (.tail _ (.head _))) ⟨_, rfl⟩)
      (cast_uint _)
  · exact read_eq (group1_begins hr (find?_dial F r)
        (Entry.hits_dialStat B _ (.tail _ (.tail _ (.head _)))) ⟨_, rfl⟩)
      (cast_uint _)
  · exact read_eq (group1_begins hr (find?_dial F r)
        (Entry.hits_dialStat B _ (.tail _ (.tail _ (.tail _ (.head _))))) ⟨_, rfl⟩)
      (cast_uint _)
  · exact read_eq (group1_begins hr (find?_dial F r) (Entry.hits_loopMs B _) ⟨_, rfl⟩)
      (cast_float hvalue _ _)
  · exact read_eq (group1_transfer hr Opens.lit.seq (Entry.hits_transfer B _ _ _ _ _))
      (cast_float hvalue _ _)
  · exact read_eq (group1_transfer hr Opens.lit.seq (Entry.hits_setupWall B _ _ _ _ _))
      (cast_float hvalue _ _)
  · exact read_eq (group1_bytes hr) (cast_uint _)
  · exact read_eq (group1_begins hr (find?_target F r) (Entry.hits_targetIp B _ _ _ _ _ _) ⟨_, rfl⟩)
      rfl
  · exact read_eq (group1_begins hr (find?_target F r)
        (Entry.hits_targetPort B _ _ _ _ _ _) ⟨_, rfl⟩)
      (cast_int (port_lt r))
  · exact read_none (group1_running hr hrunning)
  · exact read_none (group1_running hr hrunning)
  · exact read_none (group1_budget hr trivial (opens_line ⟨_, rfl⟩))
  · exact read_none (group1_budget hr trivial (opens_line ⟨_, rfl⟩))
  · exact read_eq (group1_begins hr (find?_bench F r) (Entry.hits_workers B _ _ _ _ _) ⟨_, rfl⟩)
      (cast_uint _)
  · exact read_run hr hvalue
  · exact read_steady hr hvalue
  · exact read_peak hr hvalue
  · exact .nil

/-- **What `parse` reads is what was printed.** -/
theorem parse_text (hr : r.Printable) (hvalue : Reads B value) :
    parse B (metrics B) (r.text F) = some (ofFields B (table value F r)) := by
  rw [parse, mapM_read (forall₂_table hr hvalue)]
  rfl

/-- **The last line is `COMPLETE` when the run is.** -/
theorem found_completed (hr : r.Printable) :
    completed.found (r.text F) = complete r.config r.outcomes := by
  have hopens : Opens ['C', 'O'] completed := Opens.bol (Opens.lit.shorter ⟨_, rfl⟩)
  have hskip : ∀ e : Entry, e.Clean → Entry.begins ['C', 'O'] e = false →
      Skips completed e.line.chars := fun e he hown =>
    Entry.skips_of_begins he trivial hopens hown
  have hfind := find?_verdict F r
  -- only the verdict can begin with the word, and does when the run is complete
  cases hcomplete : complete r.config r.outcomes with
  | true =>
    rw [hcomplete] at hfind
    have hit : Hits completed r.verdictEntry.line.chars [] := by
      rw [verdictEntry, if_pos hcomplete]
      split
      · exact hits_label
      · exact hits_label
    obtain ⟨c, hsearch⟩ := search_text hr hskip hfind hit
    rw [found, hsearch]
    rfl
  | false =>
    rw [hcomplete] at hfind
    rw [found, search_text_none hr _ hskip hfind hopens (by decide)]
    rfl

/-- The row with the field that the driver sets from the text. -/
def completedRow (value : Nat → Nat → B.Float) (F : Floats) (r : Report) : Record B :=
  Record.put (ofFields B (table value F r)) "complete" (.bool (completed.found (r.text F)))

theorem completedRow_eq {k : Name} (hk : k ≠ "complete") :
    completedRow value F r k = ofFields B (table value F r) k :=
  Function.update_of_ne hk _ _

/-- The median, or the longest where the median is 0. -/
def setupFigure (d : Dist) : UInt64 := if d.p50 = 0 then d.max else d.p50

theorem or_of_ne {n : Int} (h : n ≠ 0) (v : Scalar B) : (Scalar.int n).or v = .int n :=
  if_pos (bne_iff_ne.mpr h)

/-- The last alternative changes nothing. -/
theorem or_zero (a b : Int) : ((Scalar.int a : Scalar B).or (.int b)).or (.int 0) =
    (Scalar.int a).or (.int b) := by
  by_cases ha : a = 0
  · by_cases hb : b = 0
    · rw [ha, hb]
      rfl
    · rw [ha]
      exact or_of_ne hb _
  · rw [or_of_ne ha, or_of_ne ha]

theorem lt_uint (n : UInt64) : lt (Scalar.int n.toNat : Scalar B) 1000000 =
    decide (n < 1000000) := by
  rw [lt, decide_eq_decide, UInt64.lt_iff_toNat_lt]
  exact Int.ofNat_lt (n := n.toNat) (m := 1000000)

theorem setupOk_completedRow : setupOk (completedRow value F r) =
    decide (setupFigure r.setupUs < 1000000) := by
  have hp50 : completedRow value F r "setup_us_p50" = .int r.setupUs.p50.toNat :=
    completedRow_eq (by decide)
  have hmax : completedRow value F r "setup_us_max" = .int r.setupUs.max.toNat :=
    completedRow_eq (by decide)
  rw [setupOk, hp50, hmax, or_zero, setupFigure]
  by_cases hzero : r.setupUs.p50 = 0
  · rw [if_pos hzero, hzero]
    exact lt_uint r.setupUs.max
  · have hne : (r.setupUs.p50.toNat : Int) ≠ 0 := fun h =>
      hzero (UInt64.toNat_inj.mp (by simpa using h))
    rw [if_neg hzero, or_of_ne hne]
    exact lt_uint r.setupUs.p50

theorem connsClean_eq (h : complete r.config r.outcomes = true) :
    connsClean r.outcomes = connsTotal r.outcomes := by
  rw [complete, rangesOk] at h
  simp only [Bool.and_eq_true, beq_iff_eq] at h
  exact h.1.1.1

theorem valid_iff (hr : r.Printable) : valid (completedRow value F r) = true ↔
    complete r.config r.outcomes = true ∧ setupFigure r.setupUs < 1000000 := by
  have hcomplete : completedRow value F r "complete" = .bool (complete r.config r.outcomes) := by
    rw [completedRow, found_completed hr]
    exact Function.update_self ..
  have hmisrouted : completedRow value F r "misrouted" = .int 0 := completedRow_eq (by decide)
  have hbad : completedRow value F r "http_bad" = .none := completedRow_eq (by decide)
  have htotal : completedRow value F r "conns_total" = .int (connsTotal r.outcomes).toNat :=
    completedRow_eq (by decide)
  have hclean : completedRow value F r "conns_clean" = .int (connsClean r.outcomes).toNat :=
    completedRow_eq (by decide)
  rw [valid, hcomplete, hmisrouted, hbad, htotal, hclean, setupOk_completedRow]
  cases h : complete r.config r.outcomes with
  | false => simp [Scalar.truthy]
  | true =>
    rw [connsClean_eq h]
    simp [Scalar.truthy, Scalar.or]

/-- `COMPLETE` was printed. -/
def PrintsComplete (F : Floats) (r : Report) : Prop :=
  ∃ e ∈ r.entries F, "COMPLETE:".toList <+: e.line.chars

theorem printsComplete_iff : PrintsComplete F r ↔ complete r.config r.outcomes = true := by
  have hfind := find?_verdict F r
  constructor
  · rintro ⟨e, he, hpre⟩
    by_contra hnot
    rw [if_neg hnot] at hfind
    have hhead : ['C', 'O'] <+: "COMPLETE:".toList := ⟨_, rfl⟩
    have hbegins : Entry.begins ['C', 'O'] e = true :=
      Entry.begins_of_stands (hhead.trans (hpre.trans (List.prefix_append _ ['\n'])))
    exact List.find?_eq_none.mp hfind e he hbegins
  · intro hcomplete
    rw [if_pos hcomplete] at hfind
    refine ⟨r.verdictEntry, List.mem_of_find?_eq_some hfind, ?_⟩
    rw [verdictEntry, if_pos hcomplete]
    split
    · exact ⟨_, rfl⟩
    · exact ⟨_, rfl⟩

/-- **The lines of a run are read back as they were printed, and the row is valid when the run was
complete and its connections were set up in time.** -/
theorem parse_printed (hr : r.Printable) (hvalue : Reads B value) :
    parse B (metrics B) (r.text F) = some (ofFields B (table value F r)) ∧
      (valid (completedRow value F r) = true ↔
        PrintsComplete F r ∧ setupFigure r.setupUs < 1000000) := by
  rw [printsComplete_iff]
  exact ⟨parse_text hr hvalue, valid_iff hr⟩

/-- The number that exact floats read. -/
def exactValue (places units : Nat) : Builtins.exact.Float :=
  (Builtins.decimalOf (fixedChars places units)).getD 0

theorem isSome_decimalOf {a b : List Char} (hne : a ≠ []) (ha : ∀ c ∈ a, c.isDigit = true)
    (hb : ∀ c ∈ b, c.isDigit = true) : (Builtins.decimalOf (a ++ '.' :: b)).isSome := by
  have hpoint : ∀ c ∈ a, (c != '.') = true := fun c hc => by
    refine bne_iff_ne.mpr ?_
    rintro rfl
    exact absurd (ha _ hc) (by decide)
  have hwhole : (a ++ '.' :: b).takeWhile (· != '.') = a := by
    rw [List.takeWhile_append_of_pos hpoint]
    simp
  have hpart : ((a ++ '.' :: b).dropWhile (· != '.')).drop 1 = b := by
    rw [List.dropWhile_append_of_pos hpoint]
    simp
  have hall : (a ++ b).all Char.isDigit = true := List.all_eq_true.mpr fun c hc =>
    (List.mem_append.mp hc).elim (ha c) (hb c)
  rw [Builtins.decimalOf, hwhole, hpart, if_pos ⟨List.append_ne_nil_of_left_ne_nil hne b, hall⟩]
  rfl

theorem reads_exact : Reads Builtins.exact exactValue := by
  intro places units
  have hdigits : ∀ n, ∀ c ∈ Nat.toDigits 10 n, c.isDigit = true := fun n c hc =>
    Builtins.isDigit_of_mem_toDigits hc
  have hsome : (Builtins.decimalOf (fixedChars places units)).isSome := by
    refine isSome_decimalOf Nat.toDigits_ne_nil (hdigits _) fun c hc => ?_
    rcases List.mem_append.mp hc with hc | hc
    · rw [List.eq_of_mem_replicate hc]
      rfl
    · exact hdigits _ c hc
  obtain ⟨x, hx⟩ := Option.isSome_iff_exists.mp hsome
  show Builtins.decimalOf (fixedChars places units) = some (exactValue places units)
  rw [exactValue, hx]
  rfl

/-- Whatever was counted. -/
def roundFloats : Floats :=
  { mib := fun _ => 10
    seconds := fun _ => 1500
    workerRate := fun _ _ => 2
    rate := fun _ _ => 7
    gbps := fun _ _ => 56
    transferSeconds := fun _ _ => 1400
    transferRate := fun _ _ _ => 8
    transferGbps := fun _ _ _ => 60
    setupSeconds := fun _ => 100
    wireGbps := fun _ _ => 61
    peak := fun _ => 62
    overhead := fun _ _ => (false, 0) }

/-- A run of one connection, whose first attempt was reset. -/
def resetRun : Report :=
  { config :=
      { workers := 1, connsPerWorker := 1, blocksPerWorker := 1, objectSize := 1048576,
        blockSize := 1048576, stub := false, plain := true, workers_ne := by decide,
        connsPerWorker_ne := by decide, blocksPerWorker_ne := by decide,
        objectSize_ne := by decide, blockSize_ne := by decide }
    stubAsked := true
    host := "bench.example"
    ip := (10, 0, 0, 1)
    mode := .stock
    tuning := Mode.stock.tuning 1 0 0 false
    cores := 4
    fails := [.read 0 "Connection reset by peer (os error 104)"]
    conns :=
      [{ worker := 0, bytesReceived := 1048576, expected := 1048576, closedCleanly := true,
         failed := false, finishNs := 1500000000, srcPort := 40000, setupNs := 100000,
         dialNs := 2000 }]
    workerStart := fun _ => 0
    firstIdle := 0
    overallNs := 1500000000
    endNs := 1500000000
    samples := [(0, 0), (1000000000, 1000000)] }

theorem printable_resetRun : resetRun.Printable := by
  refine ⟨by decide, fun c hc => ?_, fun f hf => ?_⟩
  · have hall : "bench.example".toList.all (fun c => c.isAlphanum || ['-', '.', '_'].contains c) =
        true := rfl
    simpa using List.all_eq_true.mp hall c hc
  · obtain rfl := List.mem_singleton.mp hf
    have hclears : (['\n'] :: words).all (fun s =>
        clears s "Connection reset by peer (os error 104)".toList) = true := by
      rewrite [String.toList_ofList]
      rfl
    have hclear := fun s hs => clear_of_clears (List.all_eq_true.mp hclears s hs)
    exact ⟨(hclear _ List.mem_cons_self).not_mem, fun s hs =>
      (hclear s (List.mem_cons_of_mem _ hs)).free (ne_nil_of_mem_words hs)⟩

theorem parse_printed_reset : resetRun.Printable ∧ Reads Builtins.exact exactValue ∧
    parse Builtins.exact (metrics Builtins.exact) (resetRun.text roundFloats) =
      some (ofFields Builtins.exact (table exactValue roundFloats resetRun)) ∧
    valid (completedRow exactValue roundFloats resetRun) = true := by
  obtain ⟨hparse, hvalid⟩ := parse_printed printable_resetRun reads_exact
  have hsetup : resetRun.setupUs = ⟨1, 100, 100, 100, 100⟩ := by
    simp [setupUs, resetRun, Dist.of]
  refine ⟨printable_resetRun, reads_exact, hparse, hvalid.mpr ⟨?_, ?_⟩⟩
  · exact printsComplete_iff.mpr (by decide)
  · rw [hsetup]
    decide

end Row

end Report

end LinuxS3
