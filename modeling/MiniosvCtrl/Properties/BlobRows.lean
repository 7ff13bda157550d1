import MiniosvCtrl.Bench.Recorded
import MiniosvCtrl.Properties.BlobLines
import MiniosvCtrl.Properties.Partition

/-!
# What the AnyBlob client prints is what its bench reads

Every metric's pattern finds its own line, whatever the callbacks and the daemons printed before.

* `Report.find?_entries` — which line a metric finds
* `Report.Printable`, `Report.Legible` — what is known of the texts from outside
* `Report.table` — what was printed, by the names of the columns
* `Report.parse_text` — the row is the table
* `Report.valid_row` — the row's gate is that of `main`
-/

namespace AnyBlob

open Infra Infra.Regex Runner
open LinuxS3 (Piece Line Mutes Plain)

variable {a : Fetch}

/-! ## The lines of a run -/

namespace Entry

/-- The lines of the NIC's counter. -/
def isWire : Entry → Bool
  | both e => e.isWire
  | tail _ => true
  | _ => false

def isRun : Entry → Bool
  | both e => e.isRun
  | _ => false

def isSteady : Entry → Bool
  | both e => e.isSteady
  | _ => false

def isPeak : Entry → Bool
  | both e => e.isPeak
  | _ => false

def isTail : Entry → Bool
  | tail _ => true
  | _ => false

/-- The rate of frames in a line of the wire. -/
def rate : Entry → Option Nat
  | both e => e.rate
  | _ => none

def idle : Entry → Option Nat
  | tail idle => some idle
  | _ => none

theorem clean_of_isWire {e : Entry} (h : e.isWire = true) : e.Clean := by
  cases e with
  | both e' => exact LinuxS3.Entry.clean_of_isWire h
  | tail => trivial
  | _ => cases h

variable (B : Builtins)

/-- No line of the client's own begins as those of the wire do. -/
theorem skips_wire {e : Entry} (he : e.Clean) {name label : String} (hlabel : ['W'] <+: label.toList)
    (hboth : ∀ e', e = both e' → Skips (LinuxS3.wire B name label).pattern e.line.chars) :
    Skips (LinuxS3.wire B name label).pattern e.line.chars := by
  by_cases h : ∃ e', e = both e'
  · obtain ⟨e', heq⟩ := h
    exact hboth e' heq
  · have hbegins : begins ['W'] e = false := by
      cases e with
      | both e' => exact absurd ⟨e', rfl⟩ h
      | said x => cases x <;> rfl
      | _ => rfl
    exact skips_of_begins he trivial (LinuxS3.Report.opens_line hlabel) hbegins

theorem skips_run {e : Entry} (he : e.Clean) (h : e.isRun = false) :
    Skips (LinuxS3.wire B "gbps_wire" "WIRE").pattern e.line.chars :=
  skips_wire B he ⟨_, rfl⟩ fun _ heq => by
    subst heq
    exact LinuxS3.Entry.skips_run B he h

theorem skips_steady {e : Entry} (he : e.Clean) (h : e.isSteady = false) :
    Skips (LinuxS3.wire B "gbps_wire_steady" "WIRE STEADY").pattern e.line.chars :=
  skips_wire B he ⟨_, rfl⟩ fun _ heq => by
    subst heq
    exact LinuxS3.Entry.skips_steady B he h

theorem skips_peak {e : Entry} (he : e.Clean) (h : e.isPeak = false) :
    Skips (LinuxS3.wire B "gbps_wire_peak" "WIRE PEAK").pattern e.line.chars :=
  skips_wire B he ⟨_, rfl⟩ fun _ heq => by
    subst heq
    exact LinuxS3.Entry.skips_peak B he h

theorem begins_of_isTail {e : Entry} (h : e.isTail = false) : begins ['T', 'A'] e = false := by
  cases e with
  | both e' => cases e' <;> rfl
  | said x => cases x <;> rfl
  | tail => cases h
  | _ => rfl

end Entry

/-- No line of which there may be any number is one that is looked for. -/
structure Passes (own : Entry → Bool) : Prop where
  said : ∀ x, own (.said x) = false
  worker : ∀ w bytes seconds rate requests, own (.worker w bytes seconds rate requests) = false
  firstBad : ∀ code, own (.firstBad code) = false

namespace Report

variable {F : Floats} {r : Report a} {own : Entry → Bool}

theorem isWire_of_mem {e : Entry} (h : e ∈ r.wireEntries F) : e.isWire = true := by
  rw [wireEntries] at h
  split at h
  · split at h
    · obtain rfl := List.mem_singleton.mp h
      rfl
    · rw [List.mem_cons, List.mem_cons, List.mem_cons, List.mem_singleton] at h
      rcases h with rfl | rfl | rfl | rfl
      · rfl
      · rw [steadyEntry]
        split
        · split <;> rfl
        · rfl
      · rfl
      · rfl
  · obtain rfl := List.mem_singleton.mp h
    rfl

section Parts

variable (F r)

/-- The lines that are printed once, before those of the wire. -/
def opens : List Entry :=
  r.header F ++ [.both .blank, r.aggregateEntry F, r.transferEntry F, r.reqEntry, r.cpuEntry F]

/-- Those after them. -/
def closes : List Entry :=
  [.both .blank, r.connectionsEntry, .remark, .both .misrouted, .both .drops, r.httpEntry,
    r.headsEntry, .setup r.state.failed.toNat, .both (.dial ⟨0, 0, 0, 0, 0⟩), blocksEntry a,
    .both (.body (totalB r.state).toNat), r.verdictEntry]

end Parts

/-- **The line that is found is the first one of those that are printed once.** -/
theorem find?_entries (h : Passes own) : (r.entries F).find? own =
    (((r.opens F).find? own).or ((r.wireEntries F).find? own)).or (r.closes.find? own) := by
  have hsaid : (r.between.map Entry.said).find? own = none := by
    refine List.find?_eq_none.mpr fun e he => ?_
    obtain ⟨x, -, rfl⟩ := List.mem_map.mp he
    simp [h.said x]
  have hworkers : ((List.finRange a.c.workers.toNat).map (r.workerEntry F)).find? own = none := by
    refine List.find?_eq_none.mpr fun e he => ?_
    obtain ⟨w, -, rfl⟩ := List.mem_map.mp he
    simp [workerEntry, h.worker]
  have hfirst : r.firstBadEntries.find? own = none := by
    refine List.find?_eq_none.mpr fun e he => ?_
    rw [firstBadEntries] at he
    split at he
    · exact absurd he List.not_mem_nil
    · obtain rfl := List.mem_singleton.mp he
      simp [h.firstBad]
  have hcloses : r.closes.find? own =
      ([Entry.both .blank, r.connectionsEntry, .remark, .both .misrouted, .both .drops,
          r.httpEntry].find? own).or
        ([r.headsEntry, .setup r.state.failed.toNat, .both (.dial ⟨0, 0, 0, 0, 0⟩), blocksEntry a,
          .both (.body (totalB r.state).toNat), r.verdictEntry].find? own) := by
    rw [← List.find?_append]
    rfl
  rw [entries, List.find?_append, List.find?_append, List.find?_append, List.find?_append,
    List.find?_append, List.find?_append, List.find?_append, hsaid, hworkers, hfirst, hcloses,
    opens, List.find?_append, Option.or_none, Option.or_none, Option.or_none, Option.or_assoc]

theorem find?_opens (h : Passes own) {e : Entry} (hopens : (r.opens F).find? own = some e) :
    (r.entries F).find? own = some e := by
  rw [find?_entries h, hopens]
  rfl

theorem find?_wire (h : ∀ e : Entry, e.isWire = true → own e = false) :
    (r.wireEntries F).find? own = none :=
  List.find?_eq_none.mpr fun e he => by simp [h e (isWire_of_mem he)]

theorem find?_closes (h : Passes own) (hwire : ∀ e : Entry, e.isWire = true → own e = false)
    (hopens : (r.opens F).find? own = none) :
    (r.entries F).find? own = r.closes.find? own := by
  rw [find?_entries h, hopens, find?_wire hwire]
  rfl

theorem toList_toString_uint (n : UInt64) : (toString n).toList = Nat.toDigits 10 n.toNat :=
  String.toList_ofList

/-- The last line is that of the verdict. -/
theorem chars_verdictEntry (r : Report a) : ∃ line,
    (verdict r.state = .complete line ∨ verdict r.state = .incomplete line) ∧
      r.verdictEntry.line.chars = line.toList := by
  unfold verdict verdictEntry
  by_cases hcomplete : complete r.state = true
  · rw [if_pos hcomplete, if_pos hcomplete]
    refine ⟨_, Or.inl rfl, ?_⟩
    simp [Entry.line, LinuxS3.Entry.line, Piece.chars, toList_toString_uint]
  · rw [if_neg hcomplete, if_neg hcomplete]
    refine ⟨_, Or.inr rfl, ?_⟩
    by_cases hsurplus : totalExpected a < totalB r.state
    · simp [Entry.line, Piece.chars, toList_toString_uint, hsurplus]
    · simp [Entry.line, Piece.chars, toList_toString_uint, hsurplus]

/-! ## The texts from outside -/

/-- What is known of them. -/
structure Printable (r : Report a) : Prop where
  address : IsAddress r.targetIp
  host : Plain r.host
  daemons : ∀ w what, .daemon w what ∈ r.between → Plain what

/-- And of those of the callbacks. -/
structure Legible (r : Report a) : Prop extends Printable r where
  called : ∀ line ∈ r.state.printed, IsCalled line

theorem shown_ne (r : Report a) : (if r.targetIp = "" then "0.0.0.0" else r.targetIp) ≠ "" := by
  split
  · decide
  · assumption

theorem isAddress_shown (h : IsAddress r.targetIp) :
    IsAddress (if r.targetIp = "" then "0.0.0.0" else r.targetIp) := by
  split
  · have hall : "0.0.0.0".toList.all (fun c => c.isDigit || c == '.') = true := rfl
    intro c hc
    simpa using List.all_eq_true.mp hall c hc
  · exact h

theorem clean_of_mem (hr : r.Legible) {e : Entry} (he : e ∈ r.entries F) : e.Clean := by
  have hverdict : r.verdictEntry.Clean := by
    rw [verdictEntry]
    split <;> trivial
  simp only [entries, header, List.mem_append, List.mem_cons, List.not_mem_nil, or_false] at he
  rcases he with (((((((rfl | rfl | rfl | rfl) | he) | he) | he) | he) | he) | he) | he
  · trivial
  · exact ⟨isAddress_shown hr.address, hr.host⟩
  · trivial
  · trivial
  · obtain ⟨x, hx, rfl⟩ := List.mem_map.mp he
    cases x with
    | called line =>
      refine hr.called line ?_
      rw [← r.printed]
      exact List.mem_filterMap.mpr ⟨_, hx, rfl⟩
    | daemon w what => exact hr.daemons w what hx
  · obtain ⟨w, -, rfl⟩ := List.mem_map.mp he
    trivial
  · rcases he with rfl | rfl | rfl | rfl | rfl <;> trivial
  · exact Entry.clean_of_isWire (isWire_of_mem he)
  · rcases he with rfl | rfl | rfl | rfl | rfl | rfl <;> trivial
  · rw [firstBadEntries] at he
    split at he
    · exact absurd he List.not_mem_nil
    · obtain rfl := List.mem_singleton.mp he
      trivial
  · rcases he with rfl | rfl | rfl | rfl | rfl | rfl
    · trivial
    · trivial
    · trivial
    · trivial
    · trivial
    · exact hverdict

/-! ## What a metric finds -/

theorem text_eq : r.text F = unlines ((r.entries F).map fun e => e.line.chars) := by
  rw [text, unlines, List.flatMap_map]

theorem search_text (hr : r.Legible) {p : Regex} {e : Entry} {gs : Groups}
    (hskip : ∀ e : Entry, e.Clean → own e = false → Skips p e.line.chars)
    (hfind : (r.entries F).find? own = some e) (hit : Hits p e.line.chars gs) :
    Yields (p.search (r.text F)) gs := by
  rw [text_eq]
  exact search_find (fun e he => hskip e (clean_of_mem hr he)) hfind hit

theorem search_text_none (hr : r.Legible) (own : Entry → Bool) {p : Regex} {w : List Char}
    (hskip : ∀ e : Entry, e.Clean → own e = false → Skips p e.line.chars)
    (hfind : (r.entries F).find? own = none) (ho : Opens w p) (hw : w ≠ []) :
    p.search (r.text F) = none := by
  rw [text_eq]
  exact search_find_none (fun e he => hskip e (clean_of_mem hr he)) hfind ho hw

theorem group1_eq (hr : r.Legible) {p : Regex} {e : Entry} {g : List Char}
    (hskip : ∀ e : Entry, e.Clean → own e = false → Skips p e.line.chars)
    (hfind : (r.entries F).find? own = some e) (hit : Hits p e.line.chars [g]) :
    p.group1 (r.text F) = some g :=
  (search_text hr hskip hfind hit).group1

theorem group1_eq_none (hr : r.Legible) (own : Entry → Bool) {p : Regex} {w : List Char}
    (hskip : ∀ e : Entry, e.Clean → own e = false → Skips p e.line.chars)
    (hfind : (r.entries F).find? own = none) (ho : Opens w p) (hw : w ≠ []) :
    p.group1 (r.text F) = none := by
  rw [Regex.group1, search_text_none hr own hskip hfind ho hw]
  rfl

open LinuxS3.Report (opens_line)

/-- A pattern for the start of a line. -/
theorem group1_begins (hr : r.Legible) {label : String} {rest : Regex} {w g : List Char}
    {e : Entry} (hfind : (r.entries F).find? (Entry.begins w) = some e)
    (hit : Hits (.seq .bol (.seq (.text label) rest)) e.line.chars [g]) (hw : w <+: label.toList) :
    (Regex.seq .bol (.seq (.text label) rest)).group1 (r.text F) = some g :=
  group1_eq hr (fun _ he hown => Entry.skips_of_begins he trivial (opens_line hw) hown) hfind hit

theorem group1_begins_none (hr : r.Legible) {label : String} {rest : Regex} {w : List Char}
    (hfind : (r.entries F).find? (Entry.begins w) = none) (hw : w <+: label.toList) (hne : w ≠ []) :
    (Regex.seq .bol (.seq (.text label) rest)).group1 (r.text F) = none :=
  group1_eq_none hr _ (fun _ he hown => Entry.skips_of_begins he trivial (opens_line hw) hown) hfind
    (opens_line hw) hne

/-- The beginnings that are looked for, those of the wire apart. -/
def beginnings : List (List Char) :=
  [['b', 'e'], ['t', 'a'], ['c'], ['m'], ['S'], ['D'], ['h'], ['r'], ['R'], ['p', 'o'],
    ['C', 'P', 'U', ' ', 'S'], ['C', 'O']]

/-- Those of lines that the client does not print. -/
def elsewhere : List (List Char) := [['T', 'c'], ['p', 'i'], ['C', 'P', 'U', ' ', 'B']]

theorem passes_begins {w : List Char} (hw : w ∈ beginnings ++ elsewhere) :
    Passes (Entry.begins w) := by
  have hall : ∀ u ∈ [['q'], ['F'], ['w'], ['f']], ∀ w ∈ beginnings ++ elsewhere,
      (w.isPrefixOf u || u.isPrefixOf w) = false := by decide
  refine ⟨fun x => ?_, fun _ _ _ _ _ => hall _ (.tail _ (.tail _ (.head _))) w hw,
    fun _ => hall _ (.tail _ (.tail _ (.tail _ (.head _)))) w hw⟩
  cases x with
  | called => exact hall _ (.head _) w hw
  | daemon => exact hall _ (.tail _ (.head _)) w hw

theorem begins_wire {w : List Char} (hw : w ∈ beginnings ++ elsewhere) {e : Entry}
    (he : e.isWire = true) : Entry.begins w e = false := by
  have hall : ∀ u ∈ [LinuxS3.Entry.noIface.opening, (LinuxS3.Entry.wire 0 0).opening,
      (LinuxS3.Entry.steady 0 0 0 0).opening, LinuxS3.Entry.noWindow.opening,
      (LinuxS3.Entry.peak 0).opening, ['T', 'A']],
      ∀ w ∈ beginnings ++ elsewhere, (w.isPrefixOf u || u.isPrefixOf w) = false := by decide
  cases e with
  | both e' =>
    cases e' with
    | noIface => exact hall _ (.head _) w hw
    | wire => exact hall _ (.tail _ (.head _)) w hw
    | steady => exact hall _ (.tail _ (.tail _ (.head _))) w hw
    | noWindow => exact hall _ (.tail _ (.tail _ (.tail _ (.head _)))) w hw
    | peak => exact hall _ (.tail _ (.tail _ (.tail _ (.tail _ (.head _))))) w hw
    | _ => cases he
  | tail => exact hall _ (.tail _ (.tail _ (.tail _ (.tail _ (.tail _ (.head _)))))) w hw
  | _ => cases he

section Finds

variable (F r)

/-- A beginning that is looked for before the lines of the wire. -/
theorem find?_opens_begins {w : List Char} {e : Entry} (hw : w ∈ beginnings ++ elsewhere)
    (h : (r.opens F).find? (Entry.begins w) = some e) :
    (r.entries F).find? (Entry.begins w) = some e := find?_opens (passes_begins hw) h

theorem find?_closes_begins {w : List Char} (hw : w ∈ beginnings ++ elsewhere)
    (h : (r.opens F).find? (Entry.begins w) = none) :
    (r.entries F).find? (Entry.begins w) = r.closes.find? (Entry.begins w) :=
  find?_closes (passes_begins hw) (fun _ => begins_wire hw) h

theorem find?_bench : (r.entries F).find? (Entry.begins ['b', 'e']) =
    some (.bench a.c.workers.toNat a.c.conns.toNat (blockMib a.c) r.https
      a.c.blocksPerWorker.toNat r.chunk.toNat) := find?_opens_begins F r (by decide) rfl

theorem find?_target : (r.entries F).find? (Entry.begins ['t', 'a']) = some r.targetEntry :=
  find?_opens_begins F r (by decide) rfl

theorem find?_pool : (r.entries F).find? (Entry.begins ['p', 'o']) = some (r.poolEntry F) :=
  find?_opens_begins F r (by decide) rfl

theorem find?_req : (r.entries F).find? (Entry.begins ['R']) = some r.reqEntry :=
  find?_opens_begins F r (by decide) rfl

theorem find?_cpu : (r.entries F).find? (Entry.begins ['C', 'P', 'U', ' ', 'S']) =
    some (r.cpuEntry F) := find?_opens_begins F r (by decide) rfl

theorem find?_connections : (r.entries F).find? (Entry.begins ['c']) = some r.connectionsEntry :=
  find?_closes_begins F r (by decide) rfl

theorem find?_misrouted : (r.entries F).find? (Entry.begins ['m']) = some (.both .misrouted) :=
  find?_closes_begins F r (by decide) rfl

theorem find?_http : (r.entries F).find? (Entry.begins ['h']) = some r.httpEntry :=
  find?_closes_begins F r (by decide) rfl

theorem find?_heads : (r.entries F).find? (Entry.begins ['r']) = some r.headsEntry :=
  find?_closes_begins F r (by decide) rfl

theorem find?_setup : (r.entries F).find? (Entry.begins ['S']) =
    some (.setup r.state.failed.toNat) := find?_closes_begins F r (by decide) rfl

theorem find?_dial : (r.entries F).find? (Entry.begins ['D']) =
    some (.both (.dial ⟨0, 0, 0, 0, 0⟩)) := find?_closes_begins F r (by decide) rfl

theorem find?_aggregate : (r.entries F).find? Entry.isAggregate = some (r.aggregateEntry F) :=
  find?_opens ⟨fun _ => rfl, fun _ _ _ _ _ => rfl, fun _ => rfl⟩ rfl

theorem find?_transfer : (r.entries F).find? Entry.isTransfer = some (r.transferEntry F) :=
  find?_opens ⟨fun _ => rfl, fun _ _ _ _ _ => rfl, fun _ => rfl⟩ rfl

theorem find?_blocks : (r.entries F).find? Entry.isBlocks = some (blocksEntry a) := by
  refine find?_closes ⟨fun _ => rfl, fun _ _ _ _ _ => rfl, fun _ => rfl⟩ (fun e he => ?_) rfl
  cases e with
  | both e' =>
    cases e' with
    | blocks => cases he
    | _ => rfl
  | _ => rfl

/-- Only the verdict may begin otherwise. -/
theorem find?_last {w : List Char} (hw : w ∈ beginnings ++ elsewhere)
    (hopens : (r.opens F).find? (Entry.begins w) = none)
    (hcloses : r.closes.dropLast.find? (Entry.begins w) = none) :
    (r.entries F).find? (Entry.begins w) = [r.verdictEntry].find? (Entry.begins w) := by
  have hsplit : r.closes = r.closes.dropLast ++ [r.verdictEntry] := rfl
  rw [find?_closes_begins F r hw hopens, hsplit, List.find?_append, hcloses, Option.none_or]

theorem find?_verdict : (r.entries F).find? (Entry.begins ['C', 'O']) =
    if complete r.state then some r.verdictEntry else none := by
  rw [find?_last F r (by decide) rfl rfl, verdictEntry]
  split <;> rfl

/-- The client prints none of the lines of the instance script. -/
theorem find?_elsewhere {w : List Char} (hw : w ∈ elsewhere) :
    (r.entries F).find? (Entry.begins w) = none := by
  have hmem : w ∈ beginnings ++ elsewhere := List.mem_append_right _ hw
  simp only [elsewhere, List.mem_cons, List.not_mem_nil, or_false] at hw
  rcases hw with rfl | rfl | rfl
  · rw [find?_last F r hmem rfl rfl, verdictEntry]
    split <;> rfl
  · rw [find?_last F r hmem rfl rfl, verdictEntry]
    split <;> rfl
  · rw [find?_last F r hmem rfl rfl, verdictEntry]
    split <;> rfl

end Finds

/-! ## The row -/

open LinuxS3.Report (Reads rateColumn read_eq read_none mapM_read cast_int cast_uint cast_float)

/-- The rate in the first of the wire's lines of a kind. -/
def wireRate (F : Floats) (r : Report a) (own : Entry → Bool) : Option Nat :=
  ((r.wireEntries F).find? own).bind Entry.rate

/-- How long not every slot was busy. -/
def wireTail (F : Floats) (r : Report a) : Option Nat :=
  ((r.wireEntries F).find? Entry.isTail).bind Entry.idle

section Row

variable {B : Builtins} (value : Nat → Nat → B.Float)

def tailColumn : Option Nat → Scalar B
  | some units => .float (value 1 units)
  | none => .none

/-- What was printed, by the names of the columns. -/
def table (F : Floats) (r : Report a) : List (Name × Scalar B) :=
  let b := totalB r.state
  let us := r.userUs + r.sysUs
  let ttfb := Dist.of (Timing.ttfb r.timings)
  let wire := Dist.of (Timing.wire r.timings)
  [("tls_stub", .bool false), ("scheme", .str (if r.https then "https" else "http")),
    ("gbps", .float (value 3 (F.gbps b r.endNs))),
    ("transfer_gbps", .float (value 3 (F.gbps b r.endNs))),
    ("cpu_s", .none), ("cpus_active", .none), ("gbps_per_cpu_s", .none),
    ("mb_per_s", .float (value 1 (F.rate b r.endNs))),
    ("elapsed_s", .float (value 3 (F.seconds r.endNs))),
    ("conns_clean", .int r.state.ok.toNat), ("conns_total", .int a.c.requests.toNat),
    ("misrouted", .int 0), ("setup_conns", .int 0), ("setup_failed", .int r.state.failed.toNat),
    ("setup_us_avg", .int 0), ("setup_us_p50", .int 0), ("setup_us_p90", .int 0),
    ("setup_us_max", .int 0), ("dial_n", .int 0), ("dial_us_avg", .int 0), ("dial_us_p50", .int 0),
    ("dial_us_p90", .int 0), ("dial_us_max", .int 0), ("dial_loop_ms", .float (value 1 0)),
    ("gbps_transfer", .float (value 3 (F.gbps b r.endNs))),
    ("setup_wall_s", .float (value 3 0)), ("bytes", .int (totalExpected a).toNat),
    ("target_ip", .str (if r.targetIp = "" then "0.0.0.0" else r.targetIp)),
    ("target_port", .int r.port), ("market", .none), ("zone", .none),
    ("gbps_wire", rateColumn value (wireRate F r Entry.isRun)),
    ("gbps_wire_steady", rateColumn value (wireRate F r Entry.isSteady)),
    ("gbps_wire_peak", rateColumn value (wireRate F r Entry.isPeak)),
    ("workers_actual", .int a.c.workers.toNat), ("http_bad", .int r.state.badStatus.toNat),
    ("hdr_bad", .int r.state.shortBody.toNat), ("tail_ms_max", tailColumn value (wireTail F r)),
    ("tail_ms_avg", tailColumn value (wireTail F r)), ("ttfb_us_avg", .int ttfb.avg.toNat),
    ("wire_us_avg", .int wire.avg.toNat), ("wire_us_p50", .int wire.p50.toNat),
    ("wire_us_p99", .int wire.p99.toNat), ("cpu_user_s", .float (value 2 (F.cpuSeconds r.userUs))),
    ("cpu_sys_s", .float (value 2 (F.cpuSeconds r.sysUs))),
    ("cpu_total_s", .float (value 2 (F.cpuSeconds us))),
    ("cores_avg", .float (value 2 (F.cores us r.endNs))),
    ("pool_s", .float (value 2 (F.hundredths r.poolNs))), ("tcp_active_opens", .none),
    ("tcp_retrans", .none), ("pinned", .none), ("cores_in", .none), ("cores_out", .none)]

theorem metrics_eq : metrics B = commonMetrics B ++
    [LinuxS3.wire B "gbps_wire" "WIRE", LinuxS3.wire B "gbps_wire_steady" "WIRE STEADY",
      LinuxS3.wire B "gbps_wire_peak" "WIRE PEAK",
      ⟨"workers_actual", .seqs [.bol, .text "bench: ", .group (digits B), .text " workers"], .int⟩,
      count B "http_bad" [.text "http status", blanks, .text ": "] " non-206",
      count B "hdr_bad" [.text "response heads: "] " did not match",
      ⟨"tail_ms_max",
        .seqs [.bol, .text "TAIL STATS", blank, .text ": idle_max_ms=", .group (figure B)], .float⟩,
      ⟨"tail_ms_avg", statistic "TAIL STATS" "idle_avg_ms=" (figure B), .float⟩,
      ⟨"ttfb_us_avg", statistic "REQ STATS" "ttfb_us_avg=" (digits B), .int⟩,
      ⟨"wire_us_avg", statistic "REQ STATS" "wire_us_avg=" (digits B), .int⟩,
      ⟨"wire_us_p50", statistic "REQ STATS" "wire_us_p50=" (digits B), .int⟩,
      ⟨"wire_us_p99", statistic "REQ STATS" "wire_us_p99=" (digits B), .int⟩,
      ⟨"cpu_user_s",
        .seqs [.bol, .text "CPU STATS", blank, .text ": user_s=", .group (figure B)], .float⟩,
      ⟨"cpu_sys_s", statistic "CPU STATS" "sys_s=" (figure B), .float⟩,
      ⟨"cpu_total_s", statistic "CPU STATS" "total_s=" (figure B), .float⟩,
      ⟨"cores_avg", statistic "CPU STATS" "cores_avg=" (figure B), .float⟩,
      ⟨"pool_s", .seqs [.bol, .text "pool: ", anything, .text " ", .group (figure B),
        .text " s to allocate"], .float⟩,
      count B "tcp_active_opens" [.text "Tcp:ActiveOpens", blanks, .text "+"] "",
      count B "tcp_retrans" [.text "Tcp:RetransSegs", blanks, .text "+"] "",
      ⟨"pinned", .seqs [.bol, .text "pinned", blanks, .text ": ", .group solid], .str⟩,
      LinuxS3.coresIn B, LinuxS3.coresOut B] := rfl

variable {value}

section Lines

variable (hr : r.Legible) {p : Regex} {g : List Char}

include hr

theorem group1_aggregate (ho : Opens "AGGREGATE:".toList p)
    (hit : Hits p (r.aggregateEntry F).line.chars [g]) : p.group1 (r.text F) = some g :=
  group1_eq hr (fun _ he hown => skips_of_free (by decide) ho (Entry.free_aggregate he hown))
    (find?_aggregate F r) hit

theorem group1_transfer (ho : Opens "TRANSFER:".toList p)
    (hit : Hits p (r.transferEntry F).line.chars [g]) : p.group1 (r.text F) = some g :=
  group1_eq hr (fun _ he hown => skips_of_free (by decide) ho (Entry.free_transfer he hown))
    (find?_transfer F r) hit

theorem group1_cpu (ho : Opens "CPU:".toList p) : p.group1 (r.text F) = none :=
  group1_eq_none hr (fun _ => false)
    (fun _ he _ => skips_of_free (by decide) ho (Entry.free_cpu he)) (by simp) ho (by decide)

theorem group1_running (ho : Opens "Instance running:".toList p) : p.group1 (r.text F) = none :=
  group1_eq_none hr (fun _ => false)
    (fun _ he _ => skips_of_free (by decide) ho (Entry.free_running he)) (by simp) ho (by decide)

theorem group1_bytes :
    (Regex.seqs [.text "(", .group (digits B), .text " bytes)"]).group1 (r.text F) =
      some (Nat.toDigits 10 (totalExpected a).toNat) := by
  have hpart : "bytes)".toList <:+: " bytes)".toList := ⟨[' '], [], rfl⟩
  refine group1_eq hr (fun e he hown => ?_) (find?_blocks F r)
    (LinuxS3.Entry.hits_bytes B _ _ _ _)
  exact skips_of_last (by decide) (by decide) (LinuxS3.digit_eq_false B (by decide) rfl)
    ((Entry.free_bytes he hown).extend hpart)

/-- A line of the instance script. -/
theorem group1_elsewhere {label : String} {rest : Regex} {w : List Char} (hw : w ∈ elsewhere)
    (hlabel : w <+: label.toList) :
    (Regex.seq .bol (.seq (.text label) rest)).group1 (r.text F) = none := by
  refine group1_begins_none hr (find?_elsewhere F r hw) hlabel ?_
  rintro rfl
  exact absurd hw (by decide)

end Lines

theorem find?_of_wire (h : ∀ e : Entry, own e = true → e.isWire = true) :
    (r.entries F).find? own = (r.wireEntries F).find? own := by
  have hnot : ∀ e : Entry, e.isWire = false → own e = false := fun e he => by
    cases hown : own e with
    | false => rfl
    | true =>
      rw [h e hown] at he
      cases he
  have hpasses : Passes own :=
    ⟨fun _ => hnot _ rfl, fun _ _ _ _ _ => hnot _ rfl, fun _ => hnot _ rfl⟩
  have hopens : (r.opens F).find? own = none := by
    refine List.find?_eq_none.mpr fun e he => ?_
    have hw : e.isWire = false := by
      simp only [opens, header, List.cons_append, List.nil_append, List.mem_cons,
        List.not_mem_nil, or_false] at he
      rcases he with rfl | rfl | rfl | rfl | rfl | rfl | rfl | rfl | rfl <;> rfl
    simp [hnot e hw]
  have hverdict : r.verdictEntry.isWire = false := by
    rw [verdictEntry]
    split <;> rfl
  have hcloses : r.closes.find? own = none := by
    refine List.find?_eq_none.mpr fun e he => ?_
    have hw : e.isWire = false := by
      simp only [closes, List.mem_cons, List.not_mem_nil, or_false] at he
      rcases he with rfl | rfl | rfl | rfl | rfl | rfl | rfl | rfl | rfl | rfl | rfl | rfl
      all_goals first | rfl | exact hverdict
    simp [hnot e hw]
  rw [find?_entries hpasses, hopens, hcloses, Option.none_or, Option.or_none]

theorem read_wire (hr : r.Legible) (hvalue : Reads B value) {name label : String}
    (own : LinuxS3.Entry → Bool) {own' : Entry → Bool}
    (hboth : ∀ e : Entry, own' e = true → ∃ e', e = .both e' ∧ own e' = true)
    (hwire : ∀ e : LinuxS3.Entry, own e = true → e.isWire = true)
    (hskip : ∀ e : Entry, e.Clean → own' e = false →
      Skips (LinuxS3.wire B name label).pattern e.line.chars)
    (hit : ∀ e : LinuxS3.Entry, own e = true → ∃ units, e.rate = some units ∧
      Hits (LinuxS3.wire B name label).pattern e.line.chars [LinuxS3.fixedChars 3 units])
    (hlabel : label.toList ≠ []) :
    (LinuxS3.wire B name label).read B (r.text F) =
      some (rateColumn value (wireRate F r own')) := by
  have hfind : (r.entries F).find? own' = (r.wireEntries F).find? own' :=
    find?_of_wire fun e he => by
      obtain ⟨e', rfl, he'⟩ := hboth e he
      exact hwire e' he'
  cases he : (r.wireEntries F).find? own' with
  | none =>
    rw [wireRate, he]
    exact read_none (group1_eq_none hr own' hskip (hfind.trans he)
      (LinuxS3.Report.opens_line List.prefix_rfl) hlabel)
  | some e =>
    obtain ⟨e', rfl, he'⟩ := hboth e (List.find?_some he)
    obtain ⟨units, hrate, hit⟩ := hit e' he'
    rw [wireRate, he, Option.bind_some, Entry.rate, hrate]
    exact read_eq (group1_eq hr hskip (hfind.trans he) hit) (cast_float hvalue 3 units)

theorem read_run (hr : r.Legible) (hvalue : Reads B value) :
    (LinuxS3.wire B "gbps_wire" "WIRE").read B (r.text F) =
      some (rateColumn value (wireRate F r Entry.isRun)) := by
  refine read_wire hr hvalue LinuxS3.Entry.isRun (fun e he => ?_) (fun e he => ?_)
    (fun e he hown => Entry.skips_run B he hown) (fun e he => ?_) (by decide)
  · cases e with
    | both e' => exact ⟨e', rfl, he⟩
    | _ => cases he
  · cases e with
    | wire => rfl
    | _ => cases he
  · cases e with
    | wire gbps bytes => exact ⟨gbps, rfl, LinuxS3.Entry.hits_wireGbps B gbps bytes⟩
    | _ => cases he

theorem read_steady (hr : r.Legible) (hvalue : Reads B value) :
    (LinuxS3.wire B "gbps_wire_steady" "WIRE STEADY").read B (r.text F) =
      some (rateColumn value (wireRate F r Entry.isSteady)) := by
  refine read_wire hr hvalue LinuxS3.Entry.isSteady (fun e he => ?_) (fun e he => ?_)
    (fun e he hown => Entry.skips_steady B he hown) (fun e he => ?_) (by decide)
  · cases e with
    | both e' => exact ⟨e', rfl, he⟩
    | _ => cases he
  · cases e with
    | steady => rfl
    | _ => cases he
  · cases e with
    | steady gbps start stop bytes =>
      exact ⟨gbps, rfl, LinuxS3.Entry.hits_steady B gbps bytes start stop⟩
    | _ => cases he

theorem read_peak (hr : r.Legible) (hvalue : Reads B value) :
    (LinuxS3.wire B "gbps_wire_peak" "WIRE PEAK").read B (r.text F) =
      some (rateColumn value (wireRate F r Entry.isPeak)) := by
  refine read_wire hr hvalue LinuxS3.Entry.isPeak (fun e he => ?_) (fun e he => ?_)
    (fun e he hown => Entry.skips_peak B he hown) (fun e he => ?_) (by decide)
  · cases e with
    | both e' => exact ⟨e', rfl, he⟩
    | _ => cases he
  · cases e with
    | peak => rfl
    | _ => cases he
  · cases e with
    | peak gbps => exact ⟨gbps, rfl, LinuxS3.Entry.hits_peak B gbps⟩
    | _ => cases he

theorem read_tail (hr : r.Legible) (hvalue : Reads B value) {name : Name} {rest : Regex}
    (hit : ∀ idle, Hits (.seq .bol (.seq (.text "TAIL STATS") rest))
      (Entry.tail idle).line.chars [LinuxS3.fixedChars 1 idle]) :
    (Metric.mk name (.seq .bol (.seq (.text "TAIL STATS") rest)) .float).read B (r.text F) =
      some (tailColumn value (wireTail F r)) := by
  have hfind : (r.entries F).find? Entry.isTail = (r.wireEntries F).find? Entry.isTail :=
    find?_of_wire fun e he => by
      cases e with
      | tail => rfl
      | _ => cases he
  have hskip : ∀ e : Entry, e.Clean → e.isTail = false →
      Skips (.seq .bol (.seq (.text "TAIL STATS") rest)) e.line.chars := fun e he hown =>
    Entry.skips_of_begins he trivial (LinuxS3.Report.opens_line ⟨_, rfl⟩)
      (Entry.begins_of_isTail hown)
  cases he : (r.wireEntries F).find? Entry.isTail with
  | none =>
    rw [wireTail, he]
    exact read_none (group1_eq_none hr Entry.isTail hskip (hfind.trans he)
      (LinuxS3.Report.opens_line List.prefix_rfl) (by decide))
  | some e =>
    have htail := List.find?_some he
    cases e with
    | tail idle =>
      rw [wireTail, he]
      exact read_eq (group1_eq hr hskip (hfind.trans he) (hit idle)) (cast_float hvalue 1 idle)
    | _ => cases htail

theorem port_lt (r : Report a) : r.port < 2 ^ 64 := by
  rw [port]
  split <;> decide

/-- Each metric, with the column that it reads. -/
theorem forall₂_table (hr : r.Legible) (hvalue : Reads B value) :
    List.Forall₂ (fun m f => m.name = f.1 ∧ m.read B (r.text F) = some f.2) (metrics B)
      (table value F r) := by
  have hcpu : ∀ {rest : Regex}, Opens "CPU:".toList (.seq (.text "CPU: ") rest) :=
    (Opens.lit.shorter ⟨_, rfl⟩).seq
  have hrunning : ∀ {rest : Regex}, Opens "Instance running:".toList (.seq running rest) :=
    (Opens.lit.shorter ⟨_, rfl⟩).seq.seq
  have hzero : (0 : Nat) < 2 ^ 64 := by decide
  rw [metrics_eq]
  -- one goal for each metric, in the order of the table
  repeat' refine List.Forall₂.cons ⟨rfl, ?_⟩ ?_
  · exact read_eq (group1_begins hr (find?_bench F r) (Entry.hits_tlsStub B _ _ _ _ _ _) ⟨_, rfl⟩)
      rfl
  · exact read_eq (group1_begins hr (find?_bench F r) (Entry.hits_scheme B _ _ _ _ _ _) ⟨_, rfl⟩)
      (by simp [Cast.apply])
  · exact read_eq (group1_aggregate hr Opens.lit.seq (LinuxS3.Entry.hits_gbps B _ _ _ _))
      (cast_float hvalue _ _)
  · exact read_eq (group1_transfer hr Opens.lit.seq (LinuxS3.Entry.hits_transfer B _ _ _ _ _))
      (cast_float hvalue _ _)
  -- lines that AnyBlob does not print
  · exact read_none (group1_cpu hr hcpu)
  · exact read_none (group1_cpu hr hcpu)
  · exact read_none (group1_cpu hr hcpu)
  · exact read_eq (group1_aggregate hr Opens.lit.seq (LinuxS3.Entry.hits_mbPerS B _ _ _ _))
      (cast_float hvalue _ _)
  · exact read_eq (group1_aggregate hr (Opens.lit.shorter ⟨_, rfl⟩).seq
        (LinuxS3.Entry.hits_elapsed B _ _ _ _))
      (cast_float hvalue _ _)
  · exact read_eq (group1_begins hr (find?_connections F r)
        (LinuxS3.Entry.hits_connsClean B _ _ _) ⟨_, rfl⟩)
      (cast_uint _)
  · exact read_eq (group1_begins hr (find?_connections F r)
        (LinuxS3.Entry.hits_connsTotal B _ _ _) ⟨_, rfl⟩)
      (cast_uint _)
  · exact read_eq (group1_begins hr (find?_misrouted F r) (LinuxS3.Entry.hits_misrouted B) ⟨_, rfl⟩)
      (cast_int hzero)
  · exact read_eq (group1_begins hr (find?_setup F r) (Entry.hits_setupConns B _) ⟨_, rfl⟩)
      (cast_int hzero)
  · exact read_eq (group1_begins hr (find?_setup F r)
        (Entry.hits_setupStat B _ (.head _)) ⟨_, rfl⟩)
      (cast_uint _)
  · exact read_eq (group1_begins hr (find?_setup F r)
        (Entry.hits_setupStat B _ (.tail _ (.head _))) ⟨_, rfl⟩)
      (cast_int hzero)
  · exact read_eq (group1_begins hr (find?_setup F r)
        (Entry.hits_setupStat B _ (.tail _ (.tail _ (.head _)))) ⟨_, rfl⟩)
      (cast_int hzero)
  · exact read_eq (group1_begins hr (find?_setup F r)
        (Entry.hits_setupStat B _ (.tail _ (.tail _ (.tail _ (.head _))))) ⟨_, rfl⟩)
      (cast_int hzero)
  · exact read_eq (group1_begins hr (find?_setup F r)
        (Entry.hits_setupStat B _ (.tail _ (.tail _ (.tail _ (.tail _ (.head _)))))) ⟨_, rfl⟩)
      (cast_int hzero)
  · exact read_eq (group1_begins hr (find?_dial F r) (LinuxS3.Entry.hits_dialN B _) ⟨_, rfl⟩)
      (cast_int hzero)
  · exact read_eq (group1_begins hr (find?_dial F r)
        (LinuxS3.Entry.hits_dialStat B _ (.head _)) ⟨_, rfl⟩)
      (cast_int hzero)
  · exact read_eq (group1_begins hr (find?_dial F r)
        (LinuxS3.Entry.hits_dialStat B _ (.tail _ (.head _))) ⟨_, rfl⟩)
      (cast_int hzero)
  · exact read_eq (group1_begins hr (find?_dial F r)
        (LinuxS3.Entry.hits_dialStat B _ (.tail _ (.tail _ (.head _)))) ⟨_, rfl⟩)
      (cast_int hzero)
  · exact read_eq (group1_begins hr (find?_dial F r)
        (LinuxS3.Entry.hits_dialStat B _ (.tail _ (.tail _ (.tail _ (.head _))))) ⟨_, rfl⟩)
      (cast_int hzero)
  · exact read_eq (group1_begins hr (find?_dial F r) (LinuxS3.Entry.hits_loopMs B _) ⟨_, rfl⟩)
      (cast_float hvalue _ _)
  · exact read_eq (group1_transfer hr Opens.lit.seq (LinuxS3.Entry.hits_transfer B _ _ _ _ _))
      (cast_float hvalue _ _)
  · exact read_eq (group1_transfer hr Opens.lit.seq (LinuxS3.Entry.hits_setupWall B _ _ _ _ _))
      (cast_float hvalue _ _)
  · exact read_eq (group1_bytes hr) (cast_uint _)
  · exact read_eq (group1_begins hr (find?_target F r)
        (Entry.hits_targetIp B (isAddress_shown hr.address) (shown_ne r) _ _) ⟨_, rfl⟩)
      (by simp [Cast.apply])
  · exact read_eq (group1_begins hr (find?_target F r)
        (Entry.hits_targetPort B (isAddress_shown hr.address) (shown_ne r) _ _) ⟨_, rfl⟩)
      (cast_int (port_lt r))
  · exact read_none (group1_running hr hrunning)
  · exact read_none (group1_running hr hrunning)
  · exact read_run hr hvalue
  · exact read_steady hr hvalue
  · exact read_peak hr hvalue
  · exact read_eq (group1_begins hr (find?_bench F r) (Entry.hits_workers B _ _ _ _ _ _) ⟨_, rfl⟩)
      (cast_int (Nat.lt_trans a.c.workers.toNat_lt (by decide)))
  · exact read_eq (group1_begins hr (find?_http F r) (Entry.hits_httpBad B _ _) ⟨_, rfl⟩)
      (cast_uint _)
  · exact read_eq (group1_begins hr (find?_heads F r) (Entry.hits_hdrBad B _) ⟨_, rfl⟩)
      (cast_uint _)
  · exact read_tail hr hvalue (Entry.hits_tailMax B)
  · exact read_tail hr hvalue (Entry.hits_tailAvg B)
  · exact read_eq (group1_begins hr (find?_req F r)
        (Entry.hits_reqStat B _ _ (.head _)) ⟨_, rfl⟩)
      (cast_uint _)
  · exact read_eq (group1_begins hr (find?_req F r)
        (Entry.hits_reqStat B _ _ (.tail _ (.tail _ (.head _)))) ⟨_, rfl⟩)
      (cast_uint _)
  · exact read_eq (group1_begins hr (find?_req F r)
        (Entry.hits_reqStat B _ _ (.tail _ (.tail _ (.tail _ (.head _))))) ⟨_, rfl⟩)
      (cast_uint _)
  · exact read_eq (group1_begins hr (find?_req F r)
        (Entry.hits_reqStat B _ _ (.tail _ (.tail _ (.tail _ (.tail _ (.tail _ (.head _)))))))
        ⟨_, rfl⟩)
      (cast_uint _)
  · exact read_eq (group1_begins hr (find?_cpu F r) (Entry.hits_user B _ _ _ _ _ _) ⟨_, rfl⟩)
      (cast_float hvalue _ _)
  · exact read_eq (group1_begins hr (find?_cpu F r) (Entry.hits_sys B _ _ _ _ _ _) ⟨_, rfl⟩)
      (cast_float hvalue _ _)
  · exact read_eq (group1_begins hr (find?_cpu F r) (Entry.hits_cpuTotal B _ _ _ _ _ _) ⟨_, rfl⟩)
      (cast_float hvalue _ _)
  · exact read_eq (group1_begins hr (find?_cpu F r) (Entry.hits_cores B _ _ _ _ _ _) ⟨_, rfl⟩)
      (cast_float hvalue _ _)
  · exact read_eq (group1_begins hr (find?_pool F r) (Entry.hits_pool B _ _ _) ⟨_, rfl⟩)
      (cast_float hvalue _ _)
  -- lines of the instance script
  · exact read_none (group1_elsewhere hr (.head _) ⟨_, rfl⟩)
  · exact read_none (group1_elsewhere hr (.head _) ⟨_, rfl⟩)
  · exact read_none (group1_elsewhere hr (.tail _ (.head _)) ⟨_, rfl⟩)
  · exact read_none (group1_elsewhere hr (.tail _ (.tail _ (.head _))) ⟨_, rfl⟩)
  · exact read_none (group1_elsewhere hr (.tail _ (.tail _ (.head _))) ⟨_, rfl⟩)
  · exact .nil

/-- **What `parse` reads is what was printed.** -/
theorem parse_text (hr : r.Legible) (hvalue : Reads B value) :
    parse B (metrics B) (r.text F) = some (ofFields B (table value F r)) := by
  rw [parse, mapM_read (forall₂_table hr hvalue)]
  rfl

/-- **The last line is `COMPLETE` when the run is.** -/
theorem found_completed (hr : r.Legible) :
    completed.found (r.text F) = complete r.state := by
  have hopens : Opens ['C', 'O'] completed := Opens.bol (Opens.lit.shorter ⟨_, rfl⟩)
  have hskip : ∀ e : Entry, e.Clean → Entry.begins ['C', 'O'] e = false →
      Skips completed e.line.chars := fun e he hown =>
    Entry.skips_of_begins he trivial hopens hown
  have hfind := find?_verdict F r
  cases hcomplete : complete r.state with
  | true =>
    rw [hcomplete, if_pos rfl] at hfind
    have hit : Hits completed r.verdictEntry.line.chars [] := by
      rw [verdictEntry, if_pos hcomplete]
      exact LinuxS3.hits_label
    obtain ⟨c, hsearch⟩ := search_text hr hskip hfind hit
    rw [found, hsearch]
    rfl
  | false =>
    rw [hcomplete] at hfind
    rw [found, search_text_none hr _ hskip hfind hopens (by decide)]
    rfl

/-- The row of a run. -/
def row (value : Nat → Nat → B.Float) (F : Floats) (r : Report a) (setting : Setting) : Record B :=
  Record.putAll (ofFields B (table value F r))
    (LinuxS3.sets B setting (r.text F) ++ serverSets B setting)

theorem rows_text (hr : r.Legible) (hvalue : Reads B value) (setting : Setting) :
    (stack B).rows B setting (r.text F) = some [row value F r setting] := by
  show ((List.mapM (parse B (metrics B)) [r.text F]).map fun rows => _) = _
  rw [List.mapM_cons, parse_text hr hvalue]
  rfl

theorem row_of_not_mem {key : Name} (h : key ∉ setNames) (setting : Setting) :
    row value F r setting key = ofFields B (table value F r) key :=
  putAll_of_not_mem (fun hmem =>
    h (map_fst_append (map_fst_launch setting (r.text F)) (Or.inr (Or.inl rfl)) key hmem)) _

theorem row_complete (hr : r.Legible) (setting : Setting) :
    row value F r setting "complete" = .bool (complete r.state) := by
  have hserver : "complete" ∉ (serverSets B setting).map Prod.fst := fun h =>
    absurd (map_fst_serverSets (Or.inr (Or.inl rfl)) _ h) (by decide)
  have hnodup : ((LinuxS3.sets B setting (r.text F)).map Prod.fst).Nodup := by
    show ["market", "zone", "complete", "instance_id", "log", "interrupted",
      "allowance_exceeded"].Nodup
    decide
  rw [row, putAll_append, putAll_of_not_mem hserver, ← found_completed (F := F) hr]
  exact putAll_of_mem hnodup (.tail _ (.tail _ (.head _))) _

/-- The gate is that of `main`. -/
theorem valid_row (hr : r.Legible) (setting : Setting) :
    AnyBlob.valid B (row value F r setting) = complete r.state := by
  have hfield : ∀ {key : Name} {v : Scalar B}, key ∉ setNames →
      ofFields B (table value F r) key = v → row value F r setting key = v :=
    fun hkey hv => (row_of_not_mem hkey setting).trans hv
  have hp50 : row value F r setting "setup_us_p50" = .int 0 := hfield (by decide) rfl
  have hmax : row value F r setting "setup_us_max" = .int 0 := hfield (by decide) rfl
  have hmisrouted : row value F r setting "misrouted" = .int 0 := hfield (by decide) rfl
  have hhttp : row value F r setting "http_bad" = .int r.state.badStatus.toNat :=
    hfield (by decide) rfl
  have hhdr : row value F r setting "hdr_bad" = .int r.state.shortBody.toNat :=
    hfield (by decide) rfl
  have htotal : row value F r setting "conns_total" = .int a.c.requests.toNat :=
    hfield (by decide) rfl
  have hclean : row value F r setting "conns_clean" = .int r.state.ok.toNat :=
    hfield (by decide) rfl
  have hsetup : setupOk (row value F r setting) = true := by
    rw [setupOk, hp50, hmax]
    rfl
  rw [AnyBlob.valid, Runner.valid, row_complete hr, hsetup, hmisrouted, hhttp, hhdr, htotal,
    hclean]
  cases hcomplete : complete r.state with
  | false => rfl
  | true =>
    -- what `main` found is what the other columns say again
    obtain ⟨hok, -, -, hbad, hshort⟩ := (complete_iff r.state).mp hcomplete
    rw [hok, hbad, hshort]
    simp [Scalar.truthy, Scalar.or]

end Row

end Report

end AnyBlob
