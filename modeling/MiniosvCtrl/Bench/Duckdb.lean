import MiniosvCtrl.Bench.OnS3

/-!
# The benches that run TPC-H

duckdb-tpch and duckdb-linux: their knobs and metrics, the rows that `run_once` makes of a boot's
console, and the gates. A boot may run several queries, and each gets a row of its own, parsed
from the text between its `Qnn:` line and the next one.

* `heads`, `slices` — the lines that begin a query, and the texts between them
* `DuckdbTpch.stack`
* `DuckdbLinux.stack` — an echoed line begins no query, and the NIC is read off the whole text
-/

open Infra Runner

variable (B : Builtins)

/-! ## The queries of a boot -/

namespace Tpch

/-- `^Q(\d+): ` -/
def head : Regex := .seqs [.bol, .text "Q", .group (digits B), .text ": "]

/-- Where the queries begin: the text from there on, and the query. -/
def heads (text : List Char) : List (List Char × List Char) :=
  ((head B).starts text).map fun f => (f.1, f.2.2.head?.getD [])

/-- Each text up to where the next one begins. -/
def slices : List (List Char) → List (List Char)
  | [] => []
  | [h] => [h]
  | h :: h' :: rest => h.take (h.length - h'.length) :: slices (h' :: rest)

/-- The texts of the rows, given where the queries begin; `none`: a query is no number. -/
def blocks (found : List (List Char × List Char)) (text : List Char) :
    Option (List (List Char)) :=
  if found.length ≤ 1 then some [text]
  else if found.all (fun h => (B.int h.2).isSome) then some (slices (found.map Prod.fst)) else none

/-- `query` and `query_seq`, of the `n`-th of several. -/
def query (found : List (List Char × List Char)) (n : Nat) : List (Name × Scalar B) :=
  if found.length ≤ 1 then []
  else
    [("query", .int (((found[n]?).bind fun h => B.int h.2).getD 0)), ("query_seq", .int (n + 1))]

/-! ### Patterns -/

/-- `^Q\d+: ` -/
def line : Regex := .seqs [.bol, .text "Q", digits B, .text ": "]

/-- `^label: .*\bkeyvalue` -/
def stat (label key : String) (value : Regex) : Regex :=
  .seqs [.bol, .text label, .text ": ", anything, edge B, .text key, .group value]

/-- The same, without `\b`. -/
def plain (label key : String) (value : Regex) : Regex :=
  .seqs [.bol, .text label, .text ": ", anything, .text key, .group value]

/-- `^label: keyvalue` -/
def leading (label key : String) (value : Regex) : Regex :=
  .seqs [.bol, .text label, .text ": ", .text key, .group value]

/-- `^PROBE: name=step ms=([\d.]+)` -/
def probe (step : String) : Metric :=
  ⟨"probe_" ++ step ++ "_ms", leading "PROBE" ("name=" ++ step ++ " ms=") (figure B), .float⟩

/-- What the two arms print alike. -/
def shared : List Metric :=
  [⟨"query_ms", .seqs [line B, .group (figure B), .text " ms,"], .float⟩,
    ⟨"rows", .seqs [line B, figure B, .text " ms, ", .group (digits B), .text " rows"], .int⟩,
    ⟨"match", .seqs [line B, figure B, .text " ms, ", digits B, .text " rows, match=",
      .group (letters B)], .str⟩,
    ⟨"queries_ok", leading "TPCH SUMMARY" "ok=" (digits B), .int⟩,
    ⟨"queries_total", .seqs [.bol, .text "TPCH SUMMARY: ok=", digits B, .text " total=",
      .group (digits B)], .int⟩,
    ⟨"checked", .seqs [.text "checked=", .group (digits B)], .int⟩,
    ⟨"matched", .seqs [.text "matched=", .group (digits B)], .int⟩,
    ⟨"http_n", stat B "HTTP STATS" "n=" (digits B), .int⟩,
    ⟨"http_get", stat B "HTTP STATS" "get=" (digits B), .int⟩,
    ⟨"http_head", stat B "HTTP STATS" "head=" (digits B), .int⟩,
    ⟨"http_ms_avg", stat B "HTTP STATS" "ms_avg=" (figure B), .float⟩,
    ⟨"http_ms_p50", stat B "HTTP STATS" "ms_p50=" (figure B), .float⟩,
    ⟨"http_ms_p90", stat B "HTTP STATS" "ms_p90=" (figure B), .float⟩,
    ⟨"http_ms_p99", stat B "HTTP STATS" "ms_p99=" (figure B), .float⟩,
    ⟨"http_ms_max", stat B "HTTP STATS" "ms_max=" (figure B), .float⟩,
    ⟨"http_ms_sum", stat B "HTTP STATS" "ms_sum=" (figure B), .float⟩,
    ⟨"http_window_ms", stat B "HTTP STATS" "window_ms=" (figure B), .float⟩,
    ⟨"http_concurrency", stat B "HTTP STATS" "concurrency=" (figure B), .float⟩,
    ⟨"http_failed", leading "HTTP STATS" "" (.text "FAILED"), .str⟩,
    probe B "range_scan", probe B "hash_agg", probe B "dbgen", probe B "par_t1",
    probe B "par_tall", probe B "par_t1_4x", probe B "par_tall_4x", probe B "q01_local",
    probe B "q06_local",
    ⟨"probe_failed", .seqs [.bol, .text "PROBE: name=", solid, .text " ", .group (.text "FAILED")],
      .str⟩,
    ⟨"cpuprobe_ok", .seqs [.bol, .opt (.text "IN"), .text "COMPLETE: cpuprobe ok=",
      .group (digits B)], .int⟩,
    ⟨"market", market, .str⟩, ⟨"zone", zone B, .str⟩]

/-- `^arm: sf=[\d.]+, \d+ quer\w+, bucket \S+ \((\w+)\)` -/
def scheme (arm : String) : Metric :=
  ⟨"scheme", .seqs [.bol, .text arm, .text ": sf=", figure B, .text ", ", digits B, .text " quer",
    letters B, .text ", bucket ", solid, .text " (", .group (letters B), .text ")"], .str⟩

/-- `lambda v: int(v) if str(v).strip().isdigit() else str(v).strip()` -/
def queryKnob (t : String) : Option Value :=
  let l := (strip t).toList
  if l ≠ [] ∧ l.all B.digit = true then (B.int l).map fun n => .int n else some (.str (strip t))

/-- `str(row.get("cpuprobe") or "") == "1"` -/
def cpuprobe (row : Record B) : Bool := ((row "cpuprobe").or (.str "")).text == "1"

/-- Every step of the ladder. -/
def ladder (row : Record B) : Bool :=
  (row "probe_failed").isNone && row "cpuprobe_ok" == .int 9

end Tpch

open Tpch

/-! ## duckdb-tpch -/

namespace DuckdbTpch

def bench : Bench :=
  { knobs :=
      [⟨"query", queryKnob B, .int 6⟩, ⟨"sf", strKnob, .str "1"⟩, ⟨"threads", intKnob B, .int 0⟩,
        ⟨"memlimit", strKnob, .str ""⟩, ⟨"httplog", strKnob, .str ""⟩,
        ⟨"cpuprobe", strKnob, .str ""⟩, ⟨"profile", strKnob, .str ""⟩,
        ⟨"workers", intKnob B, .int 2⟩, ⟨"conns", intKnob B, .int 8⟩, ⟨"tls", intKnob B, .int 1⟩]
    nodup := by simp
    not_main := by simp [mainColumns] }

/-- `^CPUS: name=step .*key`, with a group for the value. -/
def cpus (name step key : String) (value : Regex) : Metric :=
  ⟨name, .seqs [.bol, .text "CPUS: name=", .text step, .text " ", anything, .text key,
    .group value], .float⟩

/-- `^CPUS: name=q\d\d ` -/
def cpusOfQuery : Regex :=
  .seqs [.bol, .text "CPUS: name=q", .one B.digit, .one B.digit, .text " "]

def metrics : List Metric :=
  overlay (shared B)
    [scheme B "tpch",
      ⟨"net_ms", .seqs [line B, anything, .text "net_ms=", .group (figure B)], .float⟩,
      ⟨"net_calls", .seqs [line B, anything, .text "net_calls=", .group (digits B)], .int⟩,
      ⟨"net_active_ms", .seqs [line B, anything, .text "net_active_ms=", .group (figure B)],
        .float⟩,
      ⟨"memory_limit", leading "memory" "limit=" solid, .str⟩,
      ⟨"requests_retried", plain "BUF STATS" "retried=" (digits B), .int⟩,
      ⟨"hw_concurrency", leading "cpus" "hw_concurrency=" (digits B), .int⟩,
      ⟨"duckdb_threads", plain "cpus" "duckdb_threads=" (digits B), .int⟩,
      ⟨"requests", stat B "REQ STATS" "requests=" (digits B), .int⟩,
      ⟨"reused", stat B "REQ STATS" "reused=" (digits B), .int⟩,
      ⟨"queue_us_avg", leading "REQ STATS" "queue_us_avg=" (digits B), .int⟩,
      ⟨"wire_us_avg", plain "REQ STATS" "wire_us_avg=" (digits B), .int⟩,
      ⟨"body_bytes", plain "REQ STATS" "bytes=" (digits B), .int⟩,
      ⟨"mb_per_s", plain "REQ STATS" "mb_per_s=" (figure B), .float⟩,
      ⟨"poll_iters", leading "POLL STATS" "iters=" (digits B), .int⟩,
      ⟨"poll_gap_us_avg", plain "POLL STATS" "gap_us_avg=" (figure B), .float⟩,
      ⟨"poll_gap_us_max", plain "POLL STATS" "gap_us_max=" (digits B), .int⟩,
      ⟨"poll_gaps_over_1ms", plain "POLL STATS" "gaps_over_1ms=" (digits B), .int⟩,
      ⟨"poll_busy_us_max", plain "POLL STATS" "busy_us_max=" (digits B), .int⟩,
      ⟨"poll_loop_us_max", plain "POLL STATS" "loop_us_max=" (digits B), .int⟩,
      ⟨"iface_us_max", leading "STALL STATS" "iface_us_max=" (digits B), .int⟩,
      ⟨"steps_us_max", plain "STALL STATS" "steps_us_max=" (digits B), .int⟩,
      ⟨"conns_established", leading "SETUP STATS" "conns=" (digits B), .int⟩,
      ⟨"conns_failed", plain "SETUP STATS" "failed=" (digits B), .int⟩,
      ⟨"syn_retries", plain "SETUP STATS" "syn_retries=" (digits B), .int⟩,
      ⟨"setup_us_avg", plain "SETUP STATS" "setup_us_avg=" (digits B), .int⟩,
      ⟨"wake_n", leading "WAKE STATS" "n=" (digits B), .int⟩,
      ⟨"wake_ns_avg", stat B "WAKE STATS" "ns_avg=" (digits B), .int⟩,
      ⟨"wake_us_max", stat B "WAKE STATS" "us_max=" (figure B), .float⟩,
      ⟨"wake_ms_total", stat B "WAKE STATS" "ms_total=" (figure B), .float⟩,
      ⟨"ttfb_us_avg", leading "LATENCY STATS" "ttfb_us_avg=" (digits B), .int⟩,
      ⟨"xfer_us_avg", plain "LATENCY STATS" "xfer_us_avg=" (digits B), .int⟩,
      ⟨"imissed", leading "DROP STATS" "imissed=" (digits B), .int⟩,
      ⟨"ierrors", plain "DROP STATS" "ierrors=" (digits B), .int⟩,
      ⟨"rx_nombuf", plain "DROP STATS" "rx_nombuf=" (digits B), .int⟩,
      ⟨"misrouted", plain "DROP STATS" "misrouted=" (digits B), .int⟩,
      ⟨"tx_alloc_fail", plain "DROP STATS" "tx_alloc_fail=" (digits B), .int⟩,
      ⟨"tx_burst_fail", plain "DROP STATS" "tx_burst_fail=" (digits B), .int⟩,
      ⟨"nic_ipackets", plain "DROP STATS" "ipackets=" (digits B), .int⟩,
      ⟨"nic_ibytes", plain "DROP STATS" "ibytes=" (digits B), .int⟩,
      ⟨"tlb_shootdowns", leading "TLB STATS" "shootdowns=" (digits B), .int⟩,
      ⟨"tlb_worker_ipis", stat B "TLB STATS" "worker_ipis=" (digits B), .int⟩,
      cpus "cpus_par_t1" "par_t1" "parallelism=" (figure B),
      cpus "cpus_par_tall" "par_tall" "parallelism=" (figure B),
      ⟨"cpus_busy_par_tall", leading "CPUS" "name=par_tall busy=" (digits B), .int⟩,
      cpus "cpus_q01_local" "q01_local" "parallelism=" (figure B),
      cpus "cpus_dbgen" "dbgen" "parallelism=" (figure B),
      ⟨"cpus_query", .seqs [cpusOfQuery B, anything, .text "parallelism=", .group (figure B)],
        .float⟩,
      ⟨"cpus_query_busy", .seqs [cpusOfQuery B, .text "busy=", .group (digits B)], .int⟩,
      ⟨"cpus_query_app", .seqs [cpusOfQuery B, anything, .text "parallelism_app=",
        .group (.seq (.opt (.text "-")) (figure B))], .float⟩,
      ⟨"poll_busy_ms", plain "POLL STATS" "busy_ms=" (figure B), .float⟩,
      ⟨"poll_work_ms", plain "POLL STATS" "work_ms=" (figure B), .float⟩]

/-- How a guest reports that it is dead. -/
def crash : Regex :=
  .seqs [.bol,
    .alt (.seq (.text "page fault outside application") anything)
      (.alt (.seq (.text "Assertion failed:") anything)
        (.alt (.text "Aborted")
          (.alt (.text "[backtrace]") (.seq (.text "sched: n==p") anything)))),
    .eol]

def valid (row : Record B) : Bool :=
  (row "complete").truthy && (Tpch.cpuprobe B row || !(row "query_ms").isNone) &&
    if Tpch.cpuprobe B row then Tpch.ladder B row else row "match" != .str "no"

def stack : Stack B :=
  { bench := bench B
    metrics := metrics B
    headline := "query_ms"
    valid := fun _ => valid B
    blocks := fun text =>
      if SmoltcpS3.refused.found text then none else Tpch.blocks B (heads B text) text
    sets := fun s text n _ =>
      [("complete", .bool (completed.found text)), ("crashed", .bool (crash.found text)),
        ("log", .str s.launched.log), ("interrupted", .bool s.launched.reclaimed)] ++
      Tpch.query B (heads B text) n }

end DuckdbTpch

/-! ## duckdb-linux -/

namespace DuckdbLinux

def bench : Bench :=
  { knobs :=
      [⟨"query", queryKnob B, .int 6⟩, ⟨"sf", strKnob, .str "1"⟩, ⟨"pin", strKnob, .str ""⟩,
        ⟨"gro", strKnob, .str ""⟩, ⟨"queues", strKnob, .str ""⟩, ⟨"httplog", strKnob, .str ""⟩,
        ⟨"netphase", strKnob, .str ""⟩, ⟨"cpuprobe", strKnob, .str ""⟩,
        ⟨"threads", intKnob B, .int 0⟩, ⟨"scheme", strKnob, .str "https"⟩]
    nodup := by simp
    not_main := by simp [mainColumns] }

/-- Read back off the NIC. -/
def nic : List Metric :=
  [⟨"nic_gro", .seqs [.bol, .text "nic: iface=", solid, .text " gro=", .group solid], .str⟩,
    ⟨"nic_queues", .seqs [.bol, .text "nic: iface=", solid, .text " gro=", solid,
      .text " combined=", .group (digits B)], .int⟩,
    ⟨"nic_tune_failed", leading "nic" "" (.text "FAILED"), .str⟩]

def metrics : List Metric :=
  overlay (shared B)
    (nic B ++
      [scheme B "tpch-linux",
        ⟨"pinned_ip", .seqs [.bol, .text "pinned ", solid, .text " -> ", .group (figure B)], .str⟩,
        ⟨"nic_iface", .seqs [.bol, .text "nic: iface=", .group solid], .str⟩,
        ⟨"summary_ms", .seqs [.bol, .text "TPCH SUMMARY: ok=", digits B, .text " total=", digits B,
          .text " ms=", .group (figure B)], .float⟩,
        ⟨"http_profile_ms", stat B "HTTP STATS" "profile_ms=" (figure B), .float⟩,
        ⟨"http_active_ms", stat B "HTTP STATS" "active_ms=" (figure B), .float⟩,
        ⟨"np_n", stat B "NET PHASE" "n=" (digits B), .int⟩,
        ⟨"np_ttfb_ms_avg", stat B "NET PHASE" "ttfb_ms_avg=" (figure B), .float⟩,
        ⟨"np_body_ms_avg", stat B "NET PHASE" "body_ms_avg=" (figure B), .float⟩,
        ⟨"np_gap_ms_avg", stat B "NET PHASE" "gap_ms_avg=" (figure B), .float⟩,
        ⟨"np_ttfb_ms_p50", stat B "NET PHASE" "ttfb_ms_p50=" (figure B), .float⟩,
        ⟨"np_body_ms_p50", stat B "NET PHASE" "body_ms_p50=" (figure B), .float⟩,
        ⟨"np_hs_n", stat B "NET PHASE" "hs_n=" (digits B), .int⟩,
        ⟨"np_hs_ms_avg", stat B "NET PHASE" "hs_ms_avg=" (figure B), .float⟩,
        ⟨"np_conns", stat B "NET PHASE" "conns=" (digits B), .int⟩,
        ⟨"np_bytes", stat B "NET PHASE" "bytes=" (digits B), .int⟩,
        ⟨"np_window_ms", stat B "NET PHASE" "window_ms=" (figure B), .float⟩,
        ⟨"np_rq_wait_ms", stat B "NET PHASE" "rq_wait_ms=" (figure B), .float⟩,
        ⟨"np_failed", leading "NET PHASE" "" (.text "FAILED"), .str⟩])

/-- `\[[\s\d.]+\] cloud-init\[\d+\]: ` -/
def cloudInitPrefix : Regex :=
  .seqs [.text "[", .plus (fun c => isSpace c || B.digitOrPoint c), .text "] cloud-init[",
    digits B, .text "]: "]

def stripCloudInit (text : List Char) : List Char := (cloudInitPrefix B).sub ['\n'] text

/-- The line that a query begins with. -/
def headLine (h : List Char × List Char) : List Char := h.1.takeWhile (· != '\n')

/-- An echo of the line before begins no query. -/
def unechoed : List (List Char × List Char) → List (List Char × List Char)
  | [] => []
  | [h] => [h]
  | h :: h' :: rest =>
    if headLine h' = headLine h then unechoed (h :: rest) else h :: unechoed (h' :: rest)
termination_by l => l.length

def heads (text : List Char) : List (List Char × List Char) := unechoed (Tpch.heads B text)

/-- A lost `Qnn:` line of a run of one query. -/
def fromSummary (row : Record B) : List (Name × Scalar B) :=
  if (row "query_ms").isNone && row "queries_total" == .int 1 && !(row "summary_ms").isNone then
    [("query_ms", row "summary_ms"), ("query_ms_from_summary", .bool true)]
  else []

/-- The fields of the boot that a query's own text does not show. -/
def runwide (text : List Char) (row : Record B) : List (Name × Scalar B) :=
  match parse B (nic B) text with
  | none => []
  | some boot =>
    ((nic B).map Metric.name).filterMap fun k =>
      if !(boot k).isNone && (row k == .none || row k == .str "") then some (k, boot k) else none

def valid (row : Record B) : Bool :=
  (row "complete").truthy &&
    if Tpch.cpuprobe B row then Tpch.ladder B row
    else
      row "match" != .str "no" && !(row "query_ms").isNone && !(row "nic_tune_failed").truthy &&
        !((row "gro").truthy && (row "gro").text != (row "nic_gro").text) &&
        !((row "queues").truthy && queuesDiffer row)
where
  /-- `int(row["queues"]) != (row.get("nic_queues") or -1)`, or a `ValueError`. -/
  queuesDiffer (row : Record B) : Bool :=
    match intKnob B (row "queues").text with
    | some (.int n) => Scalar.int n != (row "nic_queues").or (.int (-1))
    | _ => true

def stack : Stack B :=
  { bench := bench B
    metrics := metrics B
    headline := "query_ms"
    valid := fun _ => valid B
    blocks := fun text =>
      if (heads B text).length ≤ 1 ∨ (parse B (nic B) text).isSome then
        Tpch.blocks B (heads B text) text
      else none
    sets := fun s text n row =>
      [("market", .str s.launched.market), ("zone", .str s.launched.zone),
        ("complete", .bool (completed.found text)), ("instance_id", .str s.launched.iid),
        ("log", .str s.launched.log), ("interrupted", .bool s.launched.reclaimed)] ++
      Tpch.query B (heads B text) n ++ fromSummary B row ++
      if (heads B text).length ≤ 1 then [] else runwide B text row }

/-- Every ten seconds, without the prefixes of cloud-init. -/
def driver (maxVmSeconds : Nat) (s : Bool → Setting) : RunOnce.Driver (List (Record B)) :=
  { interval := 10
    interval_pos := by omega
    maxVmSeconds
    clean := stripCloudInit B
    rows := fun text reclaimed =>
      ((stack B).rows B (s reclaimed) text).elim (.error .value) .ok }

end DuckdbLinux
