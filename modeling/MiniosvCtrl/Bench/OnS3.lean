import Mathlib.Algebra.Group.Int.Defs
import MiniosvCtrl.LinuxS3.RunOnce
import MiniosvCtrl.Runner.Parse

/-!
# The benches that measure a transfer

smoltcp-s3, linux-s3, anyblob and linux-http: their knobs and metrics, the gate each has, and the
row that `run_once` makes of the text on the console. anyblob and linux-http inherit the launch
path of linux-s3.

* `Stack` — what the drivers' `main` needs of a bench
* `Launched`, `Server` — what the driver knows of the machines itself
* `LinuxS3.stack`, `AnyBlob.stack`, `WrkHttp.stack`, `SmoltcpS3.stack`
-/

namespace Runner

open Infra

variable (B : Builtins)

/-- What `run_once` knows of the machine it launched. -/
structure Launched where
  market : String
  zone : String
  iid : String
  /-- The name of the log file. -/
  log : String
  reclaimed : Bool

/-- An nginx that the driver started for the point. -/
structure Server where
  iid : String
  zone : String
  ip : String

/-- What stands beside the console's text. -/
structure Setting where
  launched : Launched
  server : Option Server
  /-- `BENCH_ZONE`, if it is set. -/
  benchZone : Option String
  /-- The address that the run dials, if one is given. -/
  ip : String
  /-- `cfg` -/
  cfg : List (Name × Value)

def Value.scalar : Value → Scalar B
  | .int n => .int n
  | .str t => .str t

/-- `cfg.get(k)` -/
def Setting.get (s : Setting) (k : Name) : Scalar B :=
  ((s.cfg.lookup k).map (Value.scalar B)).getD .none

variable {B}

/-- `row[k] = v` -/
def Record.put (r : Record B) (k : Name) (v : Scalar B) : Record B := Function.update r k v

/-- Several, in order. -/
def Record.putAll (r : Record B) (l : List (Name × Scalar B)) : Record B :=
  l.foldl (fun r kv => Record.put r kv.1 kv.2) r

variable (B)

/-- A bench, as the drivers' `main` sees it. -/
structure Stack where
  bench : Bench
  metrics : List Metric
  /-- `headline_metric` -/
  headline : Name
  valid : Setting → Record B → Bool
  /-- The texts that the rows of a run are parsed from; `none`: `SystemExit`. -/
  blocks : List Char → Option (List (List Char))
  /-- What `run_once` sets itself, of the `n`-th row. -/
  sets : Setting → List Char → Nat → Record B → List (Name × Scalar B)

/-- The rows of `run_once`; `none`: it raised. -/
def Stack.rows (k : Stack B) (s : Setting) (text : List Char) : Option (List (Record B)) :=
  (k.blocks text).bind fun blocks => (blocks.mapM (parse B k.metrics)).map fun rows =>
    rows.mapIdx fun n row => Record.putAll row (k.sets s text n row)

/-- `^COMPLETE:` -/
def completed : Regex := .seqs [.bol, .text "COMPLETE:"]

/-- `128 << 20` -/
def defaultBlock : Value := .int (128 * 2 ^ 20)

end Runner

open Infra Runner

variable (B : Builtins)

/-! ## linux-s3 -/

namespace LinuxS3

def bench : Bench :=
  { knobs :=
      [⟨"workers", sizeKnob B, .int 8⟩, ⟨"conns", sizeKnob B, .int 24⟩,
        ⟨"block", sizeKnob B, defaultBlock⟩,
        ⟨"blocks", sizeKnob B, .int 0⟩, ⟨"mode", strKnob, .str "stock"⟩]
    nodup := by simp
    not_main := by simp [mainColumns] }

/-- `CPU BUDGET`: the cores inside and outside the budget. -/
def coresIn : Metric :=
  ⟨"cores_in", .seqs [.bol, .text "CPU BUDGET: cores_in=", .group (figure B)], .float⟩

def coresOut : Metric :=
  ⟨"cores_out", .seqs [.bol, .text "CPU BUDGET: ", anything, .text "cores_out=",
    .group (figure B)], .float⟩

/-- `^label: ([\d.]+) Gbps` -/
def wire (name : Name) (label : String) : Metric :=
  ⟨name, .seqs [.bol, .text label, .text ": ", .group (figure B), .text " Gbps"], .float⟩

def metrics : List Metric :=
  overlay (commonMetrics B)
    [coresIn B, coresOut B,
      ⟨"workers_actual", .seqs [.bol, .text "bench: ", .group (digits B), .text " workers"], .int⟩,
      wire B "gbps_wire" "WIRE", wire B "gbps_wire_steady" "WIRE STEADY",
      wire B "gbps_wire_peak" "WIRE PEAK"]

/-- `allowance_exceeded.*(?:RUN INVALID|EC2 SHAPED)` -/
def shaped : Regex :=
  .seqs [.text "allowance_exceeded", anything, .alt (.text "RUN INVALID") (.text "EC2 SHAPED")]

/-- What every bench on the launch path sets. -/
def sets (s : Setting) (text : List Char) : List (Name × Scalar B) :=
  [("market", .str s.launched.market), ("zone", .str s.launched.zone),
    ("complete", .bool (completed.found text)), ("instance_id", .str s.launched.iid),
    ("log", .str s.launched.log), ("interrupted", .bool s.launched.reclaimed),
    ("allowance_exceeded", .int (shaped.starts text).length)]

/-- Every fifteen seconds, the text as it is. -/
def driver (k : Stack B) (maxVmSeconds : Nat) (s : Bool → Setting) :
    RunOnce.Driver (List (Record B)) :=
  { interval := 15
    interval_pos := by omega
    maxVmSeconds
    clean := id
    rows := fun text reclaimed =>
      match k.rows B (s reclaimed) text with
      | some rows => .ok rows
      | none => .error .value }

def stack : Stack B :=
  { bench := bench B
    metrics := metrics B
    headline := "gbps"
    valid := fun _ => valid
    blocks := fun text => some [text]
    sets := fun s text _ _ => sets B s text }

end LinuxS3

/-! ## anyblob -/

namespace AnyBlob

/-- `flag(v)` -/
def flag (t : String) : Option Value :=
  some (.int (if ["1", "true", "yes", "pinned", "pin"].contains (strip t).toLower then 1 else 0))

def bench : Bench :=
  { knobs :=
      [⟨"workers", sizeKnob B, .int 0⟩, ⟨"conns", sizeKnob B, .int 24⟩,
        ⟨"block", sizeKnob B, defaultBlock⟩,
        ⟨"blocks", sizeKnob B, .int 0⟩, ⟨"chunk", sizeKnob B, .int (64 * 2 ^ 10)⟩,
        ⟨"pin", flag, .int 0⟩,
        ⟨"scheme", strKnob, .str "https"⟩, ⟨"url", strKnob, .str ""⟩, ⟨"cpus", intKnob B, .int 0⟩,
        ⟨"mode", strKnob, .str "stock"⟩, ⟨"server", strKnob, .str ""⟩]
    nodup := by simp
    not_main := by simp [mainColumns] }

/-- `^label (\d+) rest` -/
def count (name : Name) (label : List Regex) (rest : String) : Metric :=
  ⟨name, .seqs ([.bol] ++ label ++ [.group (digits B), .text rest]), .int⟩

def metrics : List Metric :=
  overlay (LinuxS3.metrics B)
    [⟨"workers_actual", .seqs [.bol, .text "bench: ", .group (digits B), .text " workers"], .int⟩,
      count B "http_bad" [.text "http status", blanks, .text ": "] " non-206",
      count B "hdr_bad" [.text "response heads: "] " did not match",
      ⟨"tail_ms_max",
        .seqs [.bol, .text "TAIL STATS", blank, .text ": idle_max_ms=", .group (figure B)], .float⟩,
      ⟨"tail_ms_avg", statistic "TAIL STATS" "idle_avg_ms=" (figure B), .float⟩,
      ⟨"ttfb_us_avg", statistic "REQ STATS" "ttfb_us_avg=" (digits B), .int⟩,
      ⟨"wire_us_avg", statistic "REQ STATS" "wire_us_avg=" (digits B), .int⟩,
      ⟨"wire_us_p50", statistic "REQ STATS" "wire_us_p50=" (digits B), .int⟩,
      ⟨"wire_us_p99", statistic "REQ STATS" "wire_us_p99=" (digits B), .int⟩,
      ⟨"cpu_user_s",
        .seqs [.bol, .text "CPU STATS", blank, .text ": user_s=", .group (figure B)], .float⟩,
      ⟨"cpu_sys_s", statistic "CPU STATS" "sys_s=" (figure B), .float⟩,
      ⟨"cpu_total_s", statistic "CPU STATS" "total_s=" (figure B), .float⟩,
      ⟨"cores_avg", statistic "CPU STATS" "cores_avg=" (figure B), .float⟩,
      ⟨"pool_s", .seqs [.bol, .text "pool: ", anything, .text " ", .group (figure B),
        .text " s to allocate"], .float⟩,
      count B "tcp_active_opens" [.text "Tcp:ActiveOpens", blanks, .text "+"] "",
      count B "tcp_retrans" [.text "Tcp:RetransSegs", blanks, .text "+"] "",
      ⟨"pinned", .seqs [.bol, .text "pinned", blanks, .text ": ", .group solid], .str⟩,
      LinuxS3.coresIn B, LinuxS3.coresOut B]

/-- The shared gate, and the library's check of the response heads. -/
def valid (row : Record B) : Bool := Runner.valid row && (row "hdr_bad").or (.int 0) == .int 0

/-- The server of the point, or the one that is dialled by its address. -/
def serverSets (s : Setting) : List (Name × Scalar B) :=
  match s.server with
  | some server =>
    [("server_id", .str server.iid), ("server_zone", .str server.zone),
      ("target_ip", .str server.ip)]
  | none =>
    if (s.get B "url").truthy then
      [("server_zone", .str (s.benchZone.getD "")), ("target_ip", .str s.ip)]
    else []

def stack : Stack B :=
  { bench := bench B
    metrics := metrics B
    headline := "gbps"
    valid := fun _ => valid B
    blocks := fun text => some [text]
    sets := fun s text _ _ => LinuxS3.sets B s text ++ serverSets B s }

end AnyBlob

/-! ## linux-http -/

namespace WrkHttp

def bench : Bench :=
  { knobs :=
      [⟨"threads", intKnob B, .int 8⟩, ⟨"conns", intKnob B, .int 128⟩,
        ⟨"conns_per_cpu", intKnob B, .int 0⟩, ⟨"duration", intKnob B, .int 30⟩,
        ⟨"block", sizeKnob B, defaultBlock⟩, ⟨"close", strKnob, .str "1"⟩,
        ⟨"cpus", intKnob B, .int 0⟩,
        ⟨"mode", strKnob, .str "stock"⟩, ⟨"server", strKnob, .str "c6in.8xlarge"⟩]
    nodup := by simp
    not_main := by simp [mainColumns] }

/-- `^LATENCY: .*\bkey([\d.]+)` -/
def latency (name : Name) (key : String) : Metric :=
  ⟨name, .seqs [.bol, .text "LATENCY: ", anything, edge B, .text key, .group (figure B)], .float⟩

def metrics : List Metric :=
  [LinuxS3.coresIn B, LinuxS3.coresOut B,
    ⟨"gbps", .seqs [.bol, .text "AGGREGATE: ", digits B, .text " requests, ", .group (figure B),
      .text " Gbps"], .float⟩,
    ⟨"requests", .seqs [.bol, .text "AGGREGATE: ", .group (digits B), .text " requests"], .int⟩,
    ⟨"rps", .seqs [.bol, .text "Requests/sec:", blanks, .group (figure B)], .float⟩,
    latency B "lat_avg_ms" "avg_ms=", latency B "lat_p50_ms" "p50_ms=",
    latency B "lat_p90_ms" "p90_ms=", latency B "lat_p99_ms" "p99_ms=",
    latency B "lat_max_ms" "max_ms=",
    ⟨"gbps_wire", .seqs [.bol, .text "RX: ", anything, .text " => ", .group (figure B),
      .text " Gbps on the wire"], .float⟩,
    ⟨"rx_packets", .seqs [.bol, .text "RX: ", digits B, .text " bytes, ", .group (digits B),
      .text " packets"], .int⟩,
    ⟨"cpu_busy", .seqs [.bol, .text "CPU: busy=", .group (figure B)], .float⟩,
    ⟨"cpu_cores", .seqs [.bol, .text "CPU: busy=", figure B, .text " cores=", .group (figure B)],
      .float⟩,
    ⟨"non2xx", .seqs [.bol, blanks, .text "Non-2xx or 3xx responses: ", .group (digits B)], .int⟩,
    ⟨"sock_err_connect",
      .seqs [.bol, blanks, .text "Socket errors: connect ", .group (digits B)], .int⟩,
    ⟨"sock_err_read", .seqs [.bol, blanks, .text "Socket errors: connect ", digits B,
      .text ", read ", .group (digits B)], .int⟩,
    ⟨"sock_err_timeout", .seqs [.bol, blanks, .text "Socket errors: ", anything,
      .text "timeout ", .group (digits B)], .int⟩,
    ⟨"instance_type", .seqs [.bol, .text "instance     : ", .group solid], .str⟩,
    ⟨"kernel", .seqs [.bol, .text "kernel       : ", .group solid], .str⟩,
    ⟨"nproc", .seqs [.bol, .text "nproc        : ", .group (digits B)], .int⟩,
    ⟨"scheme", .seqs [.bol, .text "target       : ", .group (.text "http"), .text "://"], .str⟩]

/-- The fields that count errors. -/
def errors : List Name := ["non2xx", "sock_err_connect", "sock_err_read", "sock_err_timeout"]

def valid (row : Record B) : Bool :=
  (row "complete").truthy && !errors.any fun k => (row k).truthy

def serverSets (s : Setting) : List (Name × Scalar B) :=
  match s.server with
  | some server =>
    [("server_id", .str server.iid), ("server_zone", .str server.zone),
      ("target_ip", .str server.ip)]
  | none => [("server_zone", .str (s.benchZone.getD "")), ("target_ip", .str s.ip)]

def stack : Stack B :=
  { bench := bench B
    metrics := metrics B
    headline := "gbps"
    valid := fun _ => valid B
    blocks := fun text => some [text]
    sets := fun s text _ _ => LinuxS3.sets B s text ++ serverSets B s }

end WrkHttp

/-! ## smoltcp-s3 -/

namespace SmoltcpS3

def bench : Bench :=
  { knobs :=
      [⟨"workers", sizeKnob B, .int 8⟩, ⟨"conns", sizeKnob B, .int 24⟩,
        ⟨"block", sizeKnob B, defaultBlock⟩,
        ⟨"rxdesc", sizeKnob B, .int 0⟩, ⟨"blocks", sizeKnob B, .int 0⟩,
        ⟨"redial", sizeKnob B, .int 0⟩,
        ⟨"server", strKnob, .str ""⟩]
    nodup := by simp
    not_main := by simp [mainColumns] }

def metrics : List Metric :=
  overlay (commonMetrics B)
    [⟨"workers_actual", .seqs [.bol, .text "rss: ", .group (digits B), .text " queues"], .int⟩,
      AnyBlob.count B "http_bad" [.text "http status", blanks, .text ": "] " non-206",
      ⟨"instance_id", .seqs [.text "Instance running: ",
        .group (.seq (.text "i-") (.plus hexDigit))], .str⟩,
      ⟨"zone", zone B, .str⟩,
      ⟨"tail_ms_max",
        .seqs [.bol, .text "TAIL STATS", blank, .text ": idle_max_ms=", .group (figure B)], .float⟩,
      ⟨"tail_ms_avg", statistic "TAIL STATS" "idle_avg_ms=" (figure B), .float⟩,
      ⟨"syn_redials",
        .seqs [.bol, .text "syn redials", blank, .text ": ", .group (digits B)], .int⟩,
      ⟨"resolved_frontends", .seqs [.bol, .text "resolved", blank, .text ": ", .group (digits B),
        .text " front-end"], .int⟩,
      LinuxS3.wire B "gbps_steady" "STEADY", LinuxS3.wire B "gbps_wire" "WIRE",
      LinuxS3.wire B "gbps_wire_steady" "WIRE STEADY", LinuxS3.wire B "gbps_wire_peak" "WIRE PEAK",
      ⟨"imissed", .seqs [.bol, .text "nic rx", blanks, .text ": ", digits B, .text " pkts, ",
        .group (digits B), .text " imissed"], .int⟩]

/-- Against a server of its own, a retransmitted SYN counts for nothing. -/
def valid (s : Setting) (row : Record B) : Bool :=
  Runner.valid (if s.server.isSome then Record.put row "setup_us_max" (.int 0) else row)

def serverSets (s : Setting) : List (Name × Scalar B) :=
  match s.server with
  | some server =>
    [("server_id", .str server.iid), ("server_zone", .str server.zone),
      ("target_ip", .str server.ip)]
  | none =>
    match s.benchZone with
    | some zone =>
      if zone = "" then [] else [("server_zone", .str zone), ("target_ip", .str s.ip)]
    | none => []

/-- `^spot requested but not provided: .*`: nothing was measured. -/
def refused : Regex := .seqs [.bol, .text "spot requested but not provided: ", anything]

def stack : Stack B :=
  { bench := bench B
    metrics := metrics B
    headline := "gbps"
    valid := valid B
    blocks := fun text => if refused.found text then none else some [text]
    sets := fun s text _ _ =>
      [("complete", .bool (completed.found text)), ("log", .str s.launched.log),
        ("interrupted", .bool s.launched.reclaimed)] ++ serverSets B s }

end SmoltcpS3
