import MiniosvCtrl.AnyBlob.Callback
import MiniosvCtrl.AnyBlob.Dist
import MiniosvCtrl.LinuxS3.Summary

/-!
# What the AnyBlob client prints

Every `printf` of `main` and of the callbacks, from the header to the verdict. Many lines are those
of linux-s3, word by word, and are taken from there.

The figures come from `double` arithmetic and its rounding, as in `LinuxS3.Floats`.

* `Timing` — the library's timing hooks of one request
* `Said`, `Entry` — the lines there are
* `Report.entries` — what a run prints
-/

namespace AnyBlob

open LinuxS3 (Piece Line)

/-! ## Latencies -/

/-- `TimingHelper`: nanoseconds of the steady clock, 0 where a hook was not reached. -/
structure Timing where
  start : UInt64
  recieve : UInt64
  finish : UInt64
  deriving DecidableEq, Repr

namespace Timing

/-- From one hook to another, in microseconds. -/
def micros (start stop : UInt64) : UInt64 :=
  UInt64.ofInt (((stop.toNat : Int) - start.toNat).tdiv 1000)

/-- Of the requests that were started and came to an end. -/
def wire (timings : List Timing) : List UInt64 :=
  (timings.filter fun t => t.finish ≠ 0 ∧ t.start ≠ 0).map fun t => micros t.start t.finish

def ttfb (timings : List Timing) : List UInt64 :=
  (timings.filter fun t => (t.finish ≠ 0 ∧ t.start ≠ 0) ∧ t.recieve ≠ 0 ∧ t.start ≤ t.recieve).map
    fun t => micros t.start t.recieve

end Timing

/-! ## Lines -/

/-- A line that is printed while the workers run. -/
inductive Said
  /-- By a callback. -/
  | called (line : String)
  | daemon (worker : Nat) (what : String)
  deriving DecidableEq, Repr

/-- What the callbacks printed of it. -/
def Said.ofCallback : Said → Option String
  | called line => some line
  | daemon .. => none

inductive Entry
  /-- A line of linux-s3, too. -/
  | both (e : LinuxS3.Entry)
  | bench (workers conns mib : Nat) (https : Bool) (blocks chunk : Nat)
  | target (ip : String) (port : Nat) (host : String)
  | note (perDaemon conns cap cores : Nat)
  | pool (n mib seconds : Nat)
  | said (s : Said)
  | worker (w bytes seconds rate requests : Nat)
  | req (ttfb wire : Dist)
  | cpu (user sys total cores seconds rate : Nat)
  | tail (idle : Nat)
  | remark
  | httpStatus (bad : Nat) (throttled : Bool)
  | firstBad (code : Nat)
  | heads (short : Nat)
  | setup (failed : Nat)
  | incomplete (failed bad short bytes : Nat) (surplus : Bool)
  deriving DecidableEq, Repr

namespace Entry

open LinuxS3.Entry (stat)

def line : Entry → Line
  | both e => e.line
  | bench w c m https blocks chunk =>
    [.lit "bench: ", .num w, .lit " workers x ", .num c, .lit " conns x ", .num m,
      .lit " MiB block, tls_stub=", .lit "false", .lit " scheme=",
      .lit (if https then "https" else "http"), .lit " blocks=", .num blocks, .lit " chunk=",
      .num chunk, .lit " stack=anyblob"]
  | target ip port host => [.lit "target: ", .given ip, .lit ":", .num port, .lit " ", .given host]
  | note perDaemon conns cap cores =>
    [.lit "note: q<N> is the worker index; AnyBlob runs one io_uring daemon ",
      .lit "per worker, requests come from one shared queue, and ", .num perDaemon,
      .lit " of the ", .num conns,
      .lit " asked-for requests per worker fly at once (library cap ", .num cap, .lit "). cores=",
      .num cores]
  | pool n mib seconds =>
    [.lit "pool: ", .num n, .lit " buffers x ", .num mib, .lit " MiB, ", .fixed 2 seconds,
      .lit " s to allocate and touch"]
  | said (.called line) => [.given line]
  | said (.daemon w what) => [.lit "FAIL: q", .num w, .lit ": daemon: ", .given what]
  | worker w bytes seconds rate requests =>
    [.lit "worker ", .num w, .lit " (q", .num w, .lit "): ", .num bytes, .lit " B / ",
      .fixed 3 seconds, .lit " s  (", .fixed 1 rate, .lit " MB/s) ", .num requests,
      .lit " requests"]
  | req ttfb wire =>
    [.lit "REQ STATS     :"] ++ stat " n=" wire.n ++ stat " ttfb_us_avg=" ttfb.avg ++
      stat " ttfb_us_p50=" ttfb.p50 ++ stat " wire_us_avg=" wire.avg ++
      stat " wire_us_p50=" wire.p50 ++ stat " wire_us_p90=" wire.p90 ++
      stat " wire_us_p99=" wire.p99 ++ stat " wire_us_max=" wire.max
  | cpu user sys total cores seconds rate =>
    [.lit "CPU STATS     :", .lit " user_s=", .fixed 2 user, .lit " sys_s=", .fixed 2 sys,
      .lit " total_s=", .fixed 2 total, .lit " cores_avg=", .fixed 2 cores, .lit " over ",
      .fixed 3 seconds, .lit " s (", .fixed 1 rate, .lit " MB per cpu-second)"]
  | tail idle =>
    [.lit "TAIL STATS    :", .lit " idle_max_ms=", .fixed 1 idle, .lit " idle_avg_ms=",
      .fixed 1 idle]
  | remark =>
    [.lit "  (requests, not sockets: AnyBlob keeps its connections ",
      .lit "and reuses them; Tcp:ActiveOpens below counts the dials)"]
  | httpStatus bad throttled =>
    [.lit "http status   : ", .num bad, .lit " non-206 responses (expected 0)",
      .lit (if bad = 0 then "" else if throttled then " - 503 SlowDown, S3 is throttling"
        else " - see first code below")]
  | firstBad code => [.lit "first bad code: ", .num code]
  | heads short =>
    [.lit "response heads: ", .num short, .lit " did not match the range requested (expected 0)"]
  | setup failed =>
    (LinuxS3.Entry.setup ⟨0, 0, 0, 0, 0⟩ failed).line ++
      [.lit " (handshakes happen inside the library; not timed)"]
  | incomplete failed bad short bytes surplus =>
    [.lit "INCOMPLETE: ", .num failed, .lit " requests failed, ", .num bad, .lit " bad status, ",
      .num short, .lit " short bodies, ", .num bytes, .lit " bytes ",
      .lit (if surplus then "over" else "short")]

end Entry

/-! ## A run -/

/-- What `double` arithmetic gives, in units of the last place that is printed. -/
structure Floats where
  mib (bytes : UInt64) : Nat
  /-- Of nanoseconds. -/
  seconds (ns : UInt64) : Nat
  rate (bytes ns : UInt64) : Nat
  /-- `gbps` -/
  gbps (bytes ns : UInt64) : Nat
  /-- The best second of the samples. -/
  peak (samples : List (UInt64 × UInt64)) : Nat
  hundredths (ns : UInt64) : Nat
  /-- Of microseconds. -/
  cpuSeconds (us : Nat) : Nat
  cores (us : Nat) (ns : UInt64) : Nat
  cpuRate (bytes : UInt64) (us : Nat) : Nat
  /-- Milliseconds, of nanoseconds. -/
  tail (ns : UInt64) : Nat

/-- A run that `main` sums up. -/
structure Report (a : Fetch) where
  state : State a
  https : Bool
  chunk : UInt64
  /-- `AWS_TARGET_IP` -/
  targetIp : String
  host : String
  cores : Nat
  /-- The time that the pool of buffers took. -/
  poolNs : UInt64
  /-- What was printed while the workers ran, in order. -/
  between : List Said
  /-- The daemons' errors apart, it is what the callbacks printed. -/
  printed : between.filterMap Said.ofCallback = state.printed
  /-- `endTp - epoch` -/
  endNs : UInt64
  timings : List Timing
  userUs : Nat
  sysUs : Nat
  /-- The times and counts of the NIC's sampler. -/
  samples : List (UInt64 × UInt64)

namespace Report

variable {a : Fetch} (F : Floats) (r : Report a)

def port : Nat := if r.https then 443 else 80

def blockMib (c : Config) : Nat := (c.block >>> 20).toNat

def targetEntry : Entry :=
  .target (if r.targetIp = "" then "0.0.0.0" else r.targetIp) r.port r.host

/-- One buffer per slot, and a spare one per worker. -/
def poolEntry : Entry :=
  let n := a.c.workers.toUInt64 * a.perDaemon.toUInt64 + a.c.workers.toUInt64
  let cap := a.c.block + r.chunk + ((64 : UInt64) <<< 10)
  .pool n.toNat (cap >>> 20).toNat (F.hundredths r.poolNs)

def header : List Entry :=
  [.bench a.c.workers.toNat a.c.conns.toNat (blockMib a.c) r.https a.c.blocksPerWorker.toNat
      r.chunk.toNat,
    r.targetEntry,
    .note a.perDaemon.toNat a.c.conns.toNat a.maxConcurrentRequests.toNat r.cores, r.poolEntry F]

def workerEntry (w : a.Worker) : Entry :=
  let b := r.state.bytes w
  let ns := r.state.lastFinishNs w
  .worker w b.toNat (F.seconds ns) (F.rate b ns) (r.state.done w).toNat

def aggregateEntry : Entry :=
  let b := totalB r.state
  .both (.aggregate (F.mib b) (F.seconds r.endNs) (F.rate b r.endNs) (F.gbps b r.endNs))

/-- The setup is not separable. -/
def transferEntry : Entry :=
  let b := totalB r.state
  .both (.transfer (F.mib b) (F.seconds r.endNs) (F.rate b r.endNs) (F.gbps b r.endNs) 0)

def reqEntry : Entry := .req (Dist.of (Timing.ttfb r.timings)) (Dist.of (Timing.wire r.timings))

def cpuEntry : Entry :=
  let us := r.userUs + r.sysUs
  .cpu (F.cpuSeconds r.userUs) (F.cpuSeconds r.sysUs) (F.cpuSeconds us) (F.cores us r.endNs)
    (F.seconds r.endNs) (F.cpuRate (totalB r.state) us)

/-- When the queue could not keep every slot busy any more. -/
def idle : UInt64 := if r.state.firstIdleNs = 0 then r.endNs else r.state.firstIdleNs

/-- The first sample at or after a time. -/
def sampleAt (t : UInt64) : Option (UInt64 × UInt64) := r.samples.find? fun p => decide (t ≤ p.1)

def steadyEntry : LinuxS3.Entry :=
  match r.sampleAt 0, r.sampleAt r.idle with
  | some p₀, some p₁ =>
    if p₀.1 < p₁.1 then
      .steady (F.gbps (p₁.2 - p₀.2) (p₁.1 - p₀.1)) (F.seconds p₀.1) (F.seconds p₁.1)
        (p₁.2 - p₀.2).toNat
    else .noWindow
  | _, _ => .noWindow

def wireEntries : List Entry :=
  match r.samples.head?, r.samples.getLast? with
  | some first, some last =>
    if r.samples.length < 2 then [.both .noIface]
    else
      [.both (.wire (F.gbps (last.2 - first.2) (last.1 - first.1)) (last.2 - first.2).toNat),
        .both (r.steadyEntry F), .both (.peak (F.peak r.samples)),
        .tail (F.tail (r.endNs - r.idle))]
  | _, _ => [.both .noIface]

def connectionsEntry : Entry :=
  .both (.connections r.state.ok.toNat a.c.requests.toNat r.state.failed.toNat)

def httpEntry : Entry := .httpStatus r.state.badStatus.toNat (decide (r.state.firstBad = 503))

def firstBadEntries : List Entry :=
  if r.state.badStatus = 0 then [] else [.firstBad r.state.firstBad.toNat]

def headsEntry : Entry := .heads r.state.shortBody.toNat

def blocksEntry (a : Fetch) : Entry :=
  .both (.blocks a.c.requests.toNat a.c.requests.toNat (blockMib a.c) (totalExpected a).toNat)

def verdictEntry : Entry :=
  let b := totalB r.state
  if complete r.state then .both (.exact b.toNat)
  else
    let surplus := decide (totalExpected a < b)
    .incomplete r.state.failed.toNat r.state.badStatus.toNat r.state.shortBody.toNat
      (if surplus then b - totalExpected a else totalExpected a - b).toNat surplus

/-- All that is printed, line by line. -/
def entries : List Entry :=
  r.header F ++ r.between.map .said ++
    (List.finRange a.c.workers.toNat).map (r.workerEntry F) ++
    [.both .blank, r.aggregateEntry F, r.transferEntry F, r.reqEntry, r.cpuEntry F] ++
    r.wireEntries F ++
    [.both .blank, r.connectionsEntry, .remark, .both .misrouted, .both .drops, r.httpEntry] ++
    r.firstBadEntries ++
    [r.headsEntry, .setup r.state.failed.toNat, .both (.dial ⟨0, 0, 0, 0, 0⟩), blocksEntry a,
      .both (.body (totalB r.state).toNat), r.verdictEntry]

/-- The text on the console. -/
def text : List Char := (r.entries F).flatMap fun e => e.line.chars ++ ['\n']

end Report

end AnyBlob
