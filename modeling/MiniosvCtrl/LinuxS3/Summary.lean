import MiniosvCtrl.LinuxS3.Verdict

/-!
# What linux-s3 prints

Every `println!` of `main`, `run_conn` and the pumps, from the header to the verdict. A line is
kept as its pieces, since the drivers' patterns are searched for in the lines.

The figures come from `f64` arithmetic and its rounding to so many places, which is not modelled:
`Floats` holds what it gives, none of it negative.

* `Piece`, `Line` — a printed line
* `Fail`, `Entry` — the lines there are
* `Dist` — `Dist::of`
* `Report.entries` — what a run prints
-/

namespace LinuxS3

/-! ## Lines -/

inductive Piece
  | lit (s : String)
  | num (n : Nat)
  /-- `{:.places}`, in units of the last place. -/
  | fixed (places units : Nat)
  /-- A text from outside: an error, or the host. -/
  | given (s : String)
  deriving DecidableEq, Repr

/-- A number with so many places. -/
def fixedChars (places units : Nat) : List Char :=
  let part := Nat.toDigits 10 (units % 10 ^ places)
  Nat.toDigits 10 (units / 10 ^ places) ++ '.' :: (List.replicate (places - part.length) '0' ++ part)

def Piece.chars : Piece → List Char
  | lit s => s.toList
  | num n => Nat.toDigits 10 n
  | fixed places units => fixedChars places units
  | given s => s.toList

abbrev Line := List Piece

def Line.chars (l : Line) : List Char := l.flatMap Piece.chars

/-- A bool, as `{}` prints it. -/
def boolPiece (b : Bool) : Piece := .lit (if b then "true" else "false")

/-- An `Option` of a number, as `{:?}` prints it. -/
def optionPieces : Option Nat → List Piece
  | some n => [.lit "Some(", .num n, .lit ")"]
  | none => [.lit "None"]

/-! ## Errors -/

/-- The lines that begin with `FAIL`, each with its error. -/
inductive Fail
  | setaffinity (worker : Nat) (e : String)
  | rustlsNew (e : String)
  | syn (worker : Nat) (e : String)
  | rcvbuf (worker : Nat) (e : String)
  | busyPoll (worker : Nat) (e : String)
  | write (worker : Nat) (e : String)
  | read (worker : Nat) (e : String)
  | tls (e : String)
  | tlsRecord (e : String)
  | tlsEncode (e : String)
  | tlsEncrypt (e : String)
  deriving DecidableEq, Repr

namespace Fail

def error : Fail → String
  | setaffinity _ e | rustlsNew e | syn _ e | rcvbuf _ e | busyPoll _ e | write _ e | read _ e
  | tls e | tlsRecord e | tlsEncode e | tlsEncrypt e => e

def line : Fail → Line
  | setaffinity w e => [.lit "FAIL: worker ", .num w, .lit ": sched_setaffinity: ", .given e]
  | rustlsNew e => [.lit "FAIL: rustls new: ", .given e]
  | syn w e =>
    [.lit "FAIL: q", .num w, .lit " SYN timeout on port ? after ", .num 5000,
      .lit " ms — no SYN-ACK (", .given e, .lit ")"]
  | rcvbuf w e => [.lit "FAIL: q", .num w, .lit ": SO_RCVBUF: ", .given e]
  | busyPoll w e =>
    [.lit "FAIL: q", .num w, .lit ": SO_BUSY_POLL: ", .given e, .lit " (falling back to sysctl)"]
  | write w e => [.lit "FAIL: q", .num w, .lit ": write: ", .given e]
  | read w e => [.lit "FAIL: q", .num w, .lit ": read: ", .given e]
  | tls e => [.lit "FAIL: tls: ", .given e]
  | tlsRecord e => [.lit "FAIL: tls record: ", .given e]
  | tlsEncode e => [.lit "FAIL: tls encode: ", .given e]
  | tlsEncrypt e => [.lit "FAIL: tls encrypt: ", .given e]

end Fail

/-! ## Distributions -/

/-- Of a list of nanoseconds, in microseconds. -/
structure Dist where
  n : UInt64
  avg : UInt64
  p50 : UInt64
  p90 : UInt64
  max : UInt64
  deriving DecidableEq, Repr

/-- `Dist::of`: nearest rank, of the sorted list. -/
def Dist.of (ns : List UInt64) : Dist :=
  let us := (ns.map (· / 1000)).mergeSort fun a b => decide (a ≤ b)
  let rank := fun p : Nat =>
    us.getD (Nat.min (Nat.max ((us.length * p + 99) / 100) 1 - 1) (us.length - 1)) 0
  if us = [] then ⟨0, 0, 0, 0, 0⟩
  else
    { n := UInt64.ofNat us.length
      avg := us.sum / UInt64.ofNat us.length
      p50 := rank 50
      p90 := rank 90
      max := us.getLastD 0 }

/-! ## The lines of `main` -/

/-- The modes that `instance.py` knows. -/
inductive Mode
  | stock | capped | parity | nogro | nogro1500
  deriving DecidableEq, Repr

def Mode.text : Mode → String
  | stock => "stock"
  | capped => "capped"
  | parity => "parity"
  | nogro => "nogro"
  | nogro1500 => "nogro1500"

structure Tuning where
  pinCores : Option Nat
  rcvbuf : Option Nat
  busyPoll : Option Nat
  quickack : Bool
  deriving DecidableEq, Repr

/-- The tuning of a mode, with the numbers that the environment gives it. -/
def Mode.tuning (pin rcvbuf busyPoll : Nat) (quickack : Bool) : Mode → Tuning
  | stock => ⟨none, none, none, false⟩
  | capped | nogro | nogro1500 => ⟨some pin, none, none, false⟩
  | parity => ⟨some pin, some rcvbuf, some busyPoll, quickack⟩

/-- One `println!`, with what it prints. -/
inductive Entry
  | ignored
  | bench (workers conns mib : Nat) (stub plain : Bool)
  | target (a b c d port : Nat) (host : String)
  | note (mode : Mode) (tuning : Tuning) (cores : Nat)
  | fail (f : Fail)
  | unclean (worker port received expected : Nat)
  | more (n : Nat)
  | worker (w bytes seconds rate : Nat)
  | blank
  | aggregate (mib seconds rate gbps : Nat)
  | transfer (mib seconds rate gbps longest : Nat)
  | noIface
  | wire (gbps bytes : Nat)
  | steady (gbps start stop bytes : Nat)
  | noWindow
  | peak (gbps : Nat)
  | connections (clean total failed : Nat)
  | misrouted
  | drops
  | setup (d : Dist) (failed : Nat)
  | dial (d : Dist)
  | blocks (total planned mib requested : Nat)
  | ciphertext (bytes : Nat) (negative : Bool) (overhead : Nat)
  | body (bytes : Nat)
  | fetched (n : Nat)
  | exact (bytes : Nat)
  | incomplete (abandoned unrequested bytes : Nat) (surplus : Bool)
  deriving DecidableEq, Repr

namespace Entry

/-- ` key=value` -/
def stat (key : String) (n : UInt64) : List Piece := [.lit key, .num n.toNat]

def line : Entry → Line
  | ignored => [.lit "note: BENCH_TLS_STUB ignored under BENCH_SCHEME=http"]
  | bench w c m stub plain =>
    [.lit "bench: ", .num w, .lit " workers x ", .num c, .lit " conns x ", .num m,
      .lit " MiB block, tls_stub=", boolPiece stub, .lit " scheme=",
      .lit (if plain then "http" else "https")]
  | target a b c d port host =>
    [.lit "target: ", .num a, .lit ".", .num b, .lit ".", .num c, .lit ".", .num d, .lit ":",
      .num port, .lit " ", .given host]
  | note mode t cores =>
    [.lit "note: q<N> is the worker index; this stack does not steer by RSS. mode=",
      .lit mode.text, .lit " pin="] ++ optionPieces t.pinCores ++ [.lit " rcvbuf="] ++
      optionPieces t.rcvbuf ++ [.lit " busy_poll="] ++ optionPieces t.busyPoll ++
      [.lit " quickack=", boolPiece t.quickack, .lit " cores=", .num cores]
  | fail f => f.line
  | unclean w port received expected =>
    [.lit "q", .num w, .lit ": conn on port ", .num port, .lit " did not close cleanly (",
      .num received, .lit " of ", .num expected, .lit " B)"]
  | more n => [.lit "... and ", .num n, .lit " more unclean connections (not listed)"]
  | worker w bytes seconds rate =>
    [.lit "worker ", .num w, .lit " (q", .num w, .lit "): ", .num bytes, .lit " B / ",
      .fixed 3 seconds, .lit " s  (", .fixed 1 rate, .lit " MB/s)"]
  | blank => []
  | aggregate mib seconds rate gbps =>
    [.lit "AGGREGATE: ", .fixed 1 mib, .lit " MiB in ", .fixed 3 seconds, .lit " s => ",
      .fixed 1 rate, .lit " MB/s, ", .fixed 3 gbps, .lit " Gbps"]
  | transfer mib seconds rate gbps longest =>
    [.lit "TRANSFER: ", .fixed 1 mib, .lit " MiB in ", .fixed 3 seconds, .lit " s => ",
      .fixed 1 rate, .lit " MB/s, ", .fixed 3 gbps, .lit " Gbps (setup ", .fixed 3 longest,
      .lit " s excluded)"]
  | noIface => [.lit "WIRE: no interface to sample (set BENCH_IFACE)"]
  | wire gbps bytes =>
    [.lit "WIRE: ", .fixed 3 gbps, .lit " Gbps of frames over the run (", .num bytes,
      .lit " bytes received)"]
  | steady gbps start stop bytes =>
    [.lit "WIRE STEADY: ", .fixed 3 gbps, .lit " Gbps of frames from ", .fixed 3 start,
      .lit " s to ", .fixed 3 stop, .lit " s, every slot busy (", .num bytes, .lit " B)"]
  | noWindow => [.lit "WIRE STEADY: no window in which every slot was busy"]
  | peak gbps =>
    [.lit "WIRE PEAK: ", .fixed 3 gbps, .lit " Gbps of frames over the best second"]
  | connections clean total failed =>
    [.lit "connections   : ", .num clean, .lit "/", .num total, .lit " closed cleanly, ",
      .num failed, .lit " failed"]
  | misrouted => [.lit "misrouted rx  : 0 packets dropped (expected 0)"]
  | drops => [.lit "tx drops      : 0 no-mbuf, 0 ring-full (expected 0)"]
  | setup d failed =>
    [.lit "SETUP STATS   :"] ++ stat " conns=" d.n ++ [.lit " failed=", .num failed] ++
      stat " us_avg=" d.avg ++ stat " us_p50=" d.p50 ++ stat " us_p90=" d.p90 ++
      stat " us_max=" d.max
  | dial d =>
    [.lit "DIAL STATS    :"] ++ stat " dials=" d.n ++ stat " us_avg=" d.avg ++
      stat " us_p50=" d.p50 ++ stat " us_p90=" d.p90 ++ stat " us_max=" d.max ++
      [.lit " loop_ms=", .lit "0.0"]
  | blocks total planned mib requested =>
    [.lit "blocks        : ", .num total, .lit "/", .num planned, .lit " of ", .num mib,
      .lit " MiB requested (", .num requested, .lit " bytes)"]
  | ciphertext bytes negative overhead =>
    [.lit "bytes         : ", .num bytes, .lit " on the wire (ciphertext, ",
      .lit (if negative then "-" else "+"), .fixed 2 overhead, .lit "%)"]
  | body bytes => [.lit "bytes         : ", .num bytes, .lit " plaintext body"]
  | fetched n =>
    [.lit "COMPLETE: all ", .num n,
      .lit " blocks fetched (set BENCH_TLS_STUB=0 for a byte-exact check)"]
  | exact bytes => [.lit "COMPLETE: ", .num bytes, .lit " bytes, byte-exact"]
  | incomplete abandoned unrequested bytes surplus =>
    [.lit "INCOMPLETE: ", .num abandoned, .lit " connections abandoned, ", .num unrequested,
      .lit " blocks unrequested, ", .num bytes, .lit " bytes ",
      .lit (if surplus then "over" else "short")]

end Entry

/-! ## A run -/

/-- What `f64` arithmetic gives, in units of the last place that is printed. -/
structure Floats where
  mib (bytes : UInt64) : Nat
  /-- Of nanoseconds. -/
  seconds (ns : Nat) : Nat
  workerRate (bytes : UInt64) (ns : Nat) : Nat
  rate (bytes : UInt64) (ns : Nat) : Nat
  gbps (bytes : UInt64) (ns : Nat) : Nat
  /-- The transfer line's, without the longest setup. -/
  transferSeconds (ns : Nat) (setupUs : UInt64) : Nat
  transferRate (bytes : UInt64) (ns : Nat) (setupUs : UInt64) : Nat
  transferGbps (bytes : UInt64) (ns : Nat) (setupUs : UInt64) : Nat
  setupSeconds (setupUs : UInt64) : Nat
  /-- `gbps` -/
  wireGbps (bytes ns : UInt64) : Nat
  /-- The best second of the samples. -/
  peak (samples : List (UInt64 × UInt64)) : Nat
  /-- Whether the sign is `-`, and the size. -/
  overhead (bytes expected : UInt64) : Bool × Nat

/-- `Outcome`, with its port and its times. -/
structure Conn extends Outcome where
  srcPort : Nat
  setupNs : UInt64
  dialNs : UInt64
  deriving DecidableEq, Repr

/-- A run that `main` sums up. -/
structure Report where
  config : Config
  /-- `BENCH_TLS_STUB`, which a run without TLS ignores. -/
  stubAsked : Bool
  host : String
  ip : UInt8 × UInt8 × UInt8 × UInt8
  mode : Mode
  tuning : Tuning
  cores : Nat
  fails : List Fail
  /-- `outcomes` -/
  conns : List Conn
  workerStart : Nat → UInt64
  firstIdle : UInt64
  overallNs : Nat
  endNs : UInt64
  /-- The times and counts of the NIC's sampler. -/
  samples : List (UInt64 × UInt64)

variable (F : Floats)

/-- `wire_windows` -/
def wireWindows (samples : List (UInt64 × UInt64)) (full idle : UInt64) : List Entry :=
  match samples.head?, samples.getLast? with
  | some first, some last =>
    if samples.length < 2 then [.noIface]
    else
      let window :=
        match samples.find? (fun s => decide (full ≤ s.1)),
          samples.find? (fun s => decide (idle ≤ s.1)) with
        | some s, some t =>
          if s.1 < t.1 then
            .steady (F.wireGbps (t.2 - s.2) (t.1 - s.1)) (F.seconds s.1.toNat) (F.seconds t.1.toNat)
              (t.2 - s.2).toNat
          else .noWindow
        | _, _ => .noWindow
      [.wire (F.wireGbps (last.2 - first.2) (last.1 - first.1)) (last.2 - first.2).toNat, window,
        .peak (F.peak samples)]
  | _, _ => [.noIface]

namespace Report

variable (r : Report)

def outcomes : List Outcome := r.conns.map Conn.toOutcome

def port : Nat := if r.config.plain then 80 else 443

def failed : Nat := r.outcomes.countP Outcome.failed

def setupUs : Dist := Dist.of (r.conns.map Conn.setupNs)

def dialUs : Dist := Dist.of (r.conns.map Conn.dialNs)

/-- `block_size / (1024 * 1024)` -/
def blockMib : Nat := (r.config.blockSize / (1024 * 1024)).toNat

def benchEntry : Entry :=
  .bench r.config.workers.toNat r.config.connsPerWorker.toNat r.blockMib r.config.stub r.config.plain

def targetEntry : Entry :=
  .target r.ip.1.toNat r.ip.2.1.toNat r.ip.2.2.1.toNat r.ip.2.2.2.toNat r.port r.host

/-- The first 16 connections that did not close cleanly, and how many more there are. -/
def uncleanEntries : List Entry :=
  let unclean := r.outcomes.filter fun o => !o.closedCleanly
  ((r.conns.filter fun o => !o.closedCleanly).take 16).map (fun o =>
      .unclean o.worker o.srcPort o.bytesReceived.toNat o.expected.toNat) ++
    if 16 < unclean.length then [.more (unclean.length - 16)] else []

def workerEntry (w : Nat) : Entry :=
  let mine := r.outcomes.filter fun o => o.worker = w
  let bytes := (mine.map Outcome.bytesReceived).sum
  let start := (r.workerStart w).toNat
  let span := ((mine.map Outcome.finishNs).max?.getD start) - start
  .worker w bytes.toNat (F.seconds span) (F.workerRate bytes span)

def aggregateEntry : Entry :=
  let b := totalB r.outcomes
  .aggregate (F.mib b) (F.seconds r.overallNs) (F.rate b r.overallNs) (F.gbps b r.overallNs)

def transferEntry : Entry :=
  let b := totalB r.outcomes
  let setup := r.setupUs.max
  .transfer (F.mib b) (F.transferSeconds r.overallNs setup) (F.transferRate b r.overallNs setup)
    (F.transferGbps b r.overallNs setup) (F.setupSeconds setup)

/-- The window in which every slot was busy. -/
def wireEntries : List Entry :=
  wireWindows F r.samples
    (((List.range r.config.workers.toNat).map r.workerStart).max?.getD 0)
    (if r.firstIdle = 0 then r.endNs else r.firstIdle)

def connectionsEntry : Entry :=
  .connections (connsClean r.outcomes).toNat (connsTotal r.outcomes).toNat r.failed

def setupEntry : Entry := .setup r.setupUs r.failed

def dialEntry : Entry := .dial r.dialUs

def blocksEntry : Entry :=
  .blocks (connsTotal r.outcomes).toNat r.config.totalBlocks.toNat r.blockMib
    (totalExpected r.outcomes).toNat

def bytesEntry : Entry :=
  let b := totalB r.outcomes
  if r.config.stub then
    let o := F.overhead b (totalExpected r.outcomes)
    .ciphertext b.toNat o.1 o.2
  else .body b.toNat

def verdictEntry : Entry :=
  let o := r.outcomes
  if complete r.config o then
    if r.config.stub then .fetched (connsTotal o).toNat else .exact (totalB o).toNat
  else
    let surplus := decide (totalExpected o < totalB o)
    .incomplete (connsTotal o - connsClean o).toNat
      (if r.config.totalBlocks < connsTotal o then 0 else r.config.totalBlocks - connsTotal o).toNat
      (if surplus then totalB o - totalExpected o else totalExpected o - totalB o).toNat surplus

/-- All that is printed, line by line. -/
def entries : List Entry :=
  (if r.config.plain && r.stubAsked then [.ignored] else []) ++
    [r.benchEntry, r.targetEntry, .note r.mode r.tuning r.cores] ++
    r.fails.map .fail ++ r.uncleanEntries ++
    (List.range r.config.workers.toNat).map (r.workerEntry F) ++
    [.blank, r.aggregateEntry F, r.transferEntry F] ++ r.wireEntries F ++
    [.blank, r.connectionsEntry, .misrouted, .drops, r.setupEntry, r.dialEntry, r.blocksEntry,
      r.bytesEntry F, r.verdictEntry]

/-- The text on the console. -/
def text : List Char := (r.entries F).flatMap fun e => e.line.chars ++ ['\n']

end Report

end LinuxS3
