import Mathlib.Data.UInt

/-!
# The linux-s3 client's configuration and one connection

* `loadConfig` — what `load_config` accepts
* `Config.rangeStart`, `Config.rangeEnd` — the range `run_conn` requests for a block
* `Config.outcome` — what `run_conn` returns, whichever way the connection ended
* `countBody` — the count of the bytes that follow the response's head

The release build wraps on overflow, so the numbers are `UInt64` throughout. What only reaches
the network (host, path, address, tuning) is left out.
-/

namespace LinuxS3

/-- `Config`, with the checks of `load_config` as fields. -/
structure Config where
  workers : UInt64
  connsPerWorker : UInt64
  blocksPerWorker : UInt64
  objectSize : UInt64
  blockSize : UInt64
  stub : Bool
  /-- No TLS, port 80. -/
  plain : Bool
  workers_ne : workers ≠ 0
  connsPerWorker_ne : connsPerWorker ≠ 0
  blocksPerWorker_ne : blocksPerWorker ≠ 0
  objectSize_ne : objectSize ≠ 0
  blockSize_ne : blockSize ≠ 0

theorem one_ne : (1 : UInt64) ≠ 0 := by decide

theorem two_ne : (2 : UInt64) ≠ 0 := by decide

/--
`load_config` after the environment was parsed. A `blocks` of 0 means one block for each
connection, and `stub` is ignored without TLS.
-/
def loadConfig (workers conns blocks objectSize blockSize : UInt64) (stub plain : Bool) :
    Except String Config :=
  if h : objectSize = 0 ∨ blockSize = 0 ∨ conns = 0 ∨ workers = 0 then
    .error ("BENCH_WORKERS, BENCH_CONNS_PER_WORKER, BENCH_BLOCK_SIZE and " ++
      "AWS_BUCKET_SIZE must be nonzero")
  else
    .ok
      { workers := workers
        connsPerWorker := conns
        blocksPerWorker := if blocks = 0 then conns else blocks
        objectSize := objectSize
        blockSize := blockSize
        stub := stub && !plain
        plain := plain
        workers_ne := fun hw => h (Or.inr (Or.inr (Or.inr hw)))
        connsPerWorker_ne := fun hc => h (Or.inr (Or.inr (Or.inl hc)))
        blocksPerWorker_ne := by
          split
          · exact fun hc => h (Or.inr (Or.inr (Or.inl hc)))
          · assumption
        objectSize_ne := fun ho => h (Or.inl ho)
        blockSize_ne := fun hb => h (Or.inr (Or.inl hb)) }

namespace Config

variable (c : Config)

/-- `total_blocks`, and again `planned_conns`. -/
def totalBlocks : UInt64 := c.workers * c.blocksPerWorker

/-- `object_size.saturating_sub(block_size) + 1`. -/
def stride : UInt64 :=
  (if c.objectSize < c.blockSize then 0 else c.objectSize - c.blockSize) + 1

/-- Blocks wrap within the object. -/
def rangeStart (block : UInt64) : UInt64 :=
  if c.stride = 0 then 0 else block * c.blockSize % c.stride

/-- The last byte of the range, which `Range: bytes=` includes. -/
def rangeEnd (block : UInt64) : UInt64 := c.rangeStart block + c.blockSize - 1

def expected (block : UInt64) : UInt64 := c.rangeEnd block - c.rangeStart block + 1

/-- Every range is one block long, whether or not the additions wrap. -/
theorem expected_eq (block : UInt64) : c.expected block = c.blockSize := by
  unfold expected rangeEnd
  grind

end Config

/-- How one connection ended. -/
inductive ConnEnd
  /-- `UnbufferedClientConnection::new` failed. -/
  | tlsFailed
  /-- `connect_timeout` failed. -/
  | connectFailed
  /-- `pump` or `pump_plain` returned. -/
  | pumped (bytes : UInt64) (clean : Bool)
  deriving DecidableEq, Repr

structure Outcome where
  worker : Nat
  bytesReceived : UInt64
  expected : UInt64
  closedCleanly : Bool
  failed : Bool
  finishNs : Nat
  deriving DecidableEq, Repr

/-- The outcome of a connection of `worker` for `block` that ended at `now`. -/
def Config.outcome (c : Config) (worker : Nat) (block : UInt64) (now : Nat) (e : ConnEnd) :
    Outcome :=
  let out : Outcome :=
    { worker := worker
      bytesReceived := 0
      expected := c.expected block
      closedCleanly := false
      failed := false
      finishNs := now }
  match e with
  | .tlsFailed => { out with failed := true }
  | .connectFailed => { out with failed := true }
  | .pumped bytes clean => { out with bytesReceived := bytes, closedCleanly := clean }

@[simp]
theorem Config.outcome_expected (c : Config) (w : Nat) (b : UInt64) (now : Nat) (e : ConnEnd) :
    (c.outcome w b now e).expected = c.expected b := by
  cases e <;> rfl

/-! ## The body -/

/-- What `count_body` is given by reference. -/
structure Counted where
  bytes : UInt64
  headersDone : Bool
  /-- `hdr_state` -/
  hdrState : UInt8
  deriving DecidableEq, Repr

def Counted.init : Counted := { bytes := 0, headersDone := false, hdrState := 0 }

/-- `\r` -/
def cr : UInt8 := 13

/-- `\n` -/
def lf : UInt8 := 10

/-- The `match` on the state and a byte. -/
def hdrNext (st b : UInt8) : UInt8 :=
  if st = 0 ∧ b = cr then 1
  else if st = 1 ∧ b = lf then 2
  else if st = 2 ∧ b = cr then 3
  else if st = 3 ∧ b = lf then 4
  else if b = cr then 1
  else 0

/-- The loop over the bytes of the head: the `data.len() - (i + 1)` bytes after it count. -/
def countHead (bytes : UInt64) (st : UInt8) : List UInt8 → Counted
  | [] => { bytes, headersDone := false, hdrState := st }
  | b :: rest =>
    if hdrNext st b = 4 then
      { bytes := bytes + UInt64.ofNat rest.length, headersDone := true, hdrState := 4 }
    else countHead bytes (hdrNext st b) rest

def countBody (s : Counted) (data : List UInt8) : Counted :=
  if s.headersDone then { s with bytes := s.bytes + UInt64.ofNat data.length }
  else countHead s.bytes s.hdrState data

/-- The chunks that `pump` and `pump_plain` hand over, one after another. -/
def counted (chunks : List (List UInt8)) : Counted := chunks.foldl countBody .init

end LinuxS3
