import Mathlib.Data.Fintype.Basic
import Mathlib.Logic.Function.Basic
import MiniosvCtrl.AnyBlob.Requests
import MiniosvCtrl.Infra.Run

/-!
# The callbacks of the AnyBlob client

The library delivers the result of each request to `callback`, on the thread of the worker that
ran it. A thread runs one callback at a time. Each operation on a shared variable is one step, and
the threads' steps interleave freely.

* `AnyBlob.Fetch.callback` — the operations of one callback, in order
* `AnyBlob.Step` — one thread's next operation
* `AnyBlob.Left` — `main` leaves its wait loop
* `AnyBlob.verdict` — what `main` concludes
-/

namespace AnyBlob

/-- `requests()` -/
def Config.requests (c : Config) : UInt64 := c.workers.toUInt64 * c.blocksPerWorker

/-- What the library says of a request. -/
structure MessageResult where
  success : Bool
  size : UInt64
  responseCodeNumber : UInt64
  failureCode : UInt64
  deriving DecidableEq, Repr

/-- One run of the client: the requests are the entries of `timings` and `expected`. -/
structure Fetch where
  c : Config
  /-- The library's bound on the requests of one daemon. -/
  maxConcurrentRequests : UInt32
  results : Fin c.requests.toNat → MessageResult

/-- An operation of a callback. -/
inductive Op
  | bytes (size : UInt64)
  | done
  | lastFinishNs (ns : UInt64)
  | failed
  | badStatus
  | firstBad (code : UInt64)
  | shortBody
  | ok
  /-- Under `errMutex`: the line after the worker's `q<N>: `. -/
  | errShown (line : String)
  | finished
  | firstIdleNs (ns : UInt64)
  deriving DecidableEq, Repr

/-- Where a request is: its callback's thread, what `finished` became, the operations to come. -/
inductive Phase (workers : Nat)
  | queued
  | called (w : Fin workers) (f : UInt64) (rest : List Op)

structure State (a : Fetch) where
  bytes : Fin a.c.workers.toNat → UInt64
  done : Fin a.c.workers.toNat → UInt64
  lastFinishNs : Fin a.c.workers.toNat → UInt64
  finished : UInt64
  ok : UInt64
  badStatus : UInt64
  firstBad : UInt64
  shortBody : UInt64
  failed : UInt64
  firstIdleNs : UInt64
  errShown : UInt32
  printed : List String
  phase : Fin a.c.requests.toNat → Phase a.c.workers.toNat

def State.init (a : Fetch) : State a :=
  { bytes := fun _ => 0
    done := fun _ => 0
    lastFinishNs := fun _ => 0
    finished := 0
    ok := 0
    badStatus := 0
    firstBad := 0
    shortBody := 0
    failed := 0
    firstIdleNs := 0
    errShown := 0
    printed := []
    phase := fun _ => .queued }

namespace Fetch

variable (a : Fetch)

abbrev Worker := Fin a.c.workers.toNat

abbrev Request := Fin a.c.requests.toNat

def perDaemon : UInt32 := min a.c.conns a.maxConcurrentRequests

def wantCode : UInt64 := 206

/-- `callback`, which was called `ns` after the epoch. -/
def callback (r : MessageResult) (ns : UInt64) : List Op :=
  let size := if r.success then r.size else 0
  let code := r.responseCodeNumber
  [.bytes size, .done, .lastFinishNs ns] ++
    (if !r.success then
      [.failed, .errShown ("request failed: failure_code=" ++ toString r.failureCode ++
        " http=" ++ toString code)]
    else if code ≠ wantCode then [.badStatus, .firstBad code]
    else if size ≠ a.c.block then
      [.shortBody, .errShown ("body " ++ toString size ++ " B, wanted " ++ toString a.c.block)]
    else [.ok]) ++
    [.finished, .firstIdleNs ns]

end Fetch

variable {a : Fetch}

def State.setPhase (s : State a) (r : a.Request) (ph : Phase a.c.workers.toNat) : State a :=
  { s with phase := Function.update s.phase r ph }

/-- One operation, on the thread of worker `w`. -/
def State.exec (s : State a) (w : a.Worker) (f : UInt64) : Op → State a
  | .bytes size => { s with bytes := Function.update s.bytes w (s.bytes w + size) }
  | .done => { s with done := Function.update s.done w (s.done w + 1) }
  | .lastFinishNs ns => { s with lastFinishNs := Function.update s.lastFinishNs w ns }
  | .failed => { s with failed := s.failed + 1 }
  | .badStatus => { s with badStatus := s.badStatus + 1 }
  | .firstBad code => { s with firstBad := if s.firstBad = 0 then code else s.firstBad }
  | .shortBody => { s with shortBody := s.shortBody + 1 }
  | .ok => { s with ok := s.ok + 1 }
  | .errShown line =>
    { s with
      errShown := s.errShown + 1
      printed := if s.errShown < 8 then s.printed ++ ["q" ++ toString w.val ++ ": " ++ line]
        else s.printed }
  | .finished => { s with finished := s.finished + 1 }
  | .firstIdleNs ns =>
    -- the queue can no longer keep every slot busy
    if a.c.requests - f < a.c.workers.toUInt64 * a.perDaemon.toUInt64 then
      { s with firstIdleNs := if s.firstIdleNs = 0 then ns else s.firstIdleNs }
    else s

/-- The worker's thread runs no callback. -/
def State.Free (s : State a) (w : a.Worker) : Prop :=
  ∀ r f op rest, s.phase r ≠ .called w f (op :: rest)

structure Event (a : Fetch) where
  request : a.Request
  worker : a.Worker
  /-- `none`: the callback is called. -/
  op : Option Op

/-- One step of one worker's thread. -/
inductive Step : State a → Event a → State a → Prop
  | call {s : State a} {r : a.Request} {w : a.Worker} {ns : UInt64} :
      s.phase r = .queued → s.Free w →
      Step s ⟨r, w, none⟩ (s.setPhase r (.called w 0 (a.callback (a.results r) ns)))
  | exec {s : State a} {r : a.Request} {w : a.Worker} {f : UInt64} {op : Op} {rest : List Op} :
      s.phase r = .called w f (op :: rest) →
      Step s ⟨r, w, some op⟩ ((s.exec w f op).setPhase r
        (.called w (if op = .finished then s.finished + 1 else f) rest))

/-- `finished.load() < total` does not hold any more. -/
def Left (s : State a) : Prop := a.c.requests ≤ s.finished

/-! ## The totals -/

def totalB (s : State a) : UInt64 := ((List.finRange a.c.workers.toNat).map s.bytes).sum

/-- The sum over `expected`. -/
def totalExpected (a : Fetch) : UInt64 :=
  ((List.range a.c.requests.toNat).map fun id =>
    (a.c.blockRange (.ofNat id)).2 - (a.c.blockRange (.ofNat id)).1).sum

def complete (s : State a) : Bool :=
  s.ok == a.c.requests && totalB s == totalExpected a && s.failed == 0 && s.badStatus == 0 &&
    s.shortBody == 0

inductive Verdict
  | complete (line : String)
  /-- `main` returns 1. -/
  | incomplete (line : String)
  deriving DecidableEq, Repr

def verdict (s : State a) : Verdict :=
  if complete s then .complete ("COMPLETE: " ++ toString (totalB s) ++ " bytes, byte-exact")
  else
    .incomplete ("INCOMPLETE: " ++ toString s.failed ++ " requests failed, " ++
      toString s.badStatus ++ " bad status, " ++ toString s.shortBody ++ " short bodies, " ++
      toString (if totalExpected a < totalB s then totalB s - totalExpected a
        else totalExpected a - totalB s) ++ " bytes " ++
      if totalExpected a < totalB s then "over" else "short")

end AnyBlob
