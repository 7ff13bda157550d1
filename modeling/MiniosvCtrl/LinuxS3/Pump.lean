import MiniosvCtrl.Infra.Run
import MiniosvCtrl.LinuxS3.Summary

/-!
# The pumps of linux-s3

`pump` owns the loop of one TLS connection: it lets rustls work on what the socket delivered,
writes what rustls produced, and reads again. `pump_plain` is the same without rustls.

rustls and the kernel are outside. Each of their answers is one step, so that a run is any
sequence of answers whatever they are; what the pump does between two answers is computed.

* `Answer` — what a call returns
* `Pump.step` — one answer of `pump`
* `PumpPlain.step` — one answer of `pump_plain`
-/

namespace LinuxS3

/-! ## Answers -/

/-- `sock.read`; no bytes are the end of the stream. -/
inductive ReadResult
  | data (bytes : List UInt8)
  | interrupted
  /-- Any other error, the timeout among them. -/
  | failed (e : String)
  deriving DecidableEq, Repr

/-- `sock.write_all`; of a failed one, how many bytes had gone out. -/
inductive WriteResult
  | all
  | failed (e : String) (wrote : Nat)
  deriving DecidableEq, Repr

/-- `encode` and `encrypt`; after an error, what the part of the buffer they were given holds. -/
inductive Filled
  | ok (bytes : List UInt8)
  | failed (e : String) (left : List UInt8)
  deriving DecidableEq, Repr

/-- `ConnectionState`, with what its handle gives when the pump uses it. -/
inductive TlsState
  /-- `process_tls_records` failed. -/
  | failed (e : String)
  /-- What `next_record` returns, one after another. -/
  | readTraffic (records : List (Except String (List UInt8)))
  | encodeTlsData (r : Filled)
  | transmitTlsData
  | writeTraffic (encrypt : Filled)
  | other

/-- What a call of the pump returns. -/
inductive Answer
  | records (discard : Nat) (state : TlsState)
  | written (r : WriteResult)
  | read (r : ReadResult)

/-- Where the pump is: the call it has made, or why it makes none. -/
inductive PumpPhase
  | processing
  | writing
  | reading
  | returned
  /-- `drain` past the end of the buffer. -/
  | panicked
  deriving DecidableEq, Repr

/-! ## With TLS -/

/-- The locals of `pump`, and what its calls did outside. -/
structure Pump where
  phase : PumpPhase
  incoming : List UInt8
  outgoing : List UInt8
  handshakeDone : Bool
  requestQueued : Bool
  /-- `out.bytes_received`, `headers_done` and `hdr_state`. -/
  counted : Counted
  eof : Bool
  failed : Bool
  /-- `out.closed_cleanly` -/
  closedCleanly : Bool
  /-- The lines printed. -/
  fails : List Fail
  /-- What the socket delivered to the record layer. -/
  received : List UInt8
  /-- What it delivered to stub mode's tally. -/
  tallied : List (List UInt8)
  /-- What rustls was told is gone from `incoming`. -/
  discarded : List UInt8
  /-- The payloads of the records, in order. -/
  payloads : List (List UInt8)
  /-- What was appended to `outgoing`. -/
  encoded : List UInt8
  /-- What the socket took. -/
  sent : List UInt8
  /-- How often the request was encrypted. -/
  requests : Nat

namespace Pump

def init : Pump where
  phase := .processing
  incoming := []
  outgoing := []
  handshakeDone := false
  requestQueued := false
  counted := .init
  eof := false
  failed := false
  closedCleanly := false
  fails := []
  received := []
  tallied := []
  discarded := []
  payloads := []
  encoded := []
  sent := []
  requests := 0

variable (s : Pump)

/-- `FAIL`, and `failed = true`. -/
def fail (f : Fail) : Pump := { s with fails := s.fails ++ [f], failed := true }

/-- `outgoing` grows by what a handle put behind it. -/
def produce (bytes : List UInt8) : Pump :=
  { s with outgoing := s.outgoing ++ bytes, encoded := s.encoded ++ bytes }

/-- After the flush: return, or read. -/
def settle : Pump :=
  if s.failed then { s with phase := .returned }
  else if s.eof then
    { s with phase := .returned, closedCleanly := s.handshakeDone && s.requestQueued }
  else { s with phase := .reading }

/-- After the loop over the record layer: flush what there is. -/
def flush : Pump := if s.outgoing = [] then s.settle else { s with phase := .writing }

/-- `incoming.drain(..discard)`, and around again after progress. -/
def drain (discard : Nat) (progress : Bool) : Pump :=
  if discard ≤ s.incoming.length then
    let s' :=
      { s with
        incoming := s.incoming.drop discard
        discarded := s.discarded ++ s.incoming.take discard }
    if progress then { s' with phase := .processing } else s'.flush
  else { s with phase := .panicked }

/-- One record: its payload is counted. -/
def takeRecord (payload : List UInt8) : Pump :=
  { s with counted := countBody s.counted payload, payloads := s.payloads ++ [payload] }

/-- `while let Some(rec) = rt.next_record()`, and whether there was a record. -/
def takeRecords (s : Pump) (gotRecord : Bool) : List (Except String (List UInt8)) → Pump × Bool
  | [] => (s, gotRecord)
  | .ok payload :: rest => (s.takeRecord payload).takeRecords true rest
  | .error e :: _ => (s.fail (.tlsRecord e), gotRecord)

/-- One round over the record layer. -/
def advance (discard : Nat) : TlsState → Pump
  | .failed e => (s.fail (.tls e)).flush
  | .readTraffic records =>
    let (s', gotRecord) := s.takeRecords false records
    s'.drain discard gotRecord
  | .encodeTlsData (.ok bytes) => (s.produce bytes).drain discard true
  | .encodeTlsData (.failed e left) => ((s.produce left).fail (.tlsEncode e)).flush
  | .transmitTlsData => s.drain discard true
  | .writeTraffic encrypt =>
    let s' := { s with handshakeDone := true }
    if s.requestQueued then s'.drain discard false
    else
      match encrypt with
      | .ok bytes =>
        { s'.produce bytes with requestQueued := true, requests := s.requests + 1 }.drain
          discard true
      | .failed e left => ((s'.produce left).fail (.tlsEncrypt e)).flush
  | .other => s.drain discard false

/-- `write_all(&outgoing)`, and `outgoing.clear()`. -/
def write (worker : Nat) : WriteResult → Pump
  | .all => { s with outgoing := [], sent := s.sent ++ s.outgoing }.settle
  | .failed e wrote =>
    ({ s with outgoing := [], sent := s.sent ++ s.outgoing.take wrote }.fail
      (.write worker e)).settle

/-- Stub mode tallies what comes after the request. -/
def take (stub : Bool) (bytes : List UInt8) : Pump :=
  if stub && s.handshakeDone && s.requestQueued then
    { s with
      counted := { s.counted with bytes := s.counted.bytes + UInt64.ofNat bytes.length }
      tallied := s.tallied ++ [bytes] }
  else
    { s with incoming := s.incoming ++ bytes, received := s.received ++ bytes }

def read (stub : Bool) (worker : Nat) : ReadResult → Pump
  | .data [] => { s with eof := true, phase := .processing }
  | .data (b :: bytes) => { s.take stub (b :: bytes) with phase := .processing }
  | .interrupted => { s with phase := .processing }
  | .failed e => { s with fails := s.fails ++ [.read worker e], phase := .returned }

/-- An answer to the call that was made. -/
def step (stub : Bool) (worker : Nat) (s : Pump) (a : Answer) : Option Pump :=
  match s.phase, a with
  | .processing, .records discard state => some (s.advance discard state)
  | .writing, .written r => some (s.write worker r)
  | .reading, .read r => some (s.read stub worker r)
  | _, _ => none

/-- `pump`, up to some answer. -/
abbrev Runs (stub : Bool) (worker : Nat) (l : List Answer) (s : Pump) : Prop :=
  Infra.Run (fun s a t => step stub worker s a = some t) init l s

end Pump

/-! ## Without -/

/-- The locals of `pump_plain`, and what it read. -/
structure PumpPlain where
  phase : PumpPhase
  counted : Counted
  /-- `out.closed_cleanly` -/
  closedCleanly : Bool
  fails : List Fail
  received : List (List UInt8)

namespace PumpPlain

def init : PumpPlain where
  phase := .writing
  counted := .init
  closedCleanly := false
  fails := []
  received := []

variable (s : PumpPlain)

def write (worker : Nat) : WriteResult → PumpPlain
  | .all => { s with phase := .reading }
  | .failed e _ => { s with phase := .returned, fails := s.fails ++ [.write worker e] }

def read (worker : Nat) : ReadResult → PumpPlain
  | .data [] => { s with phase := .returned, closedCleanly := true }
  | .data (b :: bytes) =>
    { s with
      counted := countBody s.counted (b :: bytes)
      received := s.received ++ [b :: bytes] }
  | .interrupted => s
  | .failed e => { s with phase := .returned, fails := s.fails ++ [.read worker e] }

def step (worker : Nat) (s : PumpPlain) (a : Answer) : Option PumpPlain :=
  match s.phase, a with
  | .writing, .written r => some (s.write worker r)
  | .reading, .read r => some (s.read worker r)
  | _, _ => none

/-- `pump_plain`, up to some answer. -/
abbrev Runs (worker : Nat) (l : List Answer) (s : PumpPlain) : Prop :=
  Infra.Run (fun s a t => step worker s a = some t) init l s

end PumpPlain

end LinuxS3
