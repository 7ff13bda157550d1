import MiniosvCtrl.Infra.Checked
import MiniosvCtrl.LinuxS3.RunConn

/-!
# linux-s3's environment

`load_config` from the texts of the environment, and the arithmetic that `main` and `run_conn` do
with what it accepts, as a build with overflow checks runs it.

`usize` has 64 bits. The note that `main` prints for `BENCH_TLS_STUB` under http is left out.

* `parseSize`, `parseBool`
* `load` — `load_config`
* `Settings.range`, `Settings.core` — of `run_conn`
* `Settings.total` — of `main`
-/

namespace LinuxS3

open Infra

/-! ## Values -/

/-- `parse::<u64>`, of ASCII digits. -/
def parseU64 (digits : List Char) : Option UInt64 :=
  if digits = [] ∨ 2 ^ 64 ≤ Nat.ofDigitChars 10 digits 0 then none
  else some (UInt64.ofNat (Nat.ofDigitChars 10 digits 0))

/-- The `match` on the first character after the digits. -/
def suffix (v default : UInt64) : Option Char → UInt64
  | none => v
  | some c =>
    if c = 'K' ∨ c = 'k' then v <<< 10
    else if c = 'M' ∨ c = 'm' then v <<< 20
    else if c = 'G' ∨ c = 'g' then v <<< 30
    else if c = 'T' ∨ c = 't' then v <<< 40
    else if c = 'B' ∨ c = 'b' ∨ c = 'i' ∨ c = 'I' then v
    else default

def parseSize (s : Option String) (default : UInt64) : UInt64 :=
  match s with
  | none => default
  | some s =>
    let digits := s.toList.takeWhile Char.isDigit
    match parseU64 digits with
    | none => default
    | some v => suffix v default (s.toList.drop digits.length).head?

def parseBool (s : Option String) (default : Bool) : Bool :=
  match s.bind fun s => s.toList.head? with
  | none => default
  | some c =>
    if c ∈ ['1', 't', 'T', 'y', 'Y'] then true
    else if c ∈ ['0', 'f', 'F', 'n', 'N'] then false
    else default

abbrev Ipv4Addr := UInt8 × UInt8 × UInt8 × UInt8

/-- One to three digits, no zero in front of others, at most 255. -/
def parseOctet (l : List Char) : Option UInt8 :=
  let n := Nat.ofDigitChars 10 l 0
  if l ≠ [] ∧ l.all Char.isDigit = true ∧ l.length ≤ 3 ∧ (l.head? = some '0' → l.length = 1) ∧
      n < 256 then
    some (UInt8.ofNat n)
  else none

/-- `parse::<Ipv4Addr>` -/
def parseIpv4 (s : String) : Option Ipv4Addr :=
  match s.toList.splitOn '.' with
  | [a, b, c, d] => do return (← parseOctet a, ← parseOctet b, ← parseOctet c, ← parseOctet d)
  | _ => none

/-! ## `load_config` -/

/-- What `std::env::var` finds; what is not UTF-8 is not found. -/
abbrev Env := String → Option String

/-- `env` -/
def Env.var (e : Env) (k : String) : Option String := (e k).filter (· ≠ "")

/-- The source's `Tuning`, with the widths of its numbers. -/
structure Env.Tuning where
  pinCores : Option UInt64
  rcvbuf : Option UInt64
  /-- Microseconds. -/
  busyPoll : Option UInt32
  quickack : Bool
  deriving DecidableEq, Repr

def Env.Tuning.none : Env.Tuning :=
  { pinCores := Option.none, rcvbuf := Option.none, busyPoll := Option.none, quickack := false }

/-- The source's `Config`, whose numbers are a `Config` here. -/
structure Settings where
  config : Config
  targetIp : Ipv4Addr
  host : String
  path : String
  tuning : Env.Tuning
  mode : String
  iface : Option String

namespace Env

variable (e : Env)

def workers : UInt64 := parseSize (e.var "BENCH_WORKERS") 8

def conns : UInt64 := parseSize (e.var "BENCH_CONNS_PER_WORKER") 24

def blocks : UInt64 := parseSize (e.var "BENCH_BLOCKS_PER_WORKER") 0

/-- `blocks_per_worker` -/
def blocksPerWorker : UInt64 := if e.blocks = 0 then e.conns else e.blocks

def objectSize : UInt64 := parseSize (e.var "AWS_BUCKET_SIZE") (10 * 1024 * 1024 * 1024)

def blockSize : UInt64 := parseSize (e.var "BENCH_BLOCK_SIZE") (64 * 1024 * 1024)

def stub : Bool := parseBool (e.var "BENCH_TLS_STUB") false

def mode : String := (e.var "MODE").getD "stock"

/-- `pin`, without the `Some` -/
def pin : UInt64 := parseSize (e.var "PIN_CORES") e.workers

/-- The modes whose threads are pinned. -/
def Pins : Prop := e.mode ∈ ["capped", "nogro", "nogro1500", "parity"]

instance : Decidable e.Pins := inferInstanceAs (Decidable (_ ∈ _))

def tuning : Tuning :=
  if e.mode ∈ ["capped", "nogro", "nogro1500"] then { Tuning.none with pinCores := some e.pin }
  else if e.mode = "parity" then
    { pinCores := some e.pin
      rcvbuf := some (parseSize (e.var "RCVBUF") (4 * 1024 * 1024))
      busyPoll := some (parseSize (e.var "BUSY_POLL") 50).toUInt32
      quickack := parseBool (e.var "QUICKACK") true }
  else Tuning.none

/-- `plain`; `debug` is how `{:?}` writes a text. -/
def plain (debug : String → String) : Except String Bool :=
  let scheme := (e.var "BENCH_SCHEME").getD "https"
  if scheme = "http" then .ok true
  else if scheme = "https" then .ok false
  else .error s!"BENCH_SCHEME must be http or https, not {debug scheme}"

def host : Except String String :=
  match e.var "BENCH_HOST" with
  | some h => .ok h
  | none =>
    match e.var "AWS_BUCKET" with
    | none => .error "AWS_BUCKET is unset"
    | some bucket =>
      match e.var "AWS_REGION" with
      | none => .error "AWS_REGION is unset"
      | some region => .ok s!"{bucket}.s3.{region}.amazonaws.com"

def targetIp : Except String Ipv4Addr :=
  match e.var "AWS_TARGET_IP" with
  | none => .error "AWS_TARGET_IP is unset"
  | some t =>
    match parseIpv4 t with
    | none => .error "AWS_TARGET_IP is malformed"
    | some ip => .ok ip

/-- `load_config` -/
def load (debug : String → String) : Except String Settings := do
  let plain ← e.plain debug
  let host ← e.host
  let targetIp ← e.targetIp
  let config ← loadConfig e.workers e.conns e.blocks e.objectSize e.blockSize e.stub plain
  .ok
    { config := config
      targetIp := targetIp
      host := host
      path := (e.var "BENCH_PATH").getD "/blob.bin"
      tuning := e.tuning
      mode := e.mode
      iface := e.var "BENCH_IFACE" }

end Env

/-! ## With overflow checks -/

namespace Settings

variable (s : Settings)

/-- `start` of `run_conn`. The product is its only `wrapping_mul`. -/
def start (stride block : UInt64) : Option UInt64 :=
  if stride = 0 then some 0 else Checked.rem (block * s.config.blockSize) stride

/-- `start`, `end` and `expected`. -/
def range (block : UInt64) : Option (UInt64 × UInt64 × UInt64) := do
  let c := s.config
  let stride ← Checked.add (if c.objectSize < c.blockSize then 0 else c.objectSize - c.blockSize) 1
  let start ← s.start stride block
  let next ← Checked.add start c.blockSize
  let last ← Checked.sub next 1
  let span ← Checked.sub last start
  let expected ← Checked.add span 1
  return (start, last, expected)

/-- `worker % cores`, if the threads are pinned. -/
def core (worker : UInt64) : Option (Option UInt64) :=
  match s.tuning.pinCores with
  | none => some none
  | some cores => (Checked.rem worker cores).map some

/-- `total_blocks` -/
def total : Option UInt64 := Checked.mul s.config.workers s.config.blocksPerWorker

/-- None of it traps, for any worker and any block of the run. -/
def Sound : Prop :=
  s.total.isSome ∧ ∀ worker block : UInt64, worker < s.config.workers →
    block.toNat < s.config.workers.toNat * s.config.blocksPerWorker.toNat →
      (s.range block).isSome ∧ (s.core worker).isSome

end Settings

end LinuxS3
