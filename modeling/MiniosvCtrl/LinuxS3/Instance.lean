import MiniosvCtrl.Guest.Script
import MiniosvCtrl.Infra.Python
import MiniosvCtrl.LinuxS3.LoadConfig

/-!
# From the driver of linux-s3 to its client

The driver writes a point of its sweep into the program of the guest, and the guest starts the
client with what it reads there in its environment.

* `userConf`, `userData` — of the driver
* `Guest.env`, `Guest.confine` — the environment and the cores of the client

What the guest does to the machine, and its lines about it, are left out.
-/

namespace LinuxS3

open Infra Prelude

/-! ## The driver -/

/-- A point of the sweep, with the numbers that `size` made of it. -/
structure Cfg where
  workers : Nat
  conns : Nat
  block : Nat
  blocks : Nat
  mode : String

/-- `str(n)`; `none` is a `ValueError`. -/
def str (n : Nat) : Option String :=
  if n < 10 ^ Builtins.maxDigits then some (String.ofList (Nat.toDigits 10 n)) else none

/-- The `conf` of `user_data`; a bucket or a region that is not set is a `KeyError`. -/
def userConf (environ : Environ) (cfg : Cfg) (ip runId : String) :
    Option (List (String × String)) := do
  let bucket ← environ "AWS_BUCKET"
  let region ← environ "AWS_REGION"
  let workers ← str cfg.workers
  let conns ← str cfg.conns
  let block ← str cfg.block
  let blocks ← str cfg.blocks
  return [
    ("AWS_BUCKET", bucket),
    ("AWS_REGION", region),
    ("AWS_BUCKET_SIZE", (environ "AWS_BUCKET_SIZE").getD "10G"),
    ("AWS_TARGET_IP", ip),
    ("BENCH_WORKERS", workers),
    ("BENCH_CONNS_PER_WORKER", conns),
    ("BENCH_BLOCK_SIZE", block),
    ("BENCH_BLOCKS_PER_WORKER", blocks),
    ("BENCH_TLS_STUB", (environ "BENCH_TLS_STUB").getD "0"),
    ("BENCH_SCHEME", (environ "BENCH_SCHEME").getD "https"),
    ("MODE", cfg.mode),
    ("RUN_ID", runId)]

/-- `user_data` -/
def userData (environ : Environ) (cfg : Cfg) (ip runId : String) (prelude body : List Char) :
    Option (List Char) := do
  guestScript (← userConf environ cfg ip runId) prelude body

/-! ## The guest -/

/-- What the guest finds on its machine. -/
structure Guest where
  environ : Environ
  iface : String
  /-- `socket.gethostbyname`; `none` is an exception. -/
  resolve : Text → Option String

namespace Guest

variable (B : Builtins) (g : Guest) (c : Prelude.Config)

def bucket : Text := cfg c g.environ "AWS_BUCKET" ""

def region : Text := cfg c g.environ "AWS_REGION" ""

/-- The name that is resolved if there is no address. -/
def name : Text := g.bucket c ++ text ".s3." ++ g.region c ++ text ".amazonaws.com"

/-- `env["AWS_TARGET_IP"]`, once it is set. -/
def targetIp : Option Text :=
  let ip := (merged c g.environ "AWS_TARGET_IP").getD []
  if ip = [] then (g.resolve (g.name c)).map text else some ip

/-- The client's environment, with this address. -/
def clientEnv (ip : Text) : Environ := fun key =>
  if key = "AWS_TARGET_IP" then encode ip
  else if key = "BENCH_IFACE" then encode (text g.iface)
  else (merged c g.environ key).bind encode

/-- The environment that `run_bench` starts the client in; `none` is an exception. -/
def env : Option Environ := do
  let ip ← g.targetIp c
  if c.Encodes ∧ (encode ip).isSome ∧ (encode (text g.iface)).isSome then some (g.clientEnv c ip)
  else none

/-- `NQ`; `none` is a `ValueError`. -/
def nq : Option Nat :=
  let workers := cfg c g.environ "BENCH_WORKERS" "8"
  if workers = [] then some 8 else (Literal.chars workers).bind B.int

/-- `CAPPED` -/
def Capped : Prop :=
  cfg c g.environ "MODE" "stock" ∈ ["capped", "parity", "nogro", "nogro1500"].map text

instance : Decidable (g.Capped c) := inferInstanceAs (Decidable (_ ∈ _))

/-- `["taskset", "-c", "0-{}".format(NQ - 1)]` -/
def taskset (nq : Nat) : List String := ["taskset", "-c", s!"0-{(nq : Int) - 1}"]

/-- What stands in front of the client on its command line. -/
def confine : Option (List String) := do
  let nq ← g.nq B c
  return if g.Capped c then taskset nq else []

end Guest

end LinuxS3
