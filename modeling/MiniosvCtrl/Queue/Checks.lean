import MiniosvCtrl.Infra.Python
import MiniosvCtrl.Runner.Sweep

/-!
# `checks`, and the trees that builds write

What `submit` refuses a queue for, with the answers of AWS, of the file system and of the
`experiment.py --dry-run` that it runs as a `World`; and what each driver's `build` runs, down to
the directories that the recipes and `make` write into.

* `checks`
* `Driver.build` — the commands of a build
* `Writes` — the trees that an experiment's bench builds into
-/

namespace Checks

open Infra Runner

/-! ## The queue -/

/-- An experiment as `load` leaves it, with its group. -/
structure Experiment where
  /-- `qualified` of its path. -/
  name : String
  bench : String
  inst : String
  group : Nat
  /-- It has a `deploy`. -/
  deploy : Bool
  /-- It has a `prep`. -/
  prep : Bool
  deriving DecidableEq, Repr

structure Args where
  concurrent : Bool
  /-- `--reps` -/
  reps : Option Nat
  ttl : Nat

/-- What a process that was run left. -/
structure Completed where
  returncode : Int
  stdout : String
  stderr : String

/-- The answers that the checks get. An error is the text of an exception. -/
structure World where
  tables : Builtins
  /-- `os.environ` -/
  environ : String → Option String
  /-- `get_caller_identity` -/
  identity : Except String String
  /-- `get_bucket_location` -/
  location : Except String (Option String)
  /-- The VPC of the subnet. -/
  subnet : Except String String
  /-- Its S3 gateway endpoints. -/
  endpoints : List String
  /-- `head_object` finds blob.bin. -/
  blob : Bool
  /-- `experiment.py --dry-run`, with `--reps`. -/
  dryRun : Experiment → Option Nat → Completed
  /-- The running queue's id, status and pid. -/
  running : Option (String × String × Nat)
  /-- `our_instances`: ids and types. -/
  up : List (String × String)

/-- Why a queue is not accepted. -/
inductive Refusal
  /-- `SystemExit` -/
  | exit (message : String)
  | valueError
  deriving DecidableEq, Repr

def refuse (message : String) : Except Refusal Unit := .error (.exit message)

def requiredEnv : List String := ["AWS_REGION", "AWS_BUCKET", "AWS_SUBNET"]

def ttlMax : Nat := 6 * 3600

/-- `os.environ[key]` -/
def World.env (w : World) (key : String) : String := (w.environ key).getD ""

/-- `Path(p).name` -/
def baseName (p : String) : String :=
  ((((p.toList.splitOn '/').map String.ofList).filter fun c => c ≠ "" ∧ c ≠ ".").getLast?).getD ""

/-- The digits of an `int`, with single underscores between them. -/
def unsigned (B : Builtins) (l : List Char) : Option Nat :=
  let parts := l.splitOn '_'
  if [] ∈ parts then none else B.int parts.flatten

/-- `int(t)` -/
def int (B : Builtins) (t : String) : Option Int :=
  match (strip t).toList with
  | '-' :: l => (unsigned B l).map fun n => -(n : Int)
  | '+' :: l => (unsigned B l).map fun n => (n : Int)
  | l => (unsigned B l).map fun n => (n : Int)

def vcpus (B : Builtins) (inst : String) : Option Int :=
  let size := String.ofList (((inst.toList.splitOn '.').getLast?).getD [])
  if size = "large" then some 2
  else if size = "xlarge" then some 4
  else
    let l := size.toList
    let suffix := "xlarge".toList
    let digits := if suffix <:+ l then l.take (l.length - suffix.length) else l
    (int B (String.ofList digits)).map (· * 4)

/-- The experiments, by group, in the order in which the groups appear. -/
def groups (xs : List Experiment) : List (List Experiment) :=
  ((xs.map Experiment.group).eraseDups).map fun g => xs.filter fun x => x.group = g

namespace World

variable (w : World)

def checkEnviron : Except Refusal Unit :=
  let missing := requiredEnv.filter fun k => w.environ k = none
  if missing = [] then .ok ()
  else
    refuse (", ".intercalate missing ++ " missing from the environment; run " ++
      "`just setup apps/bench/smoltcp-s3`")

def checkIdentity : Except Refusal Unit :=
  match w.identity with
  | .ok _ => .ok ()
  | .error e => refuse s!"no usable AWS credentials: {e}"

/-- `bucket_region` -/
def region : Option String → String
  | none => "us-east-1"
  | some "EU" => "eu-west-1"
  | some r => r

def checkBucketRegion : Except Refusal Unit :=
  let region := w.env "AWS_REGION"
  let bucket := w.env "AWS_BUCKET"
  match w.location with
  | .error e => refuse s!"cannot read the region of s3://{bucket}: {e}"
  | .ok location =>
    let found := World.region location
    if found = region then .ok ()
    else
      refuse (s!"s3://{bucket} is in {found}, but AWS_REGION is {region}: every byte would " ++
        "cross regions. Fix .env or move the bucket.")

def checkSubnet : Except Refusal Unit :=
  match w.subnet with
  | .error e =>
    let subnet := w.env "AWS_SUBNET"
    let region := w.env "AWS_REGION"
    refuse s!"AWS_SUBNET {subnet} is not in {region}: {e}"
  | .ok vpc =>
    if w.endpoints = [] then
      refuse s!"{vpc} has no S3 gateway endpoint; the bucket policy would refuse every GET"
    else .ok ()

/-- The benches that read blob.bin. -/
def blobBenches : List String := ["smoltcp-s3", "linux-s3", "anyblob"]

def checkExperiment (a : Args) (x : Experiment) : Except Refusal Unit :=
  if x.deploy ∨ x.prep then refuse s!"{x.name} is not a sweep; the queue runs sweeps only"
  else if baseName x.bench ∈ blobBenches ∧ w.blob = false then
    let bucket := w.env "AWS_BUCKET"
    refuse (s!"s3://{bucket}/blob.bin is missing; run " ++
      "`just setup apps/bench/smoltcp-s3 < /dev/null` (every GET would be a 403)")
  else
    let r := w.dryRun x (if a.reps = some 0 then none else a.reps)
    if r.returncode = 0 then .ok ()
    else refuse s!"{x.name} does not plan:\n{r.stdout}\n{r.stderr}"

def checkIdle : Except Refusal Unit :=
  match w.running with
  | some (id, status, pid) =>
    refuse s!"queue {id} is still {status} (pid {pid}); `just queue-stop` first"
  | none =>
    if w.up = [] then .ok ()
    else
      let names := ", ".intercalate (w.up.map fun i => s!"{i.1} ({i.2})")
      refuse (s!"instances of ours are already up: {names}; a queue would share the build " ++
        "tree and the bucket with them")

def checkTtl (a : Args) : Except Refusal Unit :=
  if a.ttl > ttlMax then
    refuse s!"--ttl {a.ttl}s is over the {ttlMax / 3600} h a queue may live"
  else .ok ()

def checkGroups (a : Args) (xs : List Experiment) : Except Refusal Unit :=
  if a.concurrent = false then .ok ()
  else if ∃ g ∈ groups xs,
      ((g.map Experiment.bench).dedup).length ≠ (g.map Experiment.bench).length then
    refuse ("--concurrent runs a group's experiments side by side, and two on one bench " ++
      "would build into the same tree")
  else
    match (groups xs).mapM fun g => g.mapM fun x => vcpus w.tables x.inst with
    | none => .error .valueError
    -- `max` of nothing
    | some [] => .error .valueError
    | some _ => .ok ()

end World

/-- Everything that would make the runner fail after the shell is gone. -/
def checks (w : World) (a : Args) (xs : List Experiment) : Except Refusal Unit := do
  w.checkEnviron
  w.checkIdentity
  w.checkBucketRegion
  w.checkSubnet
  xs.forM (w.checkExperiment a)
  w.checkIdle
  World.checkTtl a
  w.checkGroups a xs

/-! ## The builds -/

/-- A directory of the repository. -/
abbrev Tree := String

/-- What a build runs that writes files. -/
inductive Command
  /-- `make -C dir app=app`; what the app's own makefile does is not under src. -/
  | make (dir : Tree) (app : String)
  /-- `cargo build`, into `target`. -/
  | cargo (dir : Tree)
  /-- `cmake`, into `build`. -/
  | cmake (dir : Tree)
  /-- In a directory of its own, from `mktemp -d`. -/
  | temporary
  deriving DecidableEq, Repr

def Command.trees : Command → List Tree
  | .make dir _ | .cargo dir | .cmake dir => [dir]
  | .temporary => []

/-- `just build app` -/
def justBuild (app : String) : List Command := [.make "miniosv" app]

/-- `just setup app`: the recipe of the bench's own justfile. -/
def justSetup : String → List Command
  | "competitors/linux-s3" => [.cargo "competitors/linux-s3"]
  | "competitors/anyblob" => [.cmake "competitors/anyblob"]
  | "competitors/linux-http" | "competitors/duckdb-linux" | "competitors/nginx-static" =>
    [.temporary]
  | _ => []

/-- A directory of scripts/bench. -/
inductive Driver
  | smoltcpS3 | duckdbTpch | linuxS3 | anyblob | linuxHttp | duckdbLinux
  deriving DecidableEq, Repr

namespace Driver

/-- scripts/bench/name/bench.py, if there is one. -/
def named : String → Option Driver
  | "smoltcp-s3" => some .smoltcpS3
  | "duckdb-tpch" => some .duckdbTpch
  | "linux-s3" => some .linuxS3
  | "anyblob" => some .anyblob
  | "linux-http" => some .linuxHttp
  | "duckdb-linux" => some .duckdbLinux
  | _ => none

/-- `os_name` -/
def osName : Driver → String
  | .smoltcpS3 | .duckdbTpch => "miniosv"
  | .linuxS3 | .linuxHttp | .duckdbLinux => "linux"
  | .anyblob => "anyblob"

/-- `ensure_binary`, when the point has a server of its own. -/
def ensureBinary (server uploaded : Bool) : List Command :=
  if server ∧ ¬ uploaded then justSetup "competitors/nginx-static" else []

/--
`build`, for a point with or without a server of its own, when nginx is or is not in the bucket.
-/
def build (d : Driver) (server uploaded : Bool) : List Command :=
  match d with
  | .smoltcpS3 => ensureBinary server uploaded ++ justBuild "apps/bench/smoltcp-s3"
  | .duckdbTpch => [.make "miniosv" "apps/bench/duckdb-tpch"]
  | .linuxS3 => justSetup "competitors/linux-s3"
  | .anyblob => justSetup "competitors/anyblob" ++ ensureBinary server uploaded
  | .linuxHttp => justSetup "competitors/linux-http" ++ ensureBinary server uploaded
  | .duckdbLinux => justSetup "competitors/duckdb-linux"

end Driver

/-- The driver that `experiment.py` starts for a bench. -/
def driverOf (bench : String) : Option Driver := Driver.named (baseName bench)

/-- The bench's build writes into the tree, at some point. -/
def Writes (bench : String) (t : Tree) : Prop :=
  ∃ d, driverOf bench = some d ∧ ∃ server uploaded,
    ∃ cmd ∈ d.build server uploaded, t ∈ cmd.trees

end Checks
