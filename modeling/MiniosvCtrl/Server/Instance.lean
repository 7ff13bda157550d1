import MiniosvCtrl.Infra.Python

/-!
# What the server's instance runs

`server.py` fetches nginx, lays the blob and starts nginx; when nginx answers a ranged GET of the
blob, it prints the line that the driver waits for. What it prints is a part of the console's text,
and so is the traceback of what it does not catch.

* `Machine` — what the instance answers
* `main` — the program
* `Machine.console` — the text of the console
-/

namespace NginxStatic

open Infra

/-- The steps whose exceptions nothing catches. -/
inductive Call
  | makedirs
  | chmod
  /-- The start of `fallocate`, not its return code. -/
  | fallocate
  /-- The write of `nginx.conf` -/
  | config
  /-- The start of nginx. -/
  | nginx
  | shutdown
  deriving DecidableEq, Repr

structure Machine where
  /-- `cfg(key, default)` -/
  cfg : String → String → String
  /-- The traceback, if the step raises. -/
  raises : Call → Option String
  /-- The download of nginx, or the text of what it raises. -/
  fetch : Except String Unit
  /-- The return code of `fallocate`. -/
  fallocate : Int
  /-- `p.poll()` of the `n`-th turn -/
  poll : Nat → Option Int
  /-- The status of the `n`-th ranged GET, unless it raises. -/
  get : Nat → Option Nat
  /-- The metadata service's token, before it is asked for the path. -/
  token : String → Option String
  metadata : String → Option String
  /-- `os.cpu_count()` -/
  cpuCount : Option Nat
  /-- `os.uname().release` -/
  release : String

namespace Machine

variable (m : Machine)

/-! ## The settings -/

def isLocal : Bool := m.cfg "BENCH_LOCAL" "0" == "1"

def size : String := m.cfg "BENCH_OBJECT_SIZE" "10G"

def workers : String :=
  let workers := m.cfg "BENCH_SERVER_WORKERS" "auto"
  if workers = "" then "auto" else workers

/-- `ENDPOINT` -/
def endpoint : String :=
  "https://" ++ m.cfg "AWS_BUCKET" "" ++ ".s3." ++ m.cfg "AWS_REGION" "" ++ ".amazonaws.com"

def url : String := m.endpoint ++ "/" ++ m.cfg "BENCH_BIN_PREFIX" "bin/nginx-static" ++ "/nginx"

/-- `os.path.join(WWW, "blob.bin")` -/
def blob : String :=
  let www := m.cfg "BENCH_WWW" "/dev/shm/www"
  if www = "" ∨ www.toList.getLast? = some '/' then www ++ "blob.bin" else www ++ "/blob.bin"

/-- `imds(path)`: whatever either request raises, the text is empty. -/
def imds (path : String) : String := ((m.token path).bind fun _ => m.metadata path).getD ""

/-- `imds(path) or "unknown"` -/
def known (path : String) : String := if m.imds path = "" then "unknown" else m.imds path

def nproc : String := (m.cpuCount.map fun n => toString n).getD "None"

/-! ## The program -/

/-- The turns until nginx answers; otherwise the line that says why it did not. -/
def ready : List Nat → Except String Unit
  | [] => .error "SERVER FAILED: no 206 from nginx"
  | n :: rest =>
    match m.poll n with
    | some code => .error ("SERVER FAILED: nginx exited " ++ toString code)
    | none => if m.get n = some 206 then .ok () else ready rest

/-- The line that the driver looks for. -/
def readyLine : String :=
  "SERVER READY ip=" ++ m.known "local-ipv4" ++ " object=" ++ m.size ++ " workers=" ++ m.workers ++
    " nproc=" ++ m.nproc ++ " type=" ++ m.known "instance-type" ++ " kernel=" ++ m.release

end Machine

/-- What raises its traceback, and prints. -/
abbrev Running (α : Type) : Type := Py (List String) String α

def say (text : String) : Running Unit := fun out => (.ok (), out ++ [text])

variable (m : Machine)

def call (c : Call) : Running Unit := fun out =>
  match m.raises c with
  | some traceback => (.error traceback, out)
  | none => (.ok (), out)

/-- `main`, once nginx is started. -/
def awaitNginx : Running Nat :=
  match m.ready (List.range 60) with
  | .error line => do
    say line
    return 1
  | .ok () => do
    say m.readyLine
    if m.isLocal then return 0
    else
      call m .shutdown
      return 0

/-- `main`, once nginx is fetched. -/
def serve : Running Nat := do
  call m .chmod
  call m .fallocate
  if m.fallocate ≠ 0 then
    say ("SERVER FAILED: fallocate " ++ m.size ++ " " ++ m.blob)
    return 1
  else
    call m .config
    call m .nginx
    awaitNginx m

def main : Running Nat := do
  call m .makedirs
  match m.fetch with
  | .error e =>
    say ("SERVER FAILED: fetch " ++ m.url ++ ": " ++ e)
    return 1
  | .ok () => serve m

/-! ## The console -/

/-- What was printed, and the traceback. -/
def printed : Except String Nat × List String → List String
  | (.ok _, out) => out
  | (.error traceback, out) => out ++ [traceback]

namespace Machine

def said : List String := printed (main m [])

def output : List Char := m.said.flatMap fun line => line.toList ++ ['\n']

/-- What the console has before and after the program's lines. -/
structure Boot where
  before : List Char
  after : List Char

def console (b : Boot) : List Char := b.before ++ (m.output ++ b.after)

end Machine

end NginxStatic
