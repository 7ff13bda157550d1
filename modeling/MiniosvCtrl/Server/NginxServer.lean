import MiniosvCtrl.Ec2.Api
import MiniosvCtrl.Infra.Python
import MiniosvCtrl.Infra.Run

/-!
# The long-living server

`nginx-server.py` launches a server, writes it to `nginx-server.json` and terminates it at `stop`.
Every AWS call of a command may be refused; the files can be read and written.

* `Replies` — what the calls of one command answer
* `start`, `stop` — of `HttpServer`
* `cmdStart`, `cmdStatus`, `cmdStop`
* `Step` — one command after another
-/

namespace NginxServer

open Infra Ec2

/-- What `nginx-server.json` holds. -/
structure Record where
  iid : InstanceId
  ip : List Char
  zone : Zone
  type : String
  size : String
  deriving DecidableEq

/-- The file, and what EC2 has been asked for. -/
structure World where
  record : Option Record
  /-- The servers that some `start` launched. -/
  launched : List InstanceId
  /-- The instances that a successful `terminate_instances` named. -/
  named : List InstanceId
  deriving DecidableEq

inductive Raised
  | ec2 (e : Fault)
  /-- `IndexError`, of a list of zones. -/
  | index
  | systemExit (message : String)
  deriving DecidableEq, Repr

/-- The options of `start`. -/
structure Args where
  type : String
  size : String

/-- What the calls of one command answer. -/
structure Replies where
  /-- The `State` names of `describe_instances`, for each instance of each reservation. -/
  describeInstances : Except Fault (List (List String))
  /-- The zones in the order of their scores, once the binary and the image are there. -/
  zones : Except Raised (List Zone)
  /-- `runner.launch` in the `n`-th zone. It returns once `run_instances` launched something. -/
  launch : Nat → Except Raised (InstanceId × Zone)
  /-- The `Output` of the `n`-th `get_console_output`. -/
  console : Nat → Except Fault (Option (List Char))
  /-- Seconds that the `n`-th turn of the loop takes besides its `sleep`. -/
  turn : Nat → Nat
  terminateInstances : Except Fault Unit
  /-- The open and active requests of the instance. -/
  describeSpotInstanceRequests : Except Fault (List RequestId)
  cancelSpotInstanceRequests : Except Fault Unit

abbrev Calling (α : Type) : Type := Py World Raised α

variable (B : Builtins)

/-- Calls that change nothing that is kept here. -/
def lift {α : Type} (reply : Except Raised α) : Calling α := fun w => (reply, w)

def ask {α : Type} (reply : Except Fault α) : Calling α := lift (reply.mapError .ec2)

/-- `contextlib.suppress(ClientError)` -/
def suppress (m : Calling Unit) : Calling Unit :=
  Py.tryExcept m (· == .ec2 .client) (return ())

/-- `c.terminate_instances` -/
def terminateInstances (r : Replies) (i : InstanceId) : Calling Unit := fun w =>
  match r.terminateInstances with
  | .ok () => (.ok (), { w with named := i :: w.named })
  | .error e => (.error (.ec2 e), w)

/-- `runner.terminate` -/
def terminate (r : Replies) (i : InstanceId) : Calling Unit := do
  suppress (terminateInstances r i)
  let sirs ← Py.tryExcept (ask r.describeSpotInstanceRequests) (· == .ec2 .client) (return [])
  if sirs = [] then return ()
  suppress (ask r.cancelSpotInstanceRequests)

/-! ## `HttpServer` -/

/-- `stop`, once `iid` is set: what `terminate` raises becomes a warning. -/
def stop (r : Replies) (i : InstanceId) : Calling Unit :=
  Py.tryExcept (terminate r i) (fun _ => true) (return ())

/-- `runner.launch`, in the `n`-th zone. -/
def launchIn (r : Replies) (n : Nat) : Calling (InstanceId × Zone) := fun w =>
  match r.launch n with
  | .ok (i, zone) => (.ok (i, zone), { w with launched := i :: w.launched })
  | .error e => (.error e, w)

/-- `(ClientError, SystemExit)` -/
def Raised.notProvided : Raised → Bool
  | .ec2 .client | .systemExit _ => true
  | _ => false

/-- One zone after the other. -/
def launchFrom (r : Replies) : Nat → List Zone → Calling (InstanceId × Zone)
  | _, [] => Py.raise
    (.systemExit "spot requested but not provided: no zone would launch the server")
  | n, _ :: rest => Py.tryExcept (launchIn r n) Raised.notProvided (launchFrom r (n + 1) rest)

/-- `READY_S` -/
def readyS : Nat := 600

/-- `SERVER READY ip=([\d.]+)` -/
def serverReady : Regex := .seqs [.text "SERVER READY ip=", .group (.plus B.digitOrPoint)]

def serverFailed : Regex := .text "SERVER FAILED"

/-- The longest reading so far; one that is refused is empty. -/
def Replies.text (r : Replies) (n : Nat) (text : List Char) : List Char :=
  let got := match r.console n with
    | .ok out => out.getD []
    | .error _ => []
  if text.length < got.length then got else text

/-- The loop, from its `n`-th turn at the second `now`: the address the server reports. -/
def awaitReady (r : Replies) (n now : Nat) (text : List Char) : Option (List Char) :=
  if _h : now < readyS then
    let text := r.text n text
    match (serverReady B).group1 text with
    | some ip => some ip
    | none =>
      if serverFailed.found text then none else awaitReady r (n + 1) (now + 10 + r.turn n) text
  else none
termination_by readyS - now
decreasing_by omega

/-- `start`. Whatever it raises, `iid` is not set any more when the process exits. -/
def start (r : Replies) : Calling (InstanceId × Zone × List Char) := do
  let zones ← lift r.zones
  let (i, zone) ← launchFrom r 0 zones
  match awaitReady B r 0 0 [] with
  | some ip => return (i, zone, ip)
  | none =>
    stop r i
    Py.raise (.systemExit "nginx server never became ready")

/-! ## The commands -/

/-- `live`: any failure is `False`. -/
def Replies.live (r : Replies) : Bool :=
  match r.describeInstances with
  | .ok ((name :: _) :: _) => name == "pending" || name == "running"
  | _ => false

def load : Calling (Option Record) := fun w => (.ok w.record, w)

def write (s : Record) : Calling Unit := fun w => (.ok (), { w with record := some s })

def unlink : Calling Unit := fun w => (.ok (), { w with record := none })

def cmdStart (a : Args) (r : Replies) : Calling Nat := do
  let old ← load
  if old.isSome && r.live then return 1
  let (i, zone, ip) ← start B r
  write { iid := i, ip := ip, zone := zone, type := a.type, size := a.size }
  return 0

/-- `cmd_status` prints the record, and whether its server is live. -/
def cmdStatus : Calling Nat := do
  let s ← load
  return if s.isSome then 0 else 1

def cmdStop (r : Replies) : Calling Nat := do
  match ← load with
  | none => return 1
  | some s =>
    terminate r s.iid
    unlink
    return 0

inductive Command
  | start (a : Args)
  | status
  | stop

structure Event where
  command : Command
  replies : Replies

def Event.run (e : Event) : Calling Nat :=
  match e.command with
  | .start a => cmdStart B a e.replies
  | .status => cmdStatus
  | .stop => cmdStop e.replies

/-- No server had been launched by a `start`. -/
def World.init (record : Option Record) : World :=
  { record := record, launched := [], named := [] }

/-- EC2 does not give an id twice. -/
def Event.Fresh (e : Event) (w : World) : Prop :=
  ∀ n i zone, e.replies.launch n = .ok (i, zone) →
    i ∉ w.launched ∧ i ∉ w.named ∧ ∀ s, w.record = some s → s.iid ≠ i

/-- One command, however it ends. -/
def Step (w : World) (e : Event) (w' : World) : Prop := e.Fresh w ∧ w' = (e.run B w).2

end NginxServer
