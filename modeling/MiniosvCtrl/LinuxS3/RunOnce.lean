import MiniosvCtrl.Ec2.Api
import MiniosvCtrl.Infra.Python

/-!
# `run_once` on the Linux launch path

linux-s3 and duckdb-linux, and the benches that inherit from linux-s3, launch a stock machine,
read its console until the client's verdict stands on it or the time is up, and take the machine
down in a `finally` clause. Any call may be refused.

* `Replies` — what the calls of one `run_once` answer
* `interrupted`, `terminate`, `poll`
* `Driver` — what the two `run_once` differ in
* `runOnce` — with the calls it makes
-/

namespace RunOnce

open Infra Ec2

/-- What a call answers, or what it raises. -/
abbrev Reply (α : Type) : Type := Except Fault α

inductive Raised
  | ec2 (e : Fault)
  | index
  /-- `OSError`, of the log file. -/
  | os
  /-- `ValueError`, of a figure on the console. -/
  | value
  deriving DecidableEq, Repr

/-- The `Code` of an instance's `StateReason`, for each instance of each reservation. -/
abbrev Reservations := List (List (Option String))

/-- What the calls of one `run_once` answer. -/
structure Replies where
  /-- The `describe_instances` of `self.live()`. -/
  live : Reply (List InstanceId)
  launch : Except Raised InstanceId
  /-- The `Output` of the `n`-th `get_console_output`. -/
  console : Nat → Reply (Option (List Char))
  /-- Seconds that the `n`-th turn of the loop takes besides its `sleep`. -/
  turn : Nat → Nat
  /-- The `write_text` after the `n`-th reading, and the last one. -/
  write : Nat → Except Raised Unit
  writeLast : Except Raised Unit
  describeInstances : Reply Reservations
  terminateInstances : Reply Unit
  /-- The open and active requests of the instance. -/
  describeSpotInstanceRequests : Reply (List RequestId)
  cancelSpotInstanceRequests : Reply Unit

inductive Call
  | live
  | launch
  | getConsoleOutput (i : InstanceId)
  | describeInstances (i : InstanceId)
  /-- The call of `runner.terminate` itself. -/
  | terminate (ids : List InstanceId)
  | terminateInstances (ids : List InstanceId)
  | describeSpotInstanceRequests (ids : List InstanceId)
  | cancelSpotInstanceRequests (sirs : List RequestId)
  deriving DecidableEq, Repr

/-- A computation, with the calls made so far. -/
abbrev Calling (α : Type) : Type := Py (List Call) Raised α

variable {α : Type}

/-- Make a call. -/
def make (c : Call) (reply : Except Raised α) : Calling α := fun made => (reply, made ++ [c])

/-- The same, of EC2. -/
def makeEc2 (c : Call) (reply : Reply α) : Calling α := make c (reply.mapError Raised.ec2)

/-- What is no call, but may raise. -/
def lift (r : Except Raised α) : Calling α := fun made => (r, made)

/-! ## Taking the machine down -/

/-- `(ClientError, IndexError, KeyError)` -/
def Raised.lookedUp : Raised → Bool
  | .ec2 .client | .index => true
  | _ => false

/-- `r["Reservations"][0]["Instances"][0]` -/
def first (r : Reservations) : Except Raised (Option String) :=
  match r with
  | (code :: _) :: _ => .ok code
  | _ => .error .index

/-- Whether EC2 reclaimed a spot instance under a run. -/
def interrupted (r : Replies) (i : InstanceId) : Calling Bool :=
  Py.tryExcept
    (do
      let found ← makeEc2 (.describeInstances i) r.describeInstances
      let code ← lift (first found)
      return code == some "Server.SpotInstanceTermination")
    Raised.lookedUp (return false)

/-- `contextlib.suppress(ClientError)` -/
def suppress (m : Calling Unit) : Calling Unit :=
  Py.tryExcept m (· == .ec2 .client) (return ())

/-- `runner.terminate`, of ids none of which is empty. -/
def terminate (r : Replies) (ids : List InstanceId) : Calling Unit := do
  make (.terminate ids) (.ok ())
  if ids = [] then return ()
  suppress (makeEc2 (.terminateInstances ids) r.terminateInstances)
  let sirs ← Py.tryExcept
    (makeEc2 (.describeSpotInstanceRequests ids) r.describeSpotInstanceRequests)
    (· == .ec2 .client) (return [])
  if sirs = [] then return ()
  suppress (makeEc2 (.cancelSpotInstanceRequests sirs) r.cancelSpotInstanceRequests)

/-- The `finally` clause. -/
def takeDown (r : Replies) (i : InstanceId) : Calling Bool := do
  let reclaimed ← interrupted r i
  terminate r [i]
  return reclaimed

/-! ## The run -/

/-- `^(COMPLETE|INCOMPLETE):` -/
def ended : Regex :=
  .seqs [.bol, .group (.alt (.text "COMPLETE") (.text "INCOMPLETE")), .text ":"]

/-- What the drivers differ in. -/
structure Driver (α : Type) where
  /-- Seconds between two readings of the console. -/
  interval : Nat
  interval_pos : 0 < interval
  maxVmSeconds : Nat
  /-- What is made of a reading. -/
  clean : List Char → List Char
  /-- The rows of the text, once the instance is known to be reclaimed or not. -/
  rows : List Char → Bool → Except Raised α

/-- `except Exception`: the console is not yet available. -/
def console (r : Replies) (i : InstanceId) (n : Nat) : Calling (List Char) :=
  Py.tryExcept
    (do return (← makeEc2 (.getConsoleOutput i) (r.console n)).getD [])
    (fun _ => true) (return [])

/-- The longest reading is kept, and written. -/
def keep (d : Driver α) (r : Replies) (n : Nat) (got text : List Char) : Calling (List Char) :=
  if text.length < got.length then do
    lift (r.write n)
    return d.clean got
  else return text

/-- The `n`-th turn of the loop, at the second `now`. -/
def poll (d : Driver α) (r : Replies) (i : InstanceId) (n now : Nat) (text : List Char) :
    Calling (List Char) :=
  if _h : now < d.maxVmSeconds then do
    let got ← console r i n
    let text ← keep d r n got text
    if ended.found text then return text
    else poll d r i (n + 1) (now + d.interval + r.turn n) text
  else return text
termination_by d.maxVmSeconds - now
decreasing_by
  have := d.interval_pos
  omega

/-- Everything below the launch: billing has started. -/
def afterLaunch (d : Driver α) (r : Replies) (i : InstanceId) : Calling α := do
  let (text, reclaimed) ← Py.tryFinally (poll d r i 0 0 []) (takeDown r i)
  lift r.writeLast
  lift (d.rows text reclaimed)

def runOnce (d : Driver α) (r : Replies) : Calling α := do
  let _ ← makeEc2 .live r.live
  let i ← make .launch r.launch
  afterLaunch d r i

end RunOnce
