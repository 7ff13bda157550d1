import MiniosvCtrl.Ec2.Api
import MiniosvCtrl.Infra.Regex

/-!
# `Runner.sweep`: what a queue takes down when it ends

The instances that carry one of the drivers' tags and whose ids stand in the logs are terminated;
the account's images that are named as `aws-deploy.py` names them are deregistered, and their
snapshots deleted. Both only from the queue's window on.

* `launched` — the instance ids in the logs
* `terminate`, `deregisterAll`, `sweep` — each call may be refused
* `Owners` — what the queue's own runs created
-/

namespace CleanUp

open Infra Ec2

/-- `i-…`, `ami-…`, `snap-…` -/
abbrev Id := String

structure Instance where
  id : Id
  /-- The tag `Name`. -/
  name : String
  state : InstanceState
  launchTime : Int
  deriving DecidableEq, Repr

structure SpotRequest where
  id : Id
  holds : Bool
  instanceId : Option Id
  deriving DecidableEq, Repr

structure Image where
  id : Id
  name : String
  /-- `Owners=["self"]` -/
  self : Bool
  creationDate : Int
  /-- `BlockDeviceMappings`, those with a snapshot. -/
  snapshots : List Id
  deriving DecidableEq, Repr

structure Account where
  instances : List Instance
  requests : List SpotRequest
  images : List Image
  snapshots : List Id
  deriving DecidableEq, Repr

/-- The account, and how many calls have been made. -/
structure World where
  account : Account
  calls : Nat

/-! ## Which are looked for -/

/-- `OUR_TAGS`, as the filter reads them. -/
def ourTag (name : String) : Bool :=
  "miniosv-".toList.isPrefixOf name.toList ||
    ["linux-s3-bench", "duckdb-linux-bench", "anyblob-bench", "duckdb-anyblob-bench"].contains name

/-- `our_instances(since)` -/
def ourInstance (since : Int) (i : Instance) : Bool :=
  ourTag i.name && (i.state == .pending || i.state == .running) && decide (since ≤ i.launchTime)

/-- `Owners=["self"]`, with `name` as `miniosv-*`. -/
def deployed (im : Image) : Bool := im.self && "miniosv-".toList.isPrefixOf im.name.toList

/-- A file that `launched` comes to. -/
structure LogFile where
  /-- It is the queue's own, not one of `results/*/logs`. -/
  inQueue : Bool
  /-- `none`: `stat` raises. -/
  mtime : Option Int
  /-- `none`: it cannot be read. -/
  text : Option (List Char)
  deriving DecidableEq, Repr

/-- `[0-9a-f]` -/
def hexDigit (c : Char) : Bool := c.isDigit || ('a' ≤ c && c ≤ 'f')

/-- `Instance running: (i-[0-9a-f]+)` -/
def running : Regex :=
  .seqs [.text "Instance running: ", .group (.seq (.text "i-") (.plus hexDigit))]

def LogFile.ids (f : LogFile) : List Id :=
  match f.text with
  | some t => (running.findAll t).map String.ofList
  | none => []

/-- `launched`, from the instant `since` on; `none`: a log under `results` has no `stat`. -/
def launched (since : Int) (files : List LogFile) : Option (List Id) :=
  if files.any (fun f => !f.inQueue && f.mtime.isNone) then none
  else some ((files.filter fun f => f.inQueue || f.mtime.any (since ≤ ·)).flatMap LogFile.ids)

/-! ## Calls -/

namespace World

def tick (w : World) : World := { w with calls := w.calls + 1 }

end World

namespace Account

def shutDown (a : Account) (ids : List Id) : Account :=
  { a with
    instances := a.instances.map fun i =>
      if i.id ∈ ids then { i with state := i.state.shut } else i }

def cancel (a : Account) (ids : List Id) : Account :=
  { a with
    requests := a.requests.map fun r => if r.id ∈ ids then { r with holds := false } else r }

def deregister (a : Account) (id : Id) : Account :=
  { a with images := a.images.filter (·.id ≠ id) }

def deleteSnapshot (a : Account) (id : Id) : Account :=
  { a with snapshots := a.snapshots.filter (· ≠ id) }

end Account

variable (faults : Nat → Option Fault)

/-- A call that changes the account, unless it is refused. -/
def change (f : Account → Account) (w : World) : Except Fault Unit × World :=
  match faults w.calls with
  | some e => (.error e, w.tick)
  | none => (.ok (), { w.tick with account := f w.account })

/-- A call that reads it. -/
def ask {α : Type} (f : Account → α) (w : World) : Except Fault α × World :=
  match faults w.calls with
  | some e => (.error e, w.tick)
  | none => (.ok (f w.account), w.tick)

/-- `with contextlib.suppress(ClientError)` -/
def suppressed (r : Except Fault Unit × World) : Except Fault Unit × World :=
  match r with
  | (.error .client, w) => (.ok (), w)
  | r => r

/-- The requests to cancel: none if they cannot be listed. -/
def spotRequests (ids : List Id) (w : World) : Except Fault (List Id) × World :=
  match ask faults (fun a => (a.requests.filter fun r =>
      r.instanceId.any (· ∈ ids) && r.holds).map SpotRequest.id) w with
  | (.error .client, w) => (.ok [], w)
  | r => r

/-- `runner.terminate` -/
def terminate (ids : List Id) (w : World) : Except Fault Unit × World :=
  match suppressed (change faults (·.shutDown ids) w) with
  | (.error e, w) => (.error e, w)
  | (.ok (), w) =>
    match spotRequests faults ids w with
    | (.error e, w) => (.error e, w)
    | (.ok sirs, w) =>
      if sirs = [] then (.ok (), w) else suppressed (change faults (·.cancel sirs) w)

/-- The snapshots of one image. -/
def deleteAll : List Id → World → Except Fault Unit × World
  | [], w => (.ok (), w)
  | snap :: rest, w =>
    match suppressed (change faults (·.deleteSnapshot snap) w) with
    | (.error e, w) => (.error e, w)
    | (.ok (), w) => deleteAll rest w

def deregisterAll (since : Int) : List Image → World → Except Fault Unit × World
  | [], w => (.ok (), w)
  | im :: rest, w =>
    if im.creationDate < since then deregisterAll since rest w
    else
      match change faults (·.deregister im.id) w with
      | (.error e, w) => (.error e, w)
      | (.ok (), w) =>
        match deleteAll faults im.snapshots w with
        | (.error e, w) => (.error e, w)
        | (.ok (), w) => deregisterAll since rest w

/-- The instances, by the ids in the logs. -/
def sweepInstances (since : Int) (files : List LogFile) (w : World) :
    Except Fault (Option Unit) × World :=
  match ask faults (fun a => a.instances.filter (ourInstance since)) w with
  | (.error e, w) => (.error e, w)
  | (.ok up, w) =>
    match launched since files with
    | none => (.ok none, w)
    | some mine =>
      let ids := (up.map Instance.id).filter (· ∈ mine)
      if ids = [] then (.ok (some ()), w)
      else
        match terminate faults ids w with
        | (.error e, w) => (.error e, w)
        | (.ok (), w) => (.ok (some ()), w)

/-- The images, by their names. -/
def sweepImages (since : Int) (w : World) : World :=
  match ask faults (fun a => a.images.filter deployed) w with
  | (.error _, w) => w
  | (.ok imgs, w) => (deregisterAll faults since imgs w).2

/-- `sweep`, of a queue that was started at `started`: a call that is refused ends it. -/
def sweep (started : Int) (files : List LogFile) (w : World) : World :=
  let since := started - 60
  match sweepInstances faults since files w with
  | (.ok (some ()), w) => sweepImages faults since w
  | (_, w) => w

/-! ## Whose they are -/

/-- What the queue's own runs created. -/
structure Owners where
  instances : Id → Prop
  images : Id → Prop
  snapshots : Id → Prop

/-- Whatever is another's is as it was. -/
structure Owners.Spared (own : Owners) (a a' : Account) : Prop where
  instances : ∀ i ∈ a.instances, ¬ own.instances i.id → i ∈ a'.instances
  images : ∀ im ∈ a.images, ¬ own.images im.id → im ∈ a'.images
  snapshots : ∀ s ∈ a.snapshots, ¬ own.snapshots s → s ∈ a'.snapshots

end CleanUp
