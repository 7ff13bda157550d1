import Mathlib.Data.List.Sort
import MiniosvCtrl.Ec2.Api

/-!
# Launching, terminating and spot requests

`runner.launch`, `runner.terminate` and `runner.sweep_spot_requests`. Each takes the account
and returns it as the calls left it; a `ClientError` that the code suppresses leaves no trace
but the call it used up.
-/

namespace Runner

open Ec2

inductive Market
  | onDemand | spot | spotOrOnDemand
  deriving DecidableEq, Repr

/-- How `launch` raises. -/
inductive LaunchError
  | client (e : ClientError)
  /-- `zones[0]` of an empty list: no zone of the VPC is the pinned one. -/
  | index
  /-- `spot requested but not provided`, with the last refusal. -/
  | spotRefused (last : Option ClientError)
  deriving DecidableEq, Repr

variable (faults : Nat → Option ClientError)

/-! ## Launching -/

def subnetNotFound : ClientError :=
  { code := "InvalidSubnetID.NotFound", message := "The subnet ID does not exist" }

/-- The given subnet's zone first, then the other zones of its VPC by name. -/
def spotSubnets (subnetId : Option SubnetId) (w : World) :
    Except ClientError (List (Option SubnetId × Zone)) × World :=
  match subnetId with
  | none => (.ok [(none, "the default zone")], w)
  | some id =>
    match describeSubnets faults (fun s => s.id == id) w with
    | (.error e, w) => (.error e, w)
    | (.ok [], w) => (.error subnetNotFound, w)
    | (.ok (desc :: _), w) =>
      match describeSubnets faults (fun s => s.vpc == desc.vpc && s.defaultForAz) w with
      | (.error e, w) => (.error e, w)
      | (.ok others, w) =>
        let rest := (others.filter (fun s => s.id != id)).mergeSort
          (fun s t => decide (s.zone ≤ t.zone))
        (.ok ((some id, desc.zone) :: rest.map (fun s => (some s.id, s.zone))), w)

/-- A spot request in one zone after another; `last` is the latest refusal. -/
def launchSpot : List (Option SubnetId × Zone) → RunKwargs → Option ClientError → World →
    Except (Option ClientError) (InstanceId × Zone) × World
  | [], _, last, w => (.error last, w)
  | (subnet, zone) :: rest, kw, _, w =>
    let kw := if subnet.isSome then { kw with subnetId := subnet } else kw
    match runInstances faults kw w with
    | (.ok i, w) => (.ok (i, zone), w)
    | (.error e, w) => launchSpot rest kw (some e) w

def launchOnDemand (kw : RunKwargs) (zone : Zone) (w : World) :
    Except LaunchError (InstanceId × Market × Zone) × World :=
  match runInstances faults kw w with
  | (.ok i, w) => (.ok (i, .onDemand, zone), w)
  | (.error e, w) => (.error (.client e), w)

/-! ## Spot requests -/

/--
The requests whose instance is gone, found by asking for one instance after another.
A refused `describe_instances` is read as "instance forgotten entirely".
-/
def staleRequests : List SpotRequest → World → List RequestId × World
  | [], w => ([], w)
  | r :: rest, w =>
    match r.instanceId with
    | none => staleRequests rest w
    | some i =>
      match describeInstance faults i w with
      | (.ok st, w) =>
        let found := staleRequests rest w
        if st = .terminated ∨ st = .shuttingDown then (r.id :: found.1, found.2) else found
      | (.error _, w) =>
        let found := staleRequests rest w
        (r.id :: found.1, found.2)

/-- Cancel active spot requests whose instance is gone, and say how many. -/
def sweepSpotRequests (w : World) : Nat × World :=
  match describeSpotInstanceRequests faults SpotRequest.holds w with
  | (.error _, w) => (0, w)
  | (.ok reqs, w) =>
    let found := staleRequests faults reqs w
    if found.1 = [] then (0, found.2)
    else (found.1.length, (cancelSpotInstanceRequests faults found.1 found.2).2)

/--
The candidate zones are known, `first` among them. On-demand takes the first; spot is swept
and then tried in every zone before the verdict.
-/
def launchIn (zones : List (Option SubnetId × Zone)) (first : Zone) (kw : RunKwargs)
    (market : Market) (w : World) : Except LaunchError (InstanceId × Market × Zone) × World :=
  if market = .onDemand then launchOnDemand faults kw first w
  else
    match launchSpot faults zones { kw with spot := true } none (sweepSpotRequests faults w).2 with
    | (.ok (i, zone), w) => (.ok (i, .spot, zone), w)
    | (.error last, w) =>
      if market = .spot then (.error (.spotRefused last), w) else launchOnDemand faults kw first w

/-- `run_instances`, on the market asked for, and where it was found. -/
def launch (kw : RunKwargs) (market : Market) (zone : Option Zone) (w : World) :
    Except LaunchError (InstanceId × Market × Zone) × World :=
  match spotSubnets faults kw.subnetId w with
  | (.error e, w) => (.error (.client e), w)
  | (.ok all, w) =>
    match all.filter (fun z => zone.all (fun pin => z.2 == pin)) with
    | [] => (.error .index, w)
    | first :: rest =>
      let kw := if zone.isSome then { kw with subnetId := first.1 } else kw
      launchIn faults (first :: rest) first.2 kw market w

/-! ## Terminating -/

/-- `terminate`, once the absent ids are dropped and at least one is left. -/
def terminateAll (ids : List InstanceId) (w : World) : World :=
  let w := (terminateInstances faults ids w).2
  match describeSpotInstanceRequests faults
      (fun r => r.instanceId.any (fun i => decide (i ∈ ids))) w with
  | (.error _, w) => w
  | (.ok reqs, w) =>
    let sirs := (reqs.filter SpotRequest.holds).map SpotRequest.id
    if sirs = [] then w else (cancelSpotInstanceRequests faults sirs w).2

/-- Terminate instances and cancel the spot requests that created them. -/
def terminate (ids : List (Option InstanceId)) (w : World) : World :=
  if ids.filterMap id = [] then w else terminateAll faults (ids.filterMap id) w

/-! ## Any sequence of calls -/

/-- An instance moves on by itself: it boots, powers off or is reclaimed, and is forgotten. -/
def InstanceState.age : InstanceState → Option InstanceState
  | .pending => some .running
  | .running => some .shuttingDown
  | .stopping => some .stopped
  | .stopped => some .shuttingDown
  | .shuttingDown => some .terminated
  | .terminated => none

def ageInstance (i : InstanceId) (w : World) : World :=
  { w with
    account := { w.account with
      instances := fun j => if j = i then (w.account.instances j).bind InstanceState.age
        else w.account.instances j } }

inductive Op
  | launch (kw : RunKwargs) (market : Market) (zone : Option Zone)
  | terminate (ids : List (Option InstanceId))
  | sweepSpotRequests
  | age (i : InstanceId)

def Op.apply : Op → World → World
  | .launch kw market zone, w => (Runner.launch faults kw market zone w).2
  | .terminate ids, w => Runner.terminate faults ids w
  | .sweepSpotRequests, w => (Runner.sweepSpotRequests faults w).2
  | .age i, w => ageInstance i w

def Step (w : World) (op : Op) (w' : World) : Prop :=
  w' = op.apply faults w

end Runner
