import MiniosvCtrl.Runner.Spot

/-!
# `runner.launch`, by the requests it makes

`launch` once more, as what it sends: the `dict`s are objects that a name refers to, so that a
change to one is seen through every name, and each `run_instances` is kept with its reply.

* `State` — the objects, and the requests made so far
* `spotSubnets`, `launchSpot`, `launch`
* `Kwargs.run`, `replies` — how `Runner.launch` sees the same
-/

namespace Launch

open Ec2 Runner

/-- `InstanceMarketOptions` -/
structure MarketOptions where
  marketType : String
  spotInstanceType : String
  instanceInterruptionBehavior : String
  deriving DecidableEq, Repr

def oneTime : MarketOptions :=
  { marketType := "spot"
    spotInstanceType := "one-time"
    instanceInterruptionBehavior := "terminate" }

/-- The keywords of `run_instances`. -/
structure Kwargs where
  subnetId : Option SubnetId
  marketOptions : Option MarketOptions
  /-- Any other, with its value. -/
  others : List (String × String)
  deriving DecidableEq, Repr

/-- The spot options. -/
def Kwargs.spot (k : Kwargs) : Bool := k.marketOptions == some oneTime

/-- An object's place. -/
abbrev Ref := Nat

/-- A `run_instances`, as it was sent. -/
structure Request where
  kwargs : Kwargs
  reply : Except ClientError InstanceId

def Request.refused (r : Request) : Bool := !r.reply.isOk

structure State where
  objects : List Kwargs
  requests : List Request

namespace State

def get (s : State) (r : Ref) : Kwargs := s.objects.getD r ⟨none, none, []⟩

/-- `dict(…)`: a new object. -/
def alloc (s : State) (k : Kwargs) : Ref × State :=
  (s.objects.length, { s with objects := s.objects ++ [k] })

/-- An item of an object is assigned. -/
def update (s : State) (r : Ref) (f : Kwargs → Kwargs) : State :=
  { s with objects := s.objects.set r (f (s.get r)) }

end State

/-- What `describe_subnets` answers, for the subnet and for the defaults of its VPC. -/
structure Vpc where
  desc : Subnet
  others : List Subnet

/-- The given subnet's zone first, then the other zones of its VPC by name. -/
def spotSubnets (v : Vpc) : Option SubnetId → List (Option SubnetId × Zone)
  | none => [(none, "the default zone")]
  | some id =>
    (some id, v.desc.zone) ::
      ((v.others.filter fun s => s.id != id).mergeSort fun s t => decide (s.zone ≤ t.zone)).map
        fun s => (some s.id, s.zone)

section

-- What EC2 answers to the `n`-th request.
variable (replies : Nat → Except ClientError InstanceId)

/-- `c.run_instances(**kwargs)` -/
def runInstances (r : Ref) (s : State) : Except ClientError InstanceId × State :=
  let reply := replies s.requests.length
  (reply, { s with requests := s.requests ++ [⟨s.get r, reply⟩] })

/-- The loop over the zones; `last` is the latest refusal. -/
def launchSpot : List (Option SubnetId × Zone) → Ref → Option ClientError → State →
    Except (Option ClientError) (InstanceId × Zone) × State
  | [], _, last, s => (.error last, s)
  | (subnet, zone) :: rest, spot, _, s =>
    let s := if subnet.isSome then s.update spot ({ · with subnetId := subnet }) else s
    match runInstances replies spot s with
    | (.ok i, s) => (.ok (i, zone), s)
    | (.error e, s) => launchSpot rest spot (some e) s

def launchOnDemand (r : Ref) (zone : Zone) (s : State) :
    Except LaunchError (InstanceId × Market × Zone) × State :=
  match runInstances replies r s with
  | (.ok i, s) => (.ok (i, .onDemand, zone), s)
  | (.error e, s) => (.error (.client e), s)

/-- From `if market == "on-demand"` on; leaked spot requests are swept without a launch. -/
def launchIn (zones : List (Option SubnetId × Zone)) (first : Zone) (runKwargs : Ref)
    (market : Market) (s : State) : Except LaunchError (InstanceId × Market × Zone) × State :=
  if market = .onDemand then launchOnDemand replies runKwargs first s
  else
    let (spot, s) := s.alloc { s.get runKwargs with marketOptions := some oneTime }
    match launchSpot replies zones spot none s with
    | (.ok (i, zone), s) => (.ok (i, .spot, zone), s)
    | (.error last, s) =>
      if market = .spot then (.error (.spotRefused last), s)
      else launchOnDemand replies runKwargs first s

def launch (v : Vpc) (runKwargs : Ref) (market : Market) (zone : Option Zone) (s : State) :
    Except LaunchError (InstanceId × Market × Zone) × State :=
  let zones := spotSubnets v (s.get runKwargs).subnetId
  match zone with
  | none => launchIn replies zones (zones.head?.elim "" Prod.snd) runKwargs market s
  | some pin =>
    match zones.filter fun z => z.2 == pin with
    | [] => (.error .index, s)
    | first :: rest =>
      let (runKwargs, s) := s.alloc { s.get runKwargs with subnetId := first.1 }
      launchIn replies (first :: rest) first.2 runKwargs market s

end

/-! ## The other model -/

/-- The same keywords, to `Runner.launch`. -/
def Kwargs.run (k : Kwargs) : RunKwargs := ⟨k.subnetId, k.marketOptions.isSome⟩

/-- The account's answers to `run_instances` from now on, until one launches. -/
def replies (faults : Nat → Option ClientError) (w : World) (n : Nat) :
    Except ClientError InstanceId :=
  match faults (w.calls + n) with
  | some e => .error e
  | none => .ok w.account.nextInstance

end Launch
