import Mathlib.Data.List.Nodup

/-!
# The EC2 account

What the drivers see of EC2: instances, one-time spot requests and subnets. Every API call is
numbered, and `faults n` says whether call `n` is refused with a `ClientError` (throttling, no
capacity, …). A call that names an unknown instance is refused as a whole, as EC2 does.

`World` adds what no API call returns but the properties speak of: the instances that a
successful `terminate_instances` named, and every `cancel_spot_instance_requests` issued, with
the account as it was at that moment.
-/

namespace Ec2

/-- `i-0123…`. Only equality matters. -/
abbrev InstanceId := Nat

/-- `sir-…`. -/
abbrev RequestId := Nat

abbrev SubnetId := String

/-- An availability zone, `eu-north-1b`. -/
abbrev Zone := String

inductive InstanceState
  | pending | running | stopping | stopped | shuttingDown | terminated
  deriving DecidableEq, Repr

inductive RequestState
  | opened | active | closed | cancelled | failed
  deriving DecidableEq, Repr

structure SpotRequest where
  id : RequestId
  state : RequestState
  /-- Absent while the request is still being fulfilled. -/
  instanceId : Option InstanceId
  deriving DecidableEq, Repr

structure Subnet where
  id : SubnetId
  vpc : String
  zone : Zone
  defaultForAz : Bool
  deriving DecidableEq, Repr

structure ClientError where
  code : String
  message : String
  deriving DecidableEq, Repr

/-- What a refused call raises: a `ClientError`, or any other error of botocore's. -/
inductive Fault
  | client
  | botocore
  deriving DecidableEq, Repr

/-- The account. Request ids are unique, and new ones are given out in order. -/
structure Account where
  /-- `none` when EC2 has no record of the id, or has forgotten it. -/
  instances : InstanceId → Option InstanceState
  requests : List SpotRequest
  subnets : List Subnet
  nextInstance : InstanceId
  nextRequest : RequestId
  requests_lt : ∀ r ∈ requests, r.id < nextRequest
  requests_nodup : (requests.map SpotRequest.id).Nodup

/-- The request still counts against the spot limit. -/
def SpotRequest.holds (r : SpotRequest) : Bool :=
  r.state == .opened || r.state == .active

/-- The instance is terminated, on its way there, or forgotten by EC2. -/
def Account.Gone (a : Account) (i : InstanceId) : Prop :=
  a.instances i = none ∨ a.instances i = some .shuttingDown ∨ a.instances i = some .terminated

instance (a : Account) (i : InstanceId) : Decidable (a.Gone i) :=
  inferInstanceAs (Decidable (_ ∨ _ ∨ _))

/-- One `cancel_spot_instance_requests`, with what was the case when it was issued. -/
structure CancelCall where
  requests : List RequestId
  account : Account
  /-- The instances a successful `terminate_instances` had named by then. -/
  named : List InstanceId

structure World where
  account : Account
  /-- How many API calls have been made. -/
  calls : Nat
  named : List InstanceId
  cancels : List CancelCall

def World.tick (w : World) : World := { w with calls := w.calls + 1 }

@[simp] theorem World.tick_account (w : World) : w.tick.account = w.account := rfl
@[simp] theorem World.tick_calls (w : World) : w.tick.calls = w.calls + 1 := rfl
@[simp] theorem World.tick_named (w : World) : w.tick.named = w.named := rfl
@[simp] theorem World.tick_cancels (w : World) : w.tick.cancels = w.cancels := rfl

/-! ## Instances -/

/-- A terminated instance stays what it is, every other one shuts down. -/
def InstanceState.shut : InstanceState → InstanceState
  | .terminated => .terminated
  | _ => .shuttingDown

def Account.shutDown (a : Account) (ids : List InstanceId) : Account :=
  { a with
    instances := fun i => if i ∈ ids then (a.instances i).map InstanceState.shut
      else a.instances i }

@[simp] theorem Account.shutDown_requests (a : Account) (ids : List InstanceId) :
    (a.shutDown ids).requests = a.requests := rfl

def notFound : ClientError :=
  { code := "InvalidInstanceID.NotFound", message := "The instance ID does not exist" }

variable (faults : Nat → Option ClientError)

/-- `terminate_instances`. One unknown id refuses the whole call. -/
def terminateInstances (ids : List InstanceId) (w : World) : Except ClientError Unit × World :=
  match faults w.calls with
  | some e => (.error e, w.tick)
  | none =>
    if ids.any (fun i => (w.account.instances i).isNone) then (.error notFound, w.tick)
    else (.ok (), { w.tick with account := w.account.shutDown ids, named := ids ++ w.named })

/-- `describe_instances` of one id. -/
def describeInstance (i : InstanceId) (w : World) : Except ClientError InstanceState × World :=
  match faults w.calls with
  | some e => (.error e, w.tick)
  | none =>
    match w.account.instances i with
    | none => (.error notFound, w.tick)
    | some st => (.ok st, w.tick)

/-! ## Spot requests -/

/-- `describe_spot_instance_requests`, with the filter as a predicate. -/
def describeSpotInstanceRequests (p : SpotRequest → Bool) (w : World) :
    Except ClientError (List SpotRequest) × World :=
  match faults w.calls with
  | some e => (.error e, w.tick)
  | none => (.ok (w.account.requests.filter p), w.tick)

def SpotRequest.cancelIn (ids : List RequestId) (r : SpotRequest) : SpotRequest :=
  if r.id ∈ ids ∧ r.holds then { r with state := .cancelled } else r

@[simp] theorem SpotRequest.cancelIn_id (ids : List RequestId) (r : SpotRequest) :
    (r.cancelIn ids).id = r.id := by
  unfold SpotRequest.cancelIn
  split <;> rfl

def Account.cancel (a : Account) (ids : List RequestId) : Account :=
  { a with
    requests := a.requests.map (SpotRequest.cancelIn ids)
    requests_lt := by
      intro r hr
      obtain ⟨r₀, hr₀, rfl⟩ := List.mem_map.mp hr
      simpa using a.requests_lt r₀ hr₀
    requests_nodup := by
      have hid : (a.requests.map (SpotRequest.cancelIn ids)).map SpotRequest.id
          = a.requests.map SpotRequest.id := by
        rw [List.map_map]
        exact List.map_congr_left fun r _ => SpotRequest.cancelIn_id ids r
      rw [hid]
      exact a.requests_nodup }

/-- A cancel of `ids`, issued now. -/
def World.cancelCall (w : World) (ids : List RequestId) : CancelCall :=
  { requests := ids, account := w.account, named := w.named }

/-- `cancel_spot_instance_requests`. It is issued whether or not EC2 then refuses it. -/
def cancelSpotInstanceRequests (ids : List RequestId) (w : World) :
    Except ClientError Unit × World :=
  let cancels := w.cancels ++ [w.cancelCall ids]
  match faults w.calls with
  | some e => (.error e, { w.tick with cancels := cancels })
  | none => (.ok (), { w.tick with account := w.account.cancel ids, cancels := cancels })

theorem cancelSpotInstanceRequests_cancels (ids : List RequestId) (w : World) :
    (cancelSpotInstanceRequests faults ids w).2.cancels = w.cancels ++ [w.cancelCall ids] := by
  unfold cancelSpotInstanceRequests
  split <;> rfl

/-! ## Launching -/

/-- The keywords of `run_instances` that decide where and how an instance is launched. -/
structure RunKwargs where
  subnetId : Option SubnetId
  /-- Whether `InstanceMarketOptions` asks for a one-time spot instance. -/
  spot : Bool
  deriving DecidableEq, Repr

def Account.addInstance (a : Account) : Account :=
  { a with
    instances := fun i => if i = a.nextInstance then some .pending else a.instances i
    nextInstance := a.nextInstance + 1 }

/-- A spot launch leaves an active request beside the instance. -/
def Account.addRequest (a : Account) (i : InstanceId) : Account :=
  { a with
    requests := a.requests ++ [{ id := a.nextRequest, state := .active, instanceId := some i }]
    nextRequest := a.nextRequest + 1
    requests_lt := by
      intro r hr
      rcases List.mem_append.mp hr with hr | hr
      · exact Nat.lt_succ_of_lt (a.requests_lt r hr)
      · rw [List.mem_singleton] at hr
        subst hr
        exact Nat.lt_succ_self _
    requests_nodup := by
      rw [List.map_append, List.nodup_append]
      refine ⟨a.requests_nodup, by simp, ?_⟩
      intro x hx y hy heq
      obtain ⟨r, hr, rfl⟩ := List.mem_map.mp hx
      simp only [List.map_cons, List.map_nil, List.mem_singleton] at hy
      rw [hy] at heq
      exact Nat.ne_of_lt (a.requests_lt r hr) heq }

def runInstances (kw : RunKwargs) (w : World) : Except ClientError InstanceId × World :=
  match faults w.calls with
  | some e => (.error e, w.tick)
  | none =>
    let i := w.account.nextInstance
    let launched := w.account.addInstance
    (.ok i, { w.tick with account := if kw.spot then launched.addRequest i else launched })

/-- `describe_subnets`, with the ids or the filter as a predicate. -/
def describeSubnets (p : Subnet → Bool) (w : World) : Except ClientError (List Subnet) × World :=
  match faults w.calls with
  | some e => (.error e, w.tick)
  | none => (.ok (w.account.subnets.filter p), w.tick)

end Ec2
