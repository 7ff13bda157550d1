import MiniosvCtrl.Runner.Launch
import MiniosvCtrl.Runner.Sweep

/-!
# Where the HTTP server is tried

The zones of the VPC in the order of `spot_ranked_zones`, and `HttpServer.start` up to the instance
it launches: a zone after the other, each pinned. `NginxServer.start` has the rest, and takes what
`launch` answers in each zone as given.

* `spotRankedZones` — by hand from `BENCH_ZONES`, else by spot placement score
* `launchServer` — the loop, by the requests it makes
-/

namespace HttpServer

open Ec2 Runner Launch

/-- What the placement calls answer. -/
structure Placement where
  /-- `ZoneId` and `ZoneName` -/
  zones : List (String × Zone)
  /-- `AvailabilityZoneId`, if there is one, and `Score` -/
  scores : List (Option String × Int)

/-- A `dict` of these items: the last one of a key counts. -/
def item {κ α : Type} [BEq κ] (l : List (κ × α)) (k : κ) : Option α := l.reverse.lookup k

namespace Placement

variable (p : Placement)

def byId (id : Option String) : Zone := (id.bind (item p.zones)).getD ""

/-- `score.get(z, 0)` -/
def score (z : Zone) : Int := (item (p.scores.map fun s => (p.byId s.1, s.2)) z).getD 0

/-- `names.sort(key=…)`, which is stable. -/
def sort (names : List Zone) : List Zone :=
  names.mergeSort fun a b => decide (-p.score a ≤ -p.score b)

end Placement

/-- `z in order`, of two texts. -/
def isIn (z order : String) : Bool := order.toList.tails.any fun t => z.toList.isPrefixOf t

/-- By hand: what the list names, then what its text does not hold. -/
def byHand (order : String) (names : List Zone) : List Zone :=
  (split order).filter (fun z => decide (z ∈ names)) ++ names.filter fun z => !isIn z order

/-- `names` are the VPC's zones, `order` is `BENCH_ZONES`; a `ClientError` of the placement calls
leaves the zones as they are. -/
def spotRankedZones (names : List Zone) (order : Option String)
    (placement : Except ClientError Placement) : List Zone :=
  let byScore :=
    match placement with
    | .ok p => p.sort names
    | .error _ => names
  match order with
  | none => byScore
  | some order => if order = "" then byScore else byHand order names

/-! ## `start` -/

inductive Raised
  /-- `IndexError` -/
  | index
  /-- `spot requested but not provided: no zone would launch the server` -/
  | noZone
  deriving DecidableEq, Repr

/-- `for zone in …`, with `kwargs` the object that every turn passes on. -/
def launchServer (answers : Nat → Except ClientError InstanceId) (v : Vpc) (kwargs : Ref)
    (market : Market) : List Zone → State → Except Raised (InstanceId × Market × Zone) × State
  | [], s => (.error .noZone, s)
  | zone :: rest, s =>
    match launch answers v kwargs market (some zone) s with
    | (.ok out, s) => (.ok out, s)
    | (.error .index, s) => (.error .index, s)
    | (.error (.client _), s) => launchServer answers v kwargs market rest s
    | (.error (.spotRefused _), s) => launchServer answers v kwargs market rest s

/-- `kwargs`, as `start` makes it. -/
def serverKwargs (subnetId : SubnetId) (others : List (String × String)) : Kwargs :=
  { subnetId := some subnetId, marketOptions := none, others := others }

/-- The VPC's zones. -/
def zoneNames (v : Vpc) (subnetId : SubnetId) : List Zone :=
  (spotSubnets v (some subnetId)).map Prod.snd

/-- `start`, up to the instance it waits for. -/
def start (answers : Nat → Except ClientError InstanceId) (v : Vpc) (subnetId : SubnetId)
    (others : List (String × String)) (market : Market) (order : Option String)
    (placement : Except ClientError Placement) :
    Except Raised (InstanceId × Market × Zone) × State :=
  launchServer answers v 0 market (spotRankedZones (zoneNames v subnetId) order placement)
    ⟨[serverKwargs subnetId others], []⟩

end HttpServer
