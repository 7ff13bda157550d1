import MiniosvCtrl.Server.NginxServer

/-!
# The check of a server that is already there

Before a run dials a server that it did not launch, `verify_external` compares what it was told
with the record and with what EC2 says of the recorded instance.

* `verifyExternal` — the check
-/

namespace NginxServer

open Ec2

/-- What `describe_instances` says of an instance. -/
structure Described where
  state : String
  privateIpAddress : Option (List Char)
  zone : Zone

/-- The ways in which the check exits. -/
inductive Refused
  /-- `--target-ip … is not an address` -/
  | notAnAddress
  /-- `--target-ip … is private but no long-living server is recorded.` -/
  | notRecorded
  /-- `cannot read the recorded server …` -/
  | unreadable (i : InstanceId)
  /-- `the recorded nginx … is …, not running` -/
  | notRunning (i : InstanceId) (state : String)
  /-- `--target-ip … is not … (that instance is …)` -/
  | otherAddress (i : InstanceId) (real : Option (List Char))
  /-- `BENCH_ZONE is unset; … is in …` -/
  | zoneUnset (i : InstanceId) (real : Zone)
  /-- `BENCH_ZONE=… but … is in …` -/
  | otherZone (i : InstanceId) (real : Zone)
  deriving DecidableEq

/--
`verify_external`. `isPrivate` is `ipaddress.ip_address(target_ip).is_private`, or `none` for a
`ValueError`; `describe` fails for whatever the request raises.
-/
def verifyExternal (isPrivate : List Char → Option Bool)
    (describe : InstanceId → Except Fault Described) (target : List Char) (zone : Option Zone)
    (record : Option Record) : Except Refused Unit :=
  if target = [] then .ok ()
  else
    match isPrivate target with
    | none => .error .notAnAddress
    | some false => .ok ()
    | some true =>
      match record with
      | none => .error .notRecorded
      | some s =>
        match describe s.iid with
        | .error _ => .error (.unreadable s.iid)
        | .ok d =>
          if d.state ≠ "running" then .error (.notRunning s.iid d.state)
          else if d.privateIpAddress ≠ some target then
            .error (.otherAddress s.iid d.privateIpAddress)
          else if zone.getD "" = "" then .error (.zoneUnset s.iid d.zone)
          else if zone ≠ some d.zone then .error (.otherZone s.iid d.zone)
          else .ok ()

end NginxServer
