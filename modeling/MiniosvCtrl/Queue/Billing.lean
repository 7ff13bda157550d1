import Mathlib.Logic.Function.Basic
import MiniosvCtrl.Ec2.Api

/-!
# Instances over a queue's run

The runner's children launch instances, and whoever ends first has to terminate them: a child
in its own `finally`, or `sweep`, which knows an instance only by the `Instance running:` line
in a log. Each step of a child and of the runner is one step here.

* a child requests one instance at a time, prints its line, and only then enters the `try`
  whose `finally` terminates it
* `end_child` kills a child wherever it is
* `main` comes to its verdict when no child runs, and sweeps only for `expired` and `stopped`

Every terminate call succeeds, and `describe_instances` lists every live instance.
-/

namespace Queue

open Ec2 (InstanceId)

/-- An `experiment.py` the runner started, with its driver. -/
abbrev ChildId := Nat

inductive ChildState
  | running | ended
  deriving DecidableEq, Repr

structure Launched where
  owner : ChildId
  /-- Its `Instance running:` line is in a log. -/
  printed : Bool
  /-- Terminated by its owner, or passed to `runner.terminate` by `sweep`. -/
  released : Bool
  deriving DecidableEq, Repr

/-- What `Runner.main` ends with. -/
inductive Verdict
  | done | failed | expired | stopped | credentials
  deriving DecidableEq, Repr

inductive MainPhase
  | working
  /-- Past `end_child`, before `sweep`. -/
  | sweeping (v : Verdict)
  | returned (v : Verdict)
  deriving DecidableEq, Repr

structure Bill where
  children : ChildId → Option ChildState
  instances : InstanceId → Option Launched
  /-- A child exited with a non-zero code. -/
  failed : Bool
  /-- `end_child` killed a child. -/
  killed : Bool
  phase : MainPhase

def Bill.init : Bill :=
  { children := fun _ => none, instances := fun _ => none, failed := false, killed := false,
    phase := .working }

namespace Bill

variable (s : Bill)

def Running (c : ChildId) : Prop := s.children c = some .running

/-- Every instance of child `c` has `p`. -/
def Each (c : ChildId) (p : Launched → Prop) : Prop :=
  ∀ i x, s.instances i = some x → x.owner = c → p x

def setChild (c : ChildId) (st : ChildState) : Bill :=
  { s with children := Function.update s.children c (some st) }

def setInstance (i : InstanceId) (x : Launched) : Bill :=
  { s with instances := Function.update s.instances i (some x) }

/-- `sweep`: of the live instances, those whose line was found. -/
def sweep : Bill :=
  { s with
    instances := fun i =>
      (s.instances i).map fun x => if x.printed then { x with released := true } else x }

end Bill

inductive BillAct
  | spawn (c : ChildId)
  | request (c : ChildId) (i : InstanceId)
  | print (c : ChildId) (i : InstanceId)
  | terminate (c : ChildId) (i : InstanceId)
  | finish (c : ChildId)
  | fail (c : ChildId)
  | kill (c : ChildId)
  | conclude (v : Verdict)
  | sweep
  deriving DecidableEq, Repr

/--
The verdicts that `main` may come to. Once a child was killed, some `run_one` returned `expired`
or `stopped`; among concurrent members the last refusal to go on wins, so `credentials` may
still be the verdict.
-/
def Bill.MayConclude (concurrent : Bool) (s : Bill) : Verdict → Prop
  | .done => s.killed = false
  | .failed => s.killed = false ∧ s.failed = true
  | .credentials =>
    s.killed = false ∧ s.failed = true ∨ concurrent = true ∧ (s.killed = true ∨ s.failed = true)
  | .expired | .stopped => True

inductive BillStep (concurrent : Bool) : Bill → BillAct → Bill → Prop
  | spawn {s : Bill} {c : ChildId} : s.phase = .working → s.children c = none →
      (concurrent = true ∨ (∀ c', ¬ s.Running c') ∧ s.killed = false) →
      BillStep concurrent s (.spawn c) (s.setChild c .running)
  | request {s : Bill} {c : ChildId} {i : InstanceId} : s.Running c → s.instances i = none →
      s.Each c (fun x => x.printed = true) →
      BillStep concurrent s (.request c i)
        (s.setInstance i { owner := c, printed := false, released := false })
  | print {s : Bill} {c : ChildId} {i : InstanceId} : s.Running c →
      s.instances i = some { owner := c, printed := false, released := false } →
      BillStep concurrent s (.print c i)
        (s.setInstance i { owner := c, printed := true, released := false })
  | terminate {s : Bill} {c : ChildId} {i : InstanceId} : s.Running c →
      s.instances i = some { owner := c, printed := true, released := false } →
      BillStep concurrent s (.terminate c i)
        (s.setInstance i { owner := c, printed := true, released := true })
  | finish {s : Bill} {c : ChildId} : s.Running c → s.Each c (fun x => x.released = true) →
      BillStep concurrent s (.finish c) (s.setChild c .ended)
  /-- An exception, a refused launch or an invalid row. The `finally` comes first. -/
  | fail {s : Bill} {c : ChildId} : s.Running c →
      s.Each c (fun x => x.printed = true → x.released = true) →
      BillStep concurrent s (.fail c) ({ s with failed := true }.setChild c .ended)
  /-- `end_child`, once the queue is stopped or past its deadline. -/
  | kill {s : Bill} {c : ChildId} : s.phase = .working → s.Running c →
      BillStep concurrent s (.kill c) ({ s with killed := true }.setChild c .ended)
  | conclude {s : Bill} {v : Verdict} : s.phase = .working → (∀ c, ¬ s.Running c) →
      s.MayConclude concurrent v →
      BillStep concurrent s (.conclude v)
        { s with
          phase := if v = .expired ∨ v = .stopped then .sweeping v else .returned v }
  | sweep {s : Bill} {v : Verdict} : s.phase = .sweeping v →
      BillStep concurrent s .sweep { s.sweep with phase := .returned v }

/-- Nothing is left billing: every instance was terminated or swept. -/
def Bill.NothingBilling (s : Bill) : Prop :=
  ∀ i x, s.instances i = some x → x.released = true

def Bill.Returned (s : Bill) : Prop := ∃ v, s.phase = .returned v

/--
The step leaves no instance behind: no child ends between launching an instance and printing
its line, and the verdict is `credentials` only with no instance up.
-/
def NoneLeft (s : Bill) : BillAct → Prop
  | .fail c | .kill c => s.Each c fun x => x.printed = true
  | .conclude .credentials => s.NothingBilling
  | _ => True

end Queue
