import Mathlib.Logic.Function.Basic
import MiniosvCtrl.Experiment.Main

/-!
# `Runner.main`, `run_group` and `run_one`, over the drivers they start

A queue runs its experiments (its arms) by calls of `run_one`, each of which starts `experiment.py`
until it succeeds, fails or the queue ends; `experiment.py` starts a driver for each point. The
calls stand in batches: a sequential queue has a batch for each arm, an interleaved one a batch for
each rep and place among the points, and then a batch for each arm that only plots.

* `Setup.batches` — the calls, in order
* `State` — the CSVs, the statuses, the calls to come and the children
* `Step` — a step of the runner or of a child
* `launches` — the runs that the drivers launched and recorded
-/

namespace Arms

open Infra Runner Experiment

/-! ## The calls -/

/-- An experiment of `state.json`. -/
structure Arm where
  file : File
  group : Nat
  /-- `a.reps or x["reps"]` -/
  reps : Nat

/-- `values` -/
def Arm.values (a : Arm) : List String := a.file.points.map fun p => (a.file.axisValue p).text

/-- What `submit` fixes. -/
structure Setup where
  arms : List Arm
  interleave : Bool
  concurrent : Bool
  /-- `"interleave": a.interleave or a.concurrent` -/
  interleave_of_concurrent : concurrent = true → interleave = true

namespace Setup

/-- A place in the list of experiments. -/
abbrev Index (q : Setup) := Fin q.arms.length

def arm (q : Setup) (i : q.Index) : Arm := q.arms.get i

def indices (q : Setup) : List q.Index := List.finRange q.arms.length

end Setup

/-- What `run_one` is called for. -/
inductive Pass
  /-- A whole experiment, in a sequential queue. -/
  | whole
  /-- `--only axis=value`, in `run_group`. -/
  | point (value : String)
  /-- The pass over the experiments that are done. -/
  | plots
  deriving DecidableEq, Repr

/-- A call of `run_one`. -/
structure Call (q : Setup) where
  arm : q.Index
  reps : Nat
  pass : Pass
  deriving DecidableEq

variable {q : Setup} {N : Numerals}

/-- `only` -/
def Call.only (c : Call q) : Option (Name × String) :=
  match c.pass with
  | .point value => some ((q.arm c.arm).file.axis, value)
  | _ => none

namespace Setup

/-- A sequential queue's call. -/
def whole (q : Setup) (i : q.Index) : Call q := ⟨i, (q.arm i).reps, .whole⟩

def plots (q : Setup) (i : q.Index) : Call q := ⟨i, (q.arm i).reps, .plots⟩

/-- The call for the `i`-th point of a member and rep `k`, if it has both. -/
def pointCall (q : Setup) (k i : Nat) (m : q.Index) : Option (Call q) :=
  if k ≤ (q.arm m).reps then
    ((q.arm m).values[i]?).map fun v => ⟨m, k, .point v⟩
  else none

def most (q : Setup) (members : List q.Index) : Nat :=
  members.foldr (fun m n => max (q.arm m).reps n) 0

def longest (q : Setup) (members : List q.Index) : Nat :=
  members.foldr (fun m n => max (q.arm m).values.length n) 0

/-- `run_group`: rep by rep, and within a rep point by point. -/
def groupBatches (q : Setup) (members : List q.Index) : List (List (Call q)) :=
  (List.range (q.most members)).flatMap fun k =>
    (List.range (q.longest members)).map fun i => members.filterMap (q.pointCall (k + 1) i)

/-- The groups' numbers, in order. -/
def groups (q : Setup) : List Nat :=
  ((q.arms.map Arm.group).dedup).mergeSort

def members (q : Setup) (g : Nat) : List q.Index :=
  q.indices.filter fun i => (q.arm i).group = g

/-- The calls that `main` makes, as long as nothing ends it early. -/
def batches (q : Setup) : List (List (Call q)) :=
  if q.interleave then
    (q.groups.flatMap fun g => q.groupBatches (q.members g)) ++
      q.indices.map fun i => [q.plots i]
  else q.indices.map fun i => [q.whole i]

end Setup

/-! ## The runner and its children -/

/-- Why `run_one` does not go on. -/
inductive Early
  | expired | stopped | credentials
  deriving DecidableEq, Repr

inductive Status
  | queued | running | waiting | done | failed | credentialsExpired
  /-- Rewritten by `main` to its verdict. -/
  | ended (v : Early)
  deriving DecidableEq, Repr

/-- The status that `main` leaves, with its verdict. -/
def Status.final (st : Status) (verdict : Option Early) : Status :=
  match verdict, st with
  | some v, .running | some v, .waiting | some v, .queued => .ended v
  | _, st => st

/-- What is done or failed stays so, and nothing else becomes it. -/
theorem Status.final_eq_iff {verdict : Option Early} {st st' : Status}
    (h : st' = .done ∨ st' = .failed) : st.final verdict = st' ↔ st = st' := by
  rcases h with rfl | rfl
  · cases verdict <;> cases st <;> simp [final]
  · cases verdict <;> cases st <;> simp [final]

/-- Where a call of `run_one` is. -/
inductive Attempt (N : Numerals)
  /-- At the top of its loop. -/
  | top
  /-- `experiment.py` runs: the drivers it has still to start, and the one that runs. -/
  | child (argvs : List Argv) (driver : Option (Process N))

structure State (q : Setup) (N : Numerals) where
  files : String × String → Option (Csv N)
  status : q.Index → Status
  batches : List (List (Call q))
  /-- The calls of the batch that was begun last. -/
  due : List (Call q)
  /-- Those of them that are still to be made. -/
  pending : List (Call q)
  live : q.Index → Option (Call q × Attempt N)
  /-- What calls of this batch returned, if not `done` or `failed`. -/
  results : q.Index → Option Early
  verdict : Option Early
  stopping : Bool
  /-- The deadline is past. -/
  expired : Bool
  /-- `main` has returned. -/
  returned : Bool

namespace State

variable (s : State q N)

def init (q : Setup) (files : String × String → Option (Csv N)) : State q N :=
  { files, status := fun _ => .queued, batches := q.batches, due := [], pending := []
    live := fun _ => none, results := fun _ => none, verdict := none, stopping := false
    expired := false, returned := false }

def setLive (i : q.Index) (c : Call q) (a : Attempt N) : State q N :=
  { s with live := Function.update s.live i (some (c, a)) }

/-- The call of arm `i` returns. -/
def clear (i : q.Index) : State q N := { s with live := Function.update s.live i none }

def setStatus (i : q.Index) (st : Status) : State q N :=
  { s with status := Function.update s.status i st }

def setFile (path : String × String) (c : Csv N) : State q N :=
  { s with files := Function.update s.files path (some c) }

/-- The CSV of an arm. -/
def csv (i : q.Index) : Option (Csv N) := s.files (q.arm i).file.out

/-- No call is running. -/
def Idle : Prop := ∀ i, s.live i = none

/-- `x["status"] != "failed"`, and in the last pass `x["status"] == "done"` -/
def isDue (c : Call q) : Bool :=
  match c.pass with
  | .whole => true
  | .point _ => s.status c.arm ≠ .failed
  | .plots => s.status c.arm = .done

/-- What `run_one` returns when the queue is to end. -/
def Ends (v : Early) : Prop :=
  (s.stopping = true ∧ v = .stopped) ∨ (s.stopping = false ∧ s.expired = true ∧ v = .expired)

/--
The call `c` of arm `i` returns `v`. The loop over the members breaks, unless each has a thread
of its own; the pass that only plots does not look.
-/
def returnEarly (i : q.Index) (c : Call q) (v : Early) : State q N :=
  if c.pass = .plots then s.clear i
  else
    { s.clear i with
      results := Function.update s.results i (some v)
      pending := if q.concurrent then s.pending else [] }

/-- The verdict of the batch: the last member's that did not go on. -/
def batchVerdict : Option Early :=
  s.due.foldl (fun v c => (s.results c.arm).or v) none

end State

inductive Event (q : Setup) (N : Numerals)
  | stop | expire
  /-- The next batch. -/
  | begin
  | enter (c : Call q)
  /-- `run_one` returns before it starts another child. -/
  | turnAway (i : q.Index) (v : Early)
  | spawn (i : q.Index)
  /-- `experiment.py` starts a driver. -/
  | drive (i : q.Index) (sweep : Sweep)
  | skip (i : q.Index) (run : Run)
  | record (i : q.Index) (run : Run) (boot : Boot N) (valid : Bool)
  /-- The driver returns 0. -/
  | leave (i : q.Index)
  /-- `experiment.py` returns 0. -/
  | succeed (i : q.Index)
  | fail (i : q.Index)
  | refuse (i : q.Index)
  | credentials (i : q.Index)
  | kill (i : q.Index) (v : Early)
  /-- Every call of the batch has returned. -/
  | close
  | finish

/-- A step of the runner or of a child. A child may fail at any time. -/
inductive Step (q : Setup) (N : Numerals) : State q N → Event q N → State q N → Prop
  | stop {s : State q N} : Step q N s .stop { s with stopping := true }
  | expire {s : State q N} : Step q N s .expire { s with expired := true }
  | begin {s : State q N} {b : List (Call q)} {rest : List (List (Call q))} :
      s.batches = b :: rest → s.due = [] → s.pending = [] → s.Idle →
      Step q N s .begin
        { s with
          batches := rest, due := b.filter s.isDue, pending := b.filter s.isDue
          results := fun _ => none }
  | enter {s : State q N} {c : Call q} {rest : List (Call q)} : s.pending = c :: rest →
      s.live c.arm = none → (q.concurrent = true ∨ s.Idle) →
      Step q N s (.enter c) { s.setLive c.arm c .top with pending := rest }
  | turnAway {s : State q N} {i : q.Index} {c : Call q} {v : Early} :
      s.live i = some (c, .top) → s.Ends v → Step q N s (.turnAway i v) (s.returnEarly i c v)
  | spawn {s : State q N} {i : q.Index} {c : Call q} : s.live i = some (c, .top) →
      s.stopping = false → s.expired = false →
      Step q N s (.spawn i)
        ((s.setStatus i .running).setLive i c
          (.child (((q.arm i).file.main c.only c.reps).getD []) none))
  | drive {s : State q N} {i : q.Index} {c : Call q} {a : Argv} {argvs : List Argv}
      {sweep : Sweep} : s.live i = some (c, .child (a :: argvs) none) →
      Sweep.parse (q.arm i).file.bench a = some sweep →
      Step q N s (.drive i sweep)
        (s.setLive i c (.child argvs (some (Process.start sweep (s.csv i)))))
  | skip {s : State q N} {i : q.Index} {c : Call q} {argvs : List Argv} {p : Process N}
      {run : Run} : s.live i = some (c, .child argvs (some p)) → p.todo.head? = some run →
      done p.df run = true →
      Step q N s (.skip i run) (s.setLive i c (.child argvs (some p.skip)))
  | record {s : State q N} {i : q.Index} {c : Call q} {argvs : List Argv} {p : Process N}
      {run : Run} {boot : Boot N} {valid : Bool} :
      s.live i = some (c, .child argvs (some p)) → p.todo.head? = some run →
      done p.df run = false →
      Step q N s (.record i run boot valid)
        ((s.setFile (q.arm i).file.out (p.record run boot valid).csv).setLive i c
          (.child argvs (some (p.record run boot valid))))
  | leave {s : State q N} {i : q.Index} {c : Call q} {argvs : List Argv} {p : Process N} :
      s.live i = some (c, .child argvs (some p)) → p.todo = [] →
      Step q N s (.leave i) (s.setLive i c (.child argvs none))
  | succeed {s : State q N} {i : q.Index} {c : Call q} : s.live i = some (c, .child [] none) →
      (∃ argvs, (q.arm i).file.main c.only c.reps = some argvs) →
      Step q N s (.succeed i) ((s.setStatus i .done).clear i)
  | fail {s : State q N} {i : q.Index} {c : Call q} {argvs : List Argv}
      {d : Option (Process N)} : s.live i = some (c, .child argvs d) →
      Step q N s (.fail i) ((s.setStatus i .failed).clear i)
  | refuse {s : State q N} {i : q.Index} {c : Call q} {argvs : List Argv}
      {d : Option (Process N)} : s.live i = some (c, .child argvs d) →
      Step q N s (.refuse i) ((s.setStatus i .waiting).setLive i c .top)
  | credentials {s : State q N} {i : q.Index} {c : Call q} {argvs : List Argv}
      {d : Option (Process N)} : s.live i = some (c, .child argvs d) →
      Step q N s (.credentials i)
        ((s.setStatus i .credentialsExpired).returnEarly i c .credentials)
  | kill {s : State q N} {i : q.Index} {c : Call q} {argvs : List Argv}
      {d : Option (Process N)} {v : Early} : s.live i = some (c, .child argvs d) → s.Ends v →
      Step q N s (.kill i v) (s.returnEarly i c v)
  | close {s : State q N} : s.due ≠ [] → s.pending = [] → s.Idle →
      Step q N s .close
        { s with
          due := [], verdict := s.batchVerdict
          batches := if s.batchVerdict.isSome then [] else s.batches }
  | finish {s : State q N} : s.batches = [] → s.due = [] → s.pending = [] → s.Idle →
      s.returned = false →
      Step q N s .finish
        { s with returned := true, status := fun i => (s.status i).final s.verdict }

/-- The runs that drivers launched and recorded, in order. -/
def launches (l : List (Event q N)) : List (q.Index × Run) :=
  l.filterMap fun ev =>
    match ev with
    | .record i run _ _ => some (i, run)
    | _ => none

end Arms
