import Mathlib.Logic.Function.Basic

/-!
# Submitting a queue

Any number of `submit` invocations beside the runners they spawn. A `submit` checks
`running_queue`, writes the queue's `state.json`, points `LATEST` at it and spawns the runner;
the runner records itself in `state.json` with its first `save`. Each of these is one step, and
the steps of different processes interleave freely. A `submit` may also be interrupted, and a
runner killed, at any point.
-/

namespace Queue

/-- A queue's id, the second it was submitted in. -/
abbrev Qid := Nat

abbrev Pid := Nat

/-- `state["status"]` of a queue. -/
inductive QueueStatus
  | starting | running | waitingForSpot
  /-- The verdict `Runner.main` leaves. -/
  | ended
  deriving DecidableEq, Repr

/-- The part of `state.json` that `running_queue` reads. -/
structure StateFile where
  status : QueueStatus
  pid : Option Pid
  deriving DecidableEq, Repr

/-- How far one `submit` is. -/
inductive SubmitPhase
  | ready
  | passed
  | wroteState (q : Qid)
  | wroteLatest (q : Qid)
  /-- Spawned its runner, was refused by a check, or was interrupted. -/
  | returned
  deriving DecidableEq, Repr

structure Runner where
  qid : Qid
  alive : Bool
  /-- The first `save` was made, so `state.json` names this process. -/
  saved : Bool
  /-- The verdict was saved. -/
  finished : Bool
  deriving DecidableEq, Repr

structure Sys where
  /-- `results/queue/<qid>/state.json`. -/
  files : Qid → Option StateFile
  /-- `results/queue/latest`. -/
  latest : Option Qid
  submits : Nat → SubmitPhase
  runners : Pid → Option Runner

/-- Nothing was ever submitted. -/
def Sys.init : Sys :=
  { files := fun _ => none, latest := none, submits := fun _ => .ready, runners := fun _ => none }

/-- `os.kill(pid, 0)` finds a process. Pid 0 is the caller's own process group. -/
def Sys.alive (s : Sys) (pid : Pid) : Bool :=
  pid == 0 || (s.runners pid).any Runner.alive

/-- The latest queue's state if its runner is still alive. -/
def runningQueue (s : Sys) : Option StateFile :=
  match s.latest with
  | none => none
  | some q =>
    match s.files q with
    | none => none
    | some st =>
      if (st.status = .running ∨ st.status = .waitingForSpot) ∧ s.alive (st.pid.getD 0) then
        some st
      else none

inductive Act
  | check (i : Nat)
  | writeState (i : Nat) (q : Qid)
  | writeLatest (i : Nat)
  | spawn (i : Nat) (p : Pid)
  | interrupt (i : Nat)
  | save (p : Pid) (status : QueueStatus)
  | finish (p : Pid)
  | exit (p : Pid)
  deriving DecidableEq, Repr

def Sys.setSubmit (s : Sys) (i : Nat) (ph : SubmitPhase) : Sys :=
  { s with submits := Function.update s.submits i ph }

def Sys.setRunner (s : Sys) (p : Pid) (r : Runner) : Sys :=
  { s with runners := Function.update s.runners p (some r) }

def Sys.setFile (s : Sys) (q : Qid) (st : StateFile) : Sys :=
  { s with files := Function.update s.files q (some st) }

/--
One step of one process.

`mkdir` fails if the queue's directory exists, so `writeState` takes a fresh id. A runner's
first `save` says `running` and names its pid; every later one keeps the pid.
-/
inductive Step : Sys → Act → Sys → Prop
  | checkPass {s : Sys} {i : Nat} : s.submits i = .ready → runningQueue s = none →
      Step s (.check i) (s.setSubmit i .passed)
  | checkRefuse {s : Sys} {i : Nat} {st : StateFile} : s.submits i = .ready →
      runningQueue s = some st → Step s (.check i) (s.setSubmit i .returned)
  | writeState {s : Sys} {i : Nat} {q : Qid} : s.submits i = .passed → s.files q = none →
      Step s (.writeState i q)
        ((s.setFile q { status := .starting, pid := none }).setSubmit i (.wroteState q))
  | writeLatest {s : Sys} {i : Nat} {q : Qid} : s.submits i = .wroteState q →
      Step s (.writeLatest i) ({ s with latest := some q }.setSubmit i (.wroteLatest q))
  | spawn {s : Sys} {i : Nat} {q : Qid} {p : Pid} : s.submits i = .wroteLatest q →
      s.runners p = none → p ≠ 0 →
      Step s (.spawn i p) ((s.setRunner p
        { qid := q, alive := true, saved := false, finished := false }).setSubmit i .returned)
  | interrupt {s : Sys} {i : Nat} : Step s (.interrupt i) (s.setSubmit i .returned)
  | save {s : Sys} {p : Pid} {r : Runner} {status : QueueStatus} : s.runners p = some r →
      r.alive = true → r.finished = false →
      (status = .running ∨ status = .waitingForSpot ∧ r.saved = true) →
      Step s (.save p status)
        ((s.setFile r.qid { status := status, pid := some p }).setRunner p { r with saved := true })
  | finish {s : Sys} {p : Pid} {r : Runner} : s.runners p = some r → r.alive = true →
      r.saved = true → r.finished = false →
      Step s (.finish p)
        ((s.setFile r.qid { status := .ended, pid := some p }).setRunner p
          { r with finished := true })
  | exit {s : Sys} {p : Pid} {r : Runner} : s.runners p = some r →
      Step s (.exit p) (s.setRunner p { r with alive := false })

/-- The runner with this pid passed the checks and is still at work. -/
def Live (s : Sys) (p : Pid) : Prop :=
  ∃ r, s.runners p = some r ∧ r.alive = true ∧ r.finished = false

/-- Never two queues at once. -/
def OneQueue (s : Sys) : Prop :=
  ∀ p p', Live s p → Live s p' → p = p'

end Queue
