import MiniosvCtrl.Experiment.Main

/-!
# `experiment.py`: its drivers, one after another

The drivers of an experiment are started in turn. A driver that does not exit with 0 ends the
experiment. A run may have several rows, and the last of them decides whether the driver goes on;
its exit code does not tell.

* `Drivers` — an experiment between its start and its exit
* `Drivers.Step`
* `Drivers.planned` — what the drivers that are still to be started will look at
-/

namespace Experiment

open Infra Runner

variable {N : Numerals}

/-- An experiment between its start and its exit. -/
structure Drivers (N : Numerals) where
  /-- The CSV, if there is one. -/
  file : Option (Csv N)
  live : Option (Process N)
  /-- The drivers that are still to be started. -/
  todo : List Argv

namespace Drivers

def init (file : Option (Csv N)) (argvs : List Argv) : Drivers N := ⟨file, none, argvs⟩

/-- `rows[-1]["valid"]` -/
def lastValid (valids : List Bool) : Bool := valids.getLast?.getD false

inductive Event (N : Numerals)
  | start (s : Sweep)
  /-- The driver does not take its arguments. -/
  | refuse
  | skip (run : Run)
  /-- `run_once` was called so many times, and the rows of the last call are written. -/
  | record (run : Run) (tries : Nat) (boot : Boot N) (valids : List Bool)
  /-- `run_once` was called so many times, and the last call raised. -/
  | raise (run : Run) (tries : Nat)
  /-- `main` returned 0. -/
  | exit
  /-- The driver ends in any other way: a build that fails, an exception, a signal. -/
  | fail

/-- The run that is launched. -/
def Event.launched : Event N → Option Run
  | .record run _ _ _ => some run
  | .raise run _ => some run
  | _ => none

/-- `for attempt in range(6)` -/
def maxTries : Nat := 6

inductive Step (b : Bench) : Drivers N → Event N → Drivers N → Prop
  | start {file : Option (Csv N)} {a : Argv} {todo : List Argv} {s : Sweep} :
      Sweep.parse b a = some s →
      Step b ⟨file, none, a :: todo⟩ (.start s) ⟨file, some (Process.start s file), todo⟩
  | refuse {file : Option (Csv N)} {a : Argv} {todo : List Argv} : Sweep.parse b a = none →
      Step b ⟨file, none, a :: todo⟩ .refuse ⟨file, none, []⟩
  | skip {file : Option (Csv N)} {p : Process N} {todo : List Argv} {run : Run} :
      p.todo.head? = some run → done p.df run = true →
      Step b ⟨file, some p, todo⟩ (.skip run) ⟨file, some p.skip, todo⟩
  | record {file : Option (Csv N)} {p : Process N} {todo : List Argv} {run : Run} {tries : Nat}
      {boot : Boot N} {valids : List Bool} :
      p.todo.head? = some run → done p.df run = false → 1 ≤ tries → tries ≤ maxTries →
      valids.length = boot.rows.length →
      Step b ⟨file, some p, todo⟩ (.record run tries boot valids)
        ⟨some (p.record run boot (lastValid valids)).csv,
          some (p.record run boot (lastValid valids)), todo⟩
  | raise {file : Option (Csv N)} {p : Process N} {todo : List Argv} {run : Run} {tries : Nat} :
      p.todo.head? = some run → done p.df run = false → 1 ≤ tries → tries ≤ maxTries →
      Step b ⟨file, some p, todo⟩ (.raise run tries) ⟨file, none, []⟩
  | exit {file : Option (Csv N)} {p : Process N} {todo : List Argv} : p.todo = [] →
      Step b ⟨file, some p, todo⟩ .exit ⟨file, none, todo⟩
  | fail {file : Option (Csv N)} {p : Process N} {todo : List Argv} :
      Step b ⟨file, some p, todo⟩ .fail ⟨file, none, []⟩

/-- The plans of drivers that are started in turn, until one does not take its arguments. -/
def planned (b : Bench) : List Argv → List Run
  | [] => []
  | a :: todo =>
    match Sweep.parse b a with
    | some s => s.plan ++ planned b todo
    | none => []

end Drivers

end Experiment
