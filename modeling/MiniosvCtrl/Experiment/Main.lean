import MiniosvCtrl.Runner.Sweep

/-!
# `experiment.py`: from the points of an experiment to its drivers

An experiment is a TOML file whose points are run by a driver each, one after another, into a CSV
that its path gives. `--only axis=value` keeps the points with that value, and an interleaved
experiment runs the points that share every knob but the axis by one driver.

* `File` — an experiment
* `File.only` — `--only`
* `File.grouped` — the points of an interleaved experiment
* `File.argv` — the driver's arguments for a point
* `File.main` — the drivers, in order
-/

namespace Experiment

open Infra Runner

/-- A table of a TOML file. -/
abbrev Dict := List (Name × Value)

/-- `{**a, **b}` -/
def merge (a b : Dict) : Dict :=
  a.map (fun kv => (kv.1, (b.lookup kv.1).getD kv.2)) ++ b.filter fun kv => kv.1 ∉ a.map Prod.fst

structure File where
  /-- The name of the file's directory. -/
  subject : String
  /-- The file's name, without its suffix. -/
  stem : String
  bench : Bench
  axis : Name
  points : List Dict
  fixed : Dict
  inst : String
  reps : Nat
  keepGoing : Bool
  interleave : Bool
  axis_mem : ∀ p ∈ points, axis ∈ p.map Prod.fst
  nodup : ∀ p ∈ points, (p.map Prod.fst).Nodup

namespace File

/-- `out_path` -/
def out (x : File) : String × String := (x.subject, x.stem)

/-- `p[axis]` -/
def axisValue (x : File) (p : Dict) : Value := (p.lookup x.axis).getD (.str "")

/-- `p.get(knob, fixed.get(knob))`, as `str` shows it. -/
def shown (x : File) (knob : Name) (p : Dict) : String :=
  match p.lookup knob with
  | some v => v.text
  | none => ((x.fixed.lookup knob).map Value.text).getD "None"

/-- The points `--only` keeps. -/
def only (x : File) (o : Option (Name × String)) : List Dict :=
  match o with
  | some (knob, value) => x.points.filter fun p => x.shown knob p = value
  | none => x.points

/-- `groups.setdefault(key, []).append(v)` -/
def append (key : Dict) (v : Value) : List (Dict × List Value) → List (Dict × List Value)
  | [] => [(key, [v])]
  | (k, vs) :: groups =>
    if k = key then (k, vs ++ [v]) :: groups else (k, vs) :: append key v groups

/-- `tuple(sorted((k, v) for k, v in p.items() if k != axis))` -/
def groupKey (x : File) (p : Dict) : Dict :=
  (p.filter fun kv => kv.1 ≠ x.axis).mergeSort fun a b => decide (a.1 ≤ b.1)

/-- `",".join(map(str, vs))` -/
def join (vs : List Value) : String := ",".intercalate (vs.map Value.text)

/-- The points of an interleaved experiment: one for each group, with all its axis values. -/
def grouped (x : File) (points : List Dict) : List Dict :=
  (points.foldl (fun groups p => append (x.groupKey p) (x.axisValue p) groups) []).map fun g =>
    g.1 ++ [(x.axis, .str (join g.2))]

/-- `cfg`, without the instance unless that is the axis. -/
def cfg (x : File) (p : Dict) : Dict :=
  if x.axis = instanceAxis then merge x.fixed p
  else (merge x.fixed p).filter fun kv => kv.1 ≠ instanceAxis

/-- The instance type that a point runs on, if that is not the axis. -/
def instanceOf (x : File) (p : Dict) : String :=
  if x.axis = instanceAxis then x.inst
  else (((merge x.fixed p).lookup instanceAxis).map Value.text).getD x.inst

/-- `cmd` -/
def argv (x : File) (reps : Nat) (p : Dict) : Argv :=
  { axis := x.axis
    raw := (x.axisValue p).text
    reps
    inst := x.instanceOf p
    held := ((x.cfg p).filter fun kv => kv.1 ≠ x.axis).map fun kv => (kv.1, kv.2.text)
    keepGoing := x.keepGoing
    interleave := x.interleave }

/-- What the drivers are started for, in order. -/
def tables (x : File) (o : Option (Name × String)) : List Dict :=
  if x.interleave then x.grouped (x.only o) else x.only o

/-- The arguments of the drivers, in order. `none`: `--only` keeps no point. -/
def main (x : File) (o : Option (Name × String)) (reps : Nat) : Option (List Argv) :=
  if o.isSome ∧ x.only o = [] then none else some ((x.tables o).map (x.argv reps))

/-- A sweep that a driver of the experiment does. -/
def Sweeps (x : File) (s : Sweep) : Prop :=
  ∃ o reps argvs, x.main o reps = some argvs ∧ ∃ a ∈ argvs, Sweep.parse x.bench a = some s

/-- A run of the point `p`, as a driver for it alone would read its knobs. -/
def RunOf (x : File) (p : Dict) (rep : Nat) (run : Run) : Prop :=
  ∃ s, Sweep.Reads x.bench (x.argv rep p) s ∧ ∃ v ∈ s.values, run = s.run v rep

/-- A run that a driver of the experiment plans. -/
def Planned (x : File) (run : Run) : Prop := ∃ s, x.Sweeps s ∧ run ∈ s.plan

end File

end Experiment
