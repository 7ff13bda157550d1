import MiniosvCtrl.Experiment.Main

/-!
# `experiment.py`: the environment of the drivers

An experiment may set variables for its drivers, a note above all. Each is a template, which
`str.format` fills with the knobs of what the driver is started for.

* `scan` — the pieces of a template
* `format` — `str.format`
* `Stored` — an experiment with the templates of its environment
* `Stored.performed` — the runs that the drivers plan, with the environment they make them in
* `Stored.intended` — what a run of a point is for
-/

namespace Experiment

open Infra Runner

/-! ## `str.format` -/

/--
What a field makes of its value where it says more than a name: an attribute, an index, a
conversion or a format spec, which may name knobs in turn. `none`: it raises.
-/
abbrev Tails := List Char → Value → (Name → Option Value) → Option (List Char)

inductive Piece
  | char (c : Char)
  /-- `{name tail}` -/
  | field (name : Name) (tail : List Char)
  deriving DecidableEq, Repr

/-- Where the scan of a template is. -/
inductive Mode
  | text
  /-- In a field's name, in brackets or not; `seen` is reversed. -/
  | name (bracket : Bool) (seen : List Char)
  /-- In its conversion or spec, with so many braces open. -/
  | spec (depth : Nat) (seen : List Char)

/-- The field between two braces. -/
def fieldOf (seen : List Char) : Piece :=
  let l := seen.reverse
  let isName := fun c => !(c == '.' || c == '[' || c == '!' || c == ':')
  .field (String.ofList (l.takeWhile isName)) (l.dropWhile isName)

/-- The pieces of a template. `none`: it is malformed. -/
def scan : Mode → List Char → Option (List Piece)
  | .text, [] => some []
  | .text, '{' :: '{' :: l => (scan .text l).map (.char '{' :: ·)
  | .text, '}' :: '}' :: l => (scan .text l).map (.char '}' :: ·)
  | .text, c :: l =>
    if c = '{' then scan (.name false []) l
    else if c = '}' then none
    else (scan .text l).map (.char c :: ·)
  | .name bracket seen, c :: l =>
    if bracket then scan (.name (c != ']') (c :: seen)) l
    else if c = '{' then none
    else if c = '}' then (scan .text l).map (fieldOf seen :: ·)
    else if c = '!' ∨ c = ':' then scan (.spec 0 (c :: seen)) l
    else scan (.name (c == '[') (c :: seen)) l
  | .spec depth seen, c :: l =>
    if c = '{' then scan (.spec (depth + 1) (c :: seen)) l
    else if c = '}' then
      if depth = 0 then (scan .text l).map (fieldOf seen :: ·)
      else scan (.spec (depth - 1) (c :: seen)) l
    else scan (.spec depth (c :: seen)) l
  | .name _ _, [] => none
  | .spec _ _, [] => none

/-- A field with a number or nothing for a name is of a positional argument, and there is none. -/
def Piece.fill (tails : Tails) (knobs : Name → Option Value) : Piece → Option (List Char)
  | char c => some [c]
  | field name tail =>
    if name.toList.all Char.isDigit then none
    else
      match knobs name with
      | some v => if tail = [] then some v.text.toList else tails tail v knobs
      | none => none

/-- `template.format(**knobs)` -/
def format (tails : Tails) (template : String) (knobs : Name → Option Value) : Option String := do
  let pieces ← scan .text template.toList
  let filled ← pieces.mapM (·.fill tails knobs)
  some (String.ofList filled.flatten)

/-! ## The points of a grid -/

/-- `[dict(zip(grid, v)) for v in itertools.product(*grid.values())]` -/
def gridPoints : List (Name × List Value) → List Dict
  | [] => [[]]
  | (k, vs) :: grid => vs.flatMap fun v => (gridPoints grid).map fun p => (k, v) :: p

theorem map_fst_of_mem_gridPoints {grid : List (Name × List Value)} {p : Dict}
    (h : p ∈ gridPoints grid) : p.map Prod.fst = grid.map Prod.fst := by
  induction grid generalizing p with
  | nil =>
    obtain rfl := List.mem_singleton.mp h
    rfl
  | cons e grid ih =>
    obtain ⟨v, -, hv⟩ := List.mem_flatMap.mp h
    obtain ⟨q, hq, rfl⟩ := List.mem_map.mp hv
    rw [List.map_cons, List.map_cons, ih hq]

/-- `load`: a grid stands for its product. -/
def File.ofGrid (x : File) (grid : List (Name × List Value)) (haxis : x.axis ∈ grid.map Prod.fst)
    (hnodup : (grid.map Prod.fst).Nodup) : File :=
  { x with
    points := gridPoints grid
    axis_mem := fun _ hp => map_fst_of_mem_gridPoints hp ▸ haxis
    nodup := fun _ hp => map_fst_of_mem_gridPoints hp ▸ hnodup }

/-! ## The runs of the drivers -/

/-- An experiment with the templates of its drivers' environment. -/
structure Stored extends File where
  env : Dict

/-- A run, with what the experiment adds to the environment it is made in. -/
structure Performed where
  run : Run
  env : List (Name × String)
  deriving DecidableEq

namespace Stored

variable (tails : Tails)

/-- `env`, for a table. `none`: a template raises. -/
def environ (x : Stored) (p : Dict) : Option (List (Name × String)) :=
  x.env.mapM fun kv =>
    (format tails kv.2.text fun k => (merge x.fixed p).lookup k).map fun t => (kv.1, t)

/-- The runs of the driver of a table. `none`: it is not started, or does not take its arguments. -/
def performs (x : Stored) (reps : Nat) (g : Dict) : Option (List Performed) := do
  let env ← x.environ tails g
  let s ← Sweep.parse x.bench (x.argv reps g)
  some (s.plan.map fun run => ⟨run, env⟩)

/-- The runs of the drivers, driver by driver. Where one fails, `main` raises. -/
def performed (x : Stored) (reps : Nat) : List Dict → List (List Performed)
  | [] => []
  | g :: gs =>
    match x.performs tails reps g with
    | some runs => runs :: performed x reps gs
    | none => (g :: gs).map fun _ => []

/-! ## What the runs are for -/

/-- The value of a point's axis, as its knob's parser reads it. -/
def valueOf (x : File) (p : Dict) : Option Value :=
  if x.axis = instanceAxis then some (.str (x.axisValue p).text)
  else (x.bench.knobs.find? (·.name = x.axis)).bind fun knob => knob.parser (x.axisValue p).text

/-- The sweep that is a point alone: `{**fixed, **point}`, and defaults elsewhere. -/
def alone (x : File) (p : Dict) : Option Sweep :=
  if ∃ kv ∈ (x.argv 1 p).held, kv.1 ∉ x.bench.knobs.map Knob.name then none
  else
    match valueOf x p, h : x.bench.base (x.argv 1 p).held with
    | some v, some base =>
      some
        { axis := x.axis, values := [v], base, reps := 1, inst := x.instanceOf p
          keepGoing := x.keepGoing, interleave := x.interleave
          nodup := Bench.names_base h ▸ x.bench.nodup
          not_main := Bench.not_main_base h }
    | _, _ => none

/-- A run of the point `p`: its knobs, its instance type, and the environment formatted from it. -/
def intended (x : Stored) (pr : Dict × Nat) : Option Performed := do
  let env ← x.environ tails pr.1
  let s ← alone x.toFile pr.1
  let v ← s.values.head?
  some ⟨s.run v pr.2, env⟩

/-- The table of a point's driver, among the points that are kept. -/
def tableOf (x : File) (points : List Dict) (p : Dict) : Dict :=
  if x.interleave then
    let ps := points.filter (x.groupKey · = x.groupKey p)
    x.groupKey p ++ [(x.axis, .str (File.join (ps.map x.axisValue)))]
  else p

/-- The drivers' tables, each with the points it stands for. -/
def served (x : File) (points : List Dict) : List (Dict × List Dict) :=
  if x.interleave then
    (points.map x.groupKey).eraseDups.map fun key =>
      let ps := points.filter (x.groupKey · = key)
      (key ++ [(x.axis, .str (File.join (ps.map x.axisValue)))], ps)
  else points.map fun p => (p, [p])

/-- The runs of points that one driver stands for, in the order it makes them. -/
def rounds (reps : Nat) (ps : List Dict) : List (Dict × Nat) :=
  ((List.range reps).map (· + 1)).flatMap fun r => ps.map fun p => (p, r)

/-- `points x reps`, in the order in which the drivers make the runs. -/
def schedule (x : File) (reps : Nat) (points : List Dict) : List (List (Dict × Nat)) :=
  (served x points).map fun gps => rounds reps gps.2

/-- **The expansion is exact:** driver by driver, the runs are those that the points are for. -/
def Exact (x : Stored) (o : Option (Name × String)) (reps : Nat) : Prop :=
  (x.performed tails reps (x.tables o)).map (List.map some) =
    (schedule x.toFile reps (x.only o)).map (List.map (x.intended tails))

end Stored

end Experiment
