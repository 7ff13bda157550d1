import Mathlib.Data.List.Dedup
import MiniosvCtrl.Infra.Frame
import MiniosvCtrl.Infra.Lists

/-!
# The rows of a sweep's CSV and `done`

A run of a bench is recorded as a row, or as a row for each query of a boot, with its axis, axis
value, rep, instance and knobs. `done` looks for a row with the same axis, axis value and rep, and
with the same text in the column of every other knob.

* `Run` — what a driver launches
* `Run.recorded` — the row `main` makes of a row that `run_once` returned
* `record` — the frame after a run was recorded
* `done` — whether a frame holds a run
-/

namespace Runner

open Infra

variable {N : Numerals}

/-- A knob's value. -/
inductive Value
  | int (n : Int)
  | str (t : String)
  deriving DecidableEq, Repr

namespace Value

/-- `str(v)` -/
def text : Value → String
  | .int n => toString n
  | .str t => t

def cell : Value → Cell N
  | .int n => .int n
  | .str t => .str t

end Value

/-- `df[k] == v`, in one row: a number is no string, and a missing cell equals nothing. -/
def eqValue (c : Cell N) (v : Value) : Bool :=
  match c, v with
  | .int n, .int m => n = m
  | .real x, .int m => x = N.ofInt m
  | .str t, .str u => t = u
  | _, _ => false

/-- The columns `main` fills in itself. -/
def mainColumns : List Name :=
  ["timestamp", "instance", "axis", "axis_value", "rep", "note", "valid", "est_rx_pps",
    "gbps_per_worker", "setup_degraded"]

/-- A value of the plan: what a driver launches, with the knobs it is built for. -/
structure Run where
  axis : Name
  value : Value
  rep : Nat
  inst : String
  /-- `cfg` -/
  cfg : List (Name × Value)
  nodup : (cfg.map Prod.fst).Nodup
  not_main : ∀ kv ∈ cfg, kv.1 ∉ mainColumns
  deriving DecidableEq

namespace Run

/-- What `done` compares whatever the knobs are. -/
def keys (run : Run) : List (Name × Value) :=
  [("axis", .str run.axis), ("axis_value", run.value), ("rep", .int run.rep)]

/-- The knobs `done` compares. -/
def others (run : Run) : List (Name × Value) := run.cfg.filter fun kv => kv.1 ≠ run.axis

/-- `r |= {...}`: a query the row is for wins over the point's. -/
def recorded (run : Run) (own : Row N) : Row N := fun k =>
  if k = "instance" then .str run.inst
  else if k = "axis" then .str run.axis
  else if k = "axis_value" then run.value.cell
  else if k = "rep" then .int run.rep
  else
    match run.cfg.lookup k with
    | some v => if k = "query" ∧ own k ≠ .missing then own k else v.cell
    | none => own k

end Run

/-- What `run_once` returned: a row, or a row for each query of the boot. -/
structure Boot (N : Numerals) where
  columns : List Name
  rows : List (Row N)
  nonempty : rows ≠ []
  /-- `int(h.group(1))`, or no query of its own. -/
  query : ∀ own ∈ rows, own "query" = .missing ∨ ∃ q, own "query" = .int q

/-- `pd.DataFrame(rows)` -/
def newRows (run : Run) (boot : Boot N) : Frame N :=
  Frame.ofRows (boot.columns ++ mainColumns ++ run.cfg.map Prod.fst).dedup
    (boot.rows.map run.recorded)

/-- `df = pd.concat([df, pd.DataFrame(rows)], ignore_index=True)` -/
def record (df : Frame N) (run : Run) (boot : Boot N) : Frame N := df.concat (newRows run boot)

/-- The row is one that `done` takes for the run. -/
def Matches (df : Frame N) (run : Run) (r : Row N) : Prop :=
  (∀ kv ∈ run.keys, eqValue (r kv.1) kv.2 = true) ∧
    ∀ kv ∈ run.others, kv.1 ∈ df.columns → (r kv.1).text = kv.2.text

instance (df : Frame N) (run : Run) (r : Row N) : Decidable (Matches df run r) :=
  inferInstanceAs (Decidable (_ ∧ _))

/-- `done(df, axis, value, rep, cfg)` -/
def done (df : Frame N) (run : Run) : Bool := df.rows.any fun r => Matches df run r

theorem done_iff {df : Frame N} {run : Run} :
    done df run = true ↔ ∃ r ∈ df.rows, Matches df run r := by
  simp [done]

/-- `not df.empty and done(...)`: `done` finds nothing in an empty frame. -/
theorem done_eq_false_of_empty {df : Frame N} (h : df.rows = []) (run : Run) :
    done df run = false := by
  simp [done, h]

end Runner
