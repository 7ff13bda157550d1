import Mathlib.Algebra.Order.Field.Rat
import MiniosvCtrl.Infra.Dicts

/-!
# What a set of runs cost

The rows of the CSV files are gathered by boot, each boot is charged its rows' time and an
allowance, and boots are added up by the instance they ran on. Requests and bytes are added up
alongside. The prices, and what is printed of all this, are left out.

Floats are rational numbers; `float` of a text is a parameter.

* `rowMs` — the time of a row
* `gather` — the rows by boot
* `charged` — the time that is charged
-/

open Infra

namespace Cost

/-- `float(t)`; `none` is a `ValueError`. -/
abbrev Floats := String → Option Rat

variable (float : Floats)

/-- A row of `csv.DictReader`. -/
abbrev Row := List (String × String)

/-- `r.get(col) or ""` -/
def cell (r : Row) (col : String) : String := (r.lookup col).getD ""

/-- `float(t or 0)` -/
def number (t : String) : Option Rat := if t = "" then some 0 else float t

/-- `int(x)` -/
def truncated (x : Rat) : Int := x.num.tdiv x.den

/-- What a row adds to a counter; no number adds nothing. -/
def counted (r : Row) (col : String) : Int := ((number float (cell r col)).map truncated).getD 0

/-- The loop over `query_ms` and `elapsed_s`. -/
def rowMs (r : Row) : Rat :=
  match number float (cell r "query_ms") with
  | some v => v
  | none =>
    match number float (cell r "elapsed_s") with
    | some v => v * 1000
    | none => 0

/-- A CSV file by its base name. -/
structure File where
  name : String
  isFile : Bool
  rows : List Row

/-- `(f.name, r.get("log") or r.get("instance_id") or "?")` -/
def key (name : String) (r : Row) : String × String :=
  if cell r "log" ≠ "" then (name, cell r "log")
  else if cell r "instance_id" ≠ "" then (name, cell r "instance_id")
  else (name, "?")

structure Run where
  inst : String
  req : Int
  bytes : Int
  ms : Rat
  rows : Nat

/-- What `setdefault` puts in. -/
def Run.start (r : Row) : Run :=
  { inst := (r.lookup "instance").getD "?", req := 0, bytes := 0, ms := 0, rows := 0 }

def Run.add (g : Run) (r : Row) : Run :=
  { g with
    rows := g.rows + 1
    req := g.req + counted float r "requests"
    bytes := g.bytes + counted float r "body_bytes"
    ms := g.ms + rowMs float r }

def bill (name : String) (runs : List ((String × String) × Run)) (r : Row) :
    List ((String × String) × Run) :=
  upsert (key name r) (Run.start r) (fun g => g.add float r) runs

def gather (files : List File) : List ((String × String) × Run) :=
  (files.filter File.isFile).foldl (fun runs f => f.rows.foldl (bill float f.name) runs) []

def bootS : Rat := 90

def minBillS : Rat := 60

def Run.charge (g : Run) : Rat := max minBillS (g.ms / 1000 + bootS)

structure Instance where
  boots : Nat
  req : Int
  bytes : Int
  s : Rat

def Instance.start : Instance := ⟨0, 0, 0, 0⟩

def Instance.add (b : Instance) (g : Run) : Instance :=
  { boots := b.boots + 1, req := b.req + g.req, bytes := b.bytes + g.bytes, s := b.s + g.charge }

def byInst (files : List File) : List (String × Instance) :=
  (gather float files).foldl (fun d g => upsert g.2.inst Instance.start (fun b => b.add g.2) d) []

/-- `sum(b["s"] for b in by_inst.values())` -/
def charged (files : List File) : Rat := ((byInst float files).map fun e => e.2.s).sum

end Cost
