import Mathlib.Algebra.Order.Ring.Rat
import MiniosvCtrl.Infra.Python

/-!
# What the duckdb-linux instance's `main` concludes

The queries one boot runs, one after another: a line for each, its result held against the canned
answer where there is one, three counters, and the verdict between them. What `main` does before
its first query is not modelled, nor what a query does.

* `resultMatches` — a result against a canned answer; `none`: there is nothing to compare
* `Suite.attempt` — one query
* `Suite.main` — every line, and the exit code
-/

open Infra

namespace Suite

variable {B : Builtins}

/-! ## Floats -/

/-- What the instance does with floats. -/
structure Numbers (B : Builtins) where
  /-- `float(n)`, of an integer -/
  ofInt : Int → B.Float
  add : B.Float → B.Float → B.Float
  /-- `abs(a - b) <= 1e-6 * max(1.0, abs(a))` -/
  close : B.Float → B.Float → Bool
  /-- `"{:.1f}".format(x)` -/
  tenths : B.Float → String

/-- Rational numbers, for which the comparison is exact. -/
def Numbers.exact : Numbers Builtins.exact :=
  { ofInt := fun n => (n : Rat)
    add := fun (a b : Rat) => a + b
    close := fun (a b : Rat) => decide (max (a - b) (b - a) ≤ 1 / 1000000 * max 1 (max a (-a)))
    tenths := fun (x : Rat) =>
      let n := (10 * x + 1 / 2).floor
      toString (n / 10) ++ "." ++ toString (n % 10) }

variable (N : Numbers B)

/-- `float(v)`; `none` is a `TypeError` or a `ValueError`. -/
def Numbers.float : Scalar B → Option B.Float
  | .none => none
  | .bool b => some (N.ofInt (if b then 1 else 0))
  | .int n => some (N.ofInt n)
  | .float x => some x
  | .str t => B.float t.toList

/-! ## Results -/

/-- A row as DuckDB's JSON has it: the columns, in order. -/
abbrev Row (B : Builtins) := List (String × Scalar B)

def Row.columns (r : Row B) : List String := r.map Prod.fst

/-- What a query returned. -/
structure Result (B : Builtins) where
  rows : List (Row B)
  alike : ∀ r ∈ rows, ∀ r' ∈ rows, r.columns = r'.columns
  nodup : ∀ r ∈ rows, r.columns.Nodup

/-- `t.split(sep)` -/
def splitAt (sep : Char) (t : List Char) : List String := (t.splitOn sep).map String.ofList

/-- `t.strip("\n")` -/
def stripLines (t : String) : List Char :=
  ((t.toList.dropWhile (· == '\n')).reverse.dropWhile (· == '\n')).reverse

def fieldsMatch (a : Scalar B) (b : String) : Bool :=
  match N.float a, B.float b.toList with
  | some fa, some fb => N.close fa fb
  | _, _ => a.text == b

def rowMatches (header want : List String) (r : Row B) : Bool :=
  want.length == header.length &&
    (header.zip want).all fun f => (r.lookup f.1).any fun v => fieldsMatch N v f.2

def resultMatches (result : Result B) (answer : String) : Option Bool :=
  match result.rows with
  | [] => none
  | first :: rest =>
    let lines := (splitAt '\n' (stripLines answer)).map fun l => splitAt '|' l.toList
    if lines.headD [] ≠ first.columns ∨ lines.tail.length ≠ (first :: rest).length then some false
    else some ((lines.tail.zip (first :: rest)).all fun p => rowMatches N first.columns p.1 p.2)

/-! ## Lines -/

inductive Match
  | yes
  | no
  | unchecked
  deriving DecidableEq, Repr

def Match.text : Match → String
  | yes => "yes"
  | no => "no"
  | unchecked => "unchecked"

/-- What the pass with the HTTP log on reports. -/
inductive Report
  | httpStats (t : String)
  | netPhase (t : String)

def Report.pieces : Report → List String
  | httpStats t => ["HTTP STATS: ", t]
  | netPhase t => ["NET PHASE: ", t]

/-- `{:02d}` -/
def twoDigits (n : Int) : String := if 0 ≤ n ∧ n < 10 then "0" ++ toString n else toString n

inductive Line (B : Builtins)
  | fail (qn : Int) (e : String)
  | ran (qn : Int) (ms : B.Float) (rows : Nat) (m : Match)
  | report (r : Report)
  | blank
  | summary (ok total : Nat) (ms : B.Float) (checked matched : Nat)
  | verdict (complete : Bool) (sf : String) (ok total : Nat)

def word (complete : Bool) : String := if complete then "COMPLETE" else "INCOMPLETE"

/-- The texts a line is put together from. -/
def Line.pieces : Line B → List String
  | fail qn e => ["Q", twoDigits qn, ": FAIL 0.0 ms: ", e]
  | ran qn ms rows m => ["Q", twoDigits qn, ": ", N.tenths ms, " ms, ", toString rows,
      " rows, match=", m.text]
  | report r => r.pieces
  | blank => []
  | summary ok total ms checked matched => ["TPCH SUMMARY: ok=", toString ok, " total=",
      toString total, " ms=", N.tenths ms, " checked=", toString checked, " matched=",
      toString matched]
  | verdict complete sf ok total => [word complete, ": tpch sf=", sf, " ok=", toString ok, "/",
      toString total]

def Line.text (l : Line B) : List Char := (l.pieces N).flatMap String.toList

/-! ## `main` -/

/-- How a query went. -/
inductive Outcome (B : Builtins)
  | raised (e : String)
  /-- `reports` is what a second pass prints, if there is one. -/
  | ran (ms : B.Float) (result : Result B) (reports : List Report)

/-- A boot of the instance, and how each of its queries goes. -/
structure Boot (B : Builtins) where
  sf : String
  /-- `HTTP_LOG or NET_PHASE` -/
  profiled : Bool
  /-- `answers.get` -/
  answers : Int → Option String
  attempts : List (Int × Outcome B)

structure State (B : Builtins) where
  ok : Nat
  checked : Nat
  matched : Nat
  totalMs : B.Float
  said : List (Line B)

def State.start : State B := ⟨0, 0, 0, B.zero, []⟩

def State.say (s : State B) (lines : List (Line B)) : State B := { s with said := s.said ++ lines }

variable (b : Boot B)

/-- The loop's body. -/
def attempt (s : State B) : Int × Outcome B → State B
  | (qn, .raised e) => s.say [.fail qn e]
  | (qn, .ran ms result reports) =>
    let s := { s with totalMs := N.add s.totalMs ms, ok := s.ok + 1 }
    let (s, m) :=
      match b.answers qn with
      | none => (s, Match.unchecked)
      | some ans =>
        let s := { s with checked := s.checked + 1 }
        match resultMatches N result ans with
        | some true => ({ s with matched := s.matched + 1 }, .yes)
        | some false => (s, .no)
        | none => (s, .unchecked)
    s.say (.ran qn ms result.rows.length m :: if b.profiled then reports.map .report else [])

/-- The state after the loop. -/
def loop : State B := b.attempts.foldl (attempt N b) .start

def complete : Bool :=
  (loop N b).ok == b.attempts.length && (loop N b).matched == (loop N b).checked

/-- The lines from the first query on. -/
def printed : List (Line B) :=
  let s := loop N b
  let total := b.attempts.length
  s.said ++ [.blank, .summary s.ok total s.totalMs s.checked s.matched,
    .verdict (complete N b) b.sf s.ok total]

/-- What is printed, and the exit code. -/
def main : List (List Char) × Nat :=
  ((printed N b).map (Line.text N), if complete N b then 0 else 1)

end Suite
