import Mathlib.Data.Finset.Card
import Mathlib.Data.List.DropRight
import MiniosvCtrl.Infra.Python
import MiniosvCtrl.Runner.Sweep

/-!
# The CPU probe of the duckdb-linux instance

One process of DuckDB runs every step, with its timer on and a marker printed before each. The
times are then taken from what it printed, line by line.

* `Step`, `script` — what DuckDB is given
* `session` — what it prints
* `cpuProbe`
-/

open Infra Runner

namespace Probe

variable (B : Builtins)

/-! ## The script -/

/-- An entry of `PROBE_STEPS`. A name is a word. -/
structure Step where
  name : List Char
  pre : Option String
  sql : String
  name_ne_nil : name ≠ []
  name_solid : ∀ c ∈ name, isSpace c = false

/-- A line of the script. -/
inductive Command
  /-- `.timer on` -/
  | timer
  /-- `.print` -/
  | print (t : List Char)
  | statement (sql : String)

def marker : List Char := "PROBE_BEGIN ".toList

/-- `if pre` -/
def Step.runsPre (s : Step) : Bool := s.pre.any (· ≠ "")

def Step.commands (s : Step) : List Command :=
  (if s.runsPre then [.statement (s.pre.getD "")] else []) ++
    [.print (marker ++ s.name), .statement s.sql]

def script (steps : List Step) : List Command := .timer :: steps.flatMap Step.commands

/-! ## The lines -/

/-- `line.strip()` -/
def stripped (l : List Char) : List Char := (l.dropWhile isSpace).rdropWhile isSpace

/-- `line.split(None, 1)[1]`, of a line that begins with a word. -/
def afterWord (l : List Char) : List Char := (l.dropWhile fun c => !isSpace c).dropWhile isSpace

def isMarker (l : List Char) : Bool := marker.isPrefixOf l

def isTime (l : List Char) : Bool := "Run Time (s):".toList.isPrefixOf l

/-- `real ([\d.]+)\s+user ([\d.]+)\s+sys ([\d.]+)` -/
def times : Regex :=
  .seqs [.text "real ", .group (.plus B.digitOrPoint), .plus isSpace, .text "user ",
    .group (.plus B.digitOrPoint), .plus isSpace, .text "sys ", .group (.plus B.digitOrPoint)]

/-- The seconds of a line that the pattern matches; `none` is a `ValueError`. -/
def figures (groups : Groups) : Option (B.Float × B.Float × B.Float) := do
  let real ← B.float (groups.headD [])
  let user ← B.float ((groups.drop 1).headD [])
  let sys ← B.float ((groups.drop 2).headD [])
  some (real, user, sys)

/-! ## What DuckDB prints -/

/-- Neither a marker nor a time. -/
def Other (l : List Char) : Prop :=
  isMarker (stripped l) = false ∧ isTime (stripped l) = false

/-- A time as the timer prints it. -/
structure Time where
  line : List Char
  seconds : B.Float × B.Float × B.Float
  not_marker : isMarker (stripped line) = false
  is_time : isTime (stripped line) = true
  reads : ((times B).search (stripped line)).map (fun f => figures B f.2) = some (some seconds)

/-- How a statement went: one that fails has no time. -/
structure Outcome where
  before : List (List Char)
  time : Option (Time B)
  after : List (List Char)
  before_other : ∀ l ∈ before, Other l
  after_other : ∀ l ∈ after, Other l

variable {B}

def Outcome.lines (o : Outcome B) : List (List Char) :=
  o.before ++ (o.time.map Time.line).toList ++ o.after

/-- What the commands print, with an outcome for each statement. -/
def session : List Command → List (Outcome B) → List (List Char)
  | [], _ => []
  | .timer :: cs, os => session cs os
  | .print t :: cs, os => t :: session cs os
  | .statement _ :: cs, o :: os => o.lines ++ session cs os
  | .statement _ :: _, [] => []

/-! ## `cpu_probe` -/

/-- A line that is printed. -/
inductive Line (B : Builtins)
  /-- `PROBE: name=... ms=...`, with these seconds in milliseconds -/
  | timed (name : List Char) (seconds : B.Float × B.Float × B.Float)
  /-- `PROBE: name=... FAILED no timing` -/
  | failed (name : List Char)
  | verdict (complete : Bool) (ok total : Nat)

structure State (B : Builtins) where
  /-- Empty: there is none. -/
  pending : List Char
  seen : Finset (List Char)
  said : List (Line B)

def State.start : State B := ⟨[], ∅, []⟩

/-- The loop's body; `none` is a `ValueError`. -/
def readLine (s : State B) (line : List Char) : Option (State B) :=
  let line := stripped line
  if isMarker line then some { s with pending := afterWord line }
  else if s.pending ≠ [] ∧ isTime line then
    match (times B).search line with
    | none => some { s with pending := [] }
    | some f =>
      (figures B f.2).map fun seconds =>
        { pending := []
          seen := insert s.pending s.seen
          said := s.said ++ [.timed s.pending seconds] }
  else some s

/-- What is printed, and the exit code. -/
def cpuProbe (steps : List Step) (lines : List (List Char)) : Option (List (Line B) × Nat) :=
  (lines.foldlM readLine State.start).map fun s =>
    let ok := s.seen.card
    let complete := ok == steps.length
    (s.said ++ ((steps.filter fun step => step.name ∉ s.seen).map fun step => .failed step.name) ++
      [.verdict complete ok steps.length], if complete then 0 else 1)

end Probe
