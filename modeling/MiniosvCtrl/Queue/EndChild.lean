import Mathlib.Data.List.Infix
import MiniosvCtrl.Infra.Python
import MiniosvCtrl.Infra.Utf8
import MiniosvCtrl.Infra.Walk
import MiniosvCtrl.Runner.Sweep

/-!
# `Runner.end_child` and the processes that it signals

What is below a child is read from `/proc`, as it is when the child's turn comes. A deploy is sent
`SIGINT` with all of its group, what else is below the child `SIGTERM` one by one, and then the
child `SIGTERM` with all of its group. A call that raises has reached nobody, and the next one
follows.

* `Entry` — what the loop over `/proc` sees
* `descendants` — the processes below a process, with what they run
* `endChild` — the calls of `os.kill` and `os.killpg`
* `Kill.Reaches` — whom a call signals
-/

namespace EndChild

open Infra Infra.Utf8 Runner

variable (B : Builtins)

/-! ## `descendants` -/

/-- An entry of `/proc`, and what its files hold; `none` is an `OSError`. -/
structure Entry where
  name : List Char
  stat : Option (List UInt8)
  cmdline : Option (List UInt8)

/-- `"\r\n"` and `"\r"` are read as `"\n"`. -/
def newlines : List Char → List Char
  | [] => []
  | c :: t =>
    if c = '\r' then (if t.head? = some '\n' then newlines t else '\n' :: newlines t)
    else c :: newlines t

/-- `read_text()`, of a file with these bytes, in UTF-8; `none` is a `UnicodeDecodeError`. -/
def readText (b : List UInt8) : Option (List Char) := (decode b).map newlines

/-- `t.rsplit(sep, 1)[1]`; `none` is an `IndexError`. -/
def afterLast (sep : Char) : List Char → Option (List Char)
  | [] => none
  | c :: t =>
    match afterLast sep t with
    | some rest => some rest
    | none => if c = sep then some t else none

/-- `t.split()` -/
def words (t : List Char) : List (List Char) := (t.splitOnP isSpace).filter (· ≠ [])

/-- `int(stat.rsplit(")", 1)[1].split()[1])` -/
def ppidOf (stat : List Char) : Option Nat := do
  let rest ← afterLast ')' stat
  let word ← (words rest)[1]?
  B.int word

/-- `b.replace(b"\0", b" ").decode(errors="replace")` -/
def shown (b : List UInt8) : List Char := decodeReplace (b.map fun x => if x = 0 then 0x20 else x)

/-- What is kept of an entry. -/
structure Row where
  pid : Nat
  ppid : Nat
  cmd : List Char

/-- `d.name.isdigit()`, but for the digits that are no decimals, which `int` refuses. -/
def Entry.isDigit (e : Entry) : Bool := e.name ≠ [] && e.name.all B.digit

/-- The body of the loop; `none` goes on to the next entry. -/
def Entry.row (e : Entry) : Option Row :=
  if e.isDigit B then do
    -- `OSError`, `ValueError` (a `UnicodeDecodeError` is one) and `IndexError` are all passed over.
    let stat ← e.stat.bind readText
    let ppid ← ppidOf B stat
    let cmdline ← e.cmdline
    let pid ← B.int e.name
    some ⟨pid, ppid, shown cmdline⟩
  else none

def rows (proc : List Entry) : List Row := proc.filterMap (Entry.row B)

/-- `kids.get(p, [])` -/
def kids (rs : List Row) (p : Nat) : List Nat := (rs.filter (·.ppid == p)).map Row.pid

/-- `cmds.get(k, "")` -/
def cmdOf (rs : List Row) (k : Nat) : List Char :=
  ((rs.reverse.find? (·.pid == k)).map Row.cmd).getD []

/-- `descendants(pid)`; `none` is a loop that has not ended after so many rounds. -/
def descendants (rounds : Nat) (proc : List Entry) (pid : Nat) : Option (List (Nat × List Char)) :=
  let rs := rows B proc
  (walk (kids rs) rounds [pid] []).map fun out => out.map fun k => (k, cmdOf rs k)

/-! ## `end_child` -/

inductive Signal
  | sigint
  | sigterm

inductive Kill
  /-- `os.kill(p, sig)` -/
  | one (p : Nat) (sig : Signal)
  /-- `os.killpg(os.getpgid(p), sig)` -/
  | group (p : Nat) (sig : Signal)

/-- What has been done, and the deploys that are then given 90 s to end. -/
structure Ended where
  kills : List Kill
  deploys : List Nat

/-- `"aws-deploy.py" in cmd` -/
def isDeploy (cmd : List Char) : Bool := "aws-deploy.py".toList <:+: cmd

/-- The calls for one child, where `pids` are below it. -/
def endOne (child : Nat) (pids : List (Nat × List Char)) : Ended :=
  let mine := (pids.filter fun x => isDeploy x.2).map Prod.fst
  let others := (pids.map Prod.fst).filter fun p => p ∉ mine
  { kills := mine.map (.group · .sigint) ++ others.map (.one · .sigterm) ++ [.group child .sigterm]
    deploys := mine }

/-- `end_child`, with the children that the table holds, and `/proc` when each one's turn comes. -/
def endChild (rounds : Nat) : List (Nat × List Entry) → Option Ended
  | [] => some { kills := [], deploys := [] }
  | (child, proc) :: rest => do
    let pids ← descendants B rounds proc child
    let e := endOne child pids
    let later ← endChild rounds rest
    some { kills := e.kills ++ later.kills, deploys := e.deploys ++ later.deploys }

/-! ## What a call does -/

/-- A process as a call finds it. -/
structure Live where
  group : Nat
  /-- The runner is permitted to signal it. -/
  ours : Bool

/--
The call signals `q`, when these processes run. One that raises `ProcessLookupError` or
`PermissionError` signals none.
-/
def Kill.Reaches (running : Nat → Option Live) (q : Nat) : Kill → Prop
  | .one p _ => p = q ∧ ∃ l, running q = some l ∧ l.ours = true
  | .group p _ =>
    ∃ l l', running p = some l ∧ running q = some l' ∧ l.group = l'.group ∧ l'.ours = true

end EndChild
