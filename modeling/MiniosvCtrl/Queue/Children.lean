import MiniosvCtrl.Infra.Run
import MiniosvCtrl.Queue.Main

/-!
# The runner's children

The threads of a queue's runner, each in its `run_one`, with the table in which they register what
they spawn: `Arms` with the threads' program points in place of what the children do. What a child
does is exit, at any time and with any code. Each poll, each read of `self.stopping` or of the
clock, each section under the lock and each signal is one step, and the threads' steps interleave
freely.

* `Pc` — where a thread is
* `State` — the table, the processes, the threads and what `main` does
* `Step` — a step of a thread, of `main` or of a child
-/

namespace Children

open Arms

/-- A queue, with `experiment.qualified` of each experiment's path. -/
structure Setup where
  q : Arms.Setup
  name : q.Index → String

abbrev ChildId := Nat

/-- A child that some `run_one` spawned. -/
structure Proc (u : Setup) where
  /-- The call that spawned it. -/
  call : Call u.q
  /-- Its return code, once it has exited. -/
  exited : Option Int
  /-- `end_child` sent `SIGTERM` to it, and to what it had started, while it ran. -/
  signalled : Bool

/-- What `run_one` returns. -/
inductive Result
  | done | failed
  | early (v : Early)
  deriving DecidableEq, Repr

/-- The status that `run_one` leaves, for the one that it finds. -/
def Result.status (st : Status) : Result → Status
  | .done => .done
  | .failed => .failed
  | .early .credentials => .credentialsExpired
  | .early _ => st

/-- The queue goes on after it. -/
def Result.goesOn : Result → Bool
  | .early _ => false
  | _ => true

/-- Where a thread is in `run_one` and `end_child`. -/
inductive Pc
  /-- At `if self.stopping`. -/
  | top
  /-- At `if now() >= self.deadline()`. -/
  | clock
  /-- At `subprocess.Popen`. -/
  | ready
  /-- At `self.children[x["name"]] = child`. -/
  | spawned (k : ChildId)
  /-- At `child.poll()`. -/
  | polling (k : ChildId)
  /-- The child runs; at `if self.stopping or now() >= self.deadline()`. -/
  | checking (k : ChildId)
  /-- At `end_child`'s lock. -/
  | taking (k : ChildId)
  /-- The children that `end_child` took and has still to signal. -/
  | signalling (k : ChildId) (todo : List ChildId)
  /-- At `self.children.pop(x["name"], None)`. -/
  | exited (k : ChildId)
  /-- Reads the exit code and the log. -/
  | judging (k : ChildId)
  /-- Waits for spot. -/
  | backoff
  deriving DecidableEq, Repr

/-- Where `main` is. -/
inductive Main
  /-- In its loops. -/
  | working
  /-- Has a verdict, and calls `end_child`. -/
  | ending
  | signalling (todo : List ChildId)
  /-- Calls `sweep`. -/
  | sweeping
  /-- Rewrites the statuses. -/
  | closing
  | returned
  deriving DecidableEq, Repr

structure State (u : Setup) where
  /-- `self.children`. -/
  table : List (String × ChildId)
  procs : ChildId → Option (Proc u)
  next : ChildId
  thread : u.q.Index → Option (Call u.q × Pc)
  status : u.q.Index → Status
  /-- What calls of this batch returned, by the experiment's name. -/
  results : String → Option Result
  batches : List (List (Call u.q))
  due : List (Call u.q)
  pending : List (Call u.q)
  verdict : Option Early
  stopping : Bool
  /-- The deadline is past. -/
  expired : Bool
  main : Main

variable {u : Setup}

namespace State

variable (s : State u)

def init (u : Setup) : State u :=
  { table := [], procs := fun _ => none, next := 0, thread := fun _ => none
    status := fun _ => .queued, results := fun _ => none, batches := u.q.batches, due := []
    pending := [], verdict := none, stopping := false, expired := false, main := .working }

def setThread (i : u.q.Index) (c : Call u.q) (pc : Pc) : State u :=
  { s with thread := Function.update s.thread i (some (c, pc)) }

def setStatus (i : u.q.Index) (st : Status) : State u :=
  { s with status := Function.update s.status i st }

/-- No call is running. -/
def Idle : Prop := ∀ i, s.thread i = none

def Runs (k : ChildId) : Prop := ∃ p, s.procs k = some p ∧ p.exited = none

def Exited (k : ChildId) (rc : Int) : Prop := ∃ p, s.procs k = some p ∧ p.exited = some rc

/-- `subprocess.Popen` -/
def spawn (c : Call u.q) : State u :=
  { s with
    procs := Function.update s.procs s.next (some { call := c, exited := none, signalled := false })
    next := s.next + 1 }

/-- `self.children[name] = child` -/
def register (name : String) (k : ChildId) : State u :=
  { s with table := s.table.filter (·.1 ≠ name) ++ [(name, k)] }

/-- `self.children.pop(name, None)` -/
def pop (name : String) : State u := { s with table := s.table.filter (·.1 ≠ name) }

/-- `SIGTERM`; a child that has exited is none the wiser. -/
def signal (k : ChildId) : State u :=
  { s with
    procs := Function.update s.procs k
      ((s.procs k).map fun p => if p.exited = none then { p with signalled := true } else p) }

def exit (k : ChildId) (rc : Int) : State u :=
  { s with
    procs := Function.update s.procs k ((s.procs k).map fun p => { p with exited := some rc }) }

/-- `x["status"] != "failed"`, and in the last pass `x["status"] == "done"` -/
def isDue (c : Call u.q) : Bool :=
  match c.pass with
  | .whole => true
  | .point _ => s.status c.arm ≠ .failed
  | .plots => s.status c.arm = .done

/--
The call `c` of experiment `i` returns `r`. The loop over the members breaks, unless each has a
thread of its own; the pass that only plots does not look.
-/
def ret (i : u.q.Index) (c : Call u.q) (r : Result) : State u :=
  { s with
    thread := Function.update s.thread i none
    status := Function.update s.status i (r.status (s.status i))
    results :=
      if c.pass = .plots then s.results else Function.update s.results (u.name i) (some r)
    pending :=
      if r.goesOn ∨ c.pass = .plots ∨ u.q.concurrent = true then s.pending else [] }

/-- What a call's result says of the verdict. -/
def early (c : Call u.q) : Option Early :=
  match s.results (u.name c.arm) with
  | some (.early v) => some v
  | _ => none

/-- The verdict of the batch: the last member's that did not go on. -/
def batchVerdict : Option Early := s.due.foldl (fun v c => (s.early c).or v) none

end State

/-- The moves of a thread that change nothing but its program point. -/
inductive Moves (s : State u) : Pc → Pc → Prop
  | pass : s.stopping = false → Moves s .top .clock
  | runs {k : ChildId} : s.Runs k → Moves s (.polling k) (.checking k)
  | gone {k : ChildId} {rc : Int} : s.Exited k rc → Moves s (.polling k) (.exited k)
  | goOn {k : ChildId} : s.stopping = false → s.expired = false →
      Moves s (.checking k) (.polling k)
  | giveUp {k : ChildId} : s.stopping = true ∨ s.expired = true →
      Moves s (.checking k) (.taking k)
  | retry : Moves s .backoff .top

/-- Where `run_one` returns, and what. -/
inductive Returns (s : State u) : Pc → Result → Prop
  | stopped : s.stopping = true → Returns s .top (.early .stopped)
  | expired : s.expired = true → Returns s .clock (.early .expired)
  | ended {k : ChildId} : s.stopping = true → Returns s (.signalling k []) (.early .stopped)
  | late {k : ChildId} : s.stopping = false → Returns s (.signalling k []) (.early .expired)
  | done {k : ChildId} : s.Exited k 0 → Returns s (.judging k) .done
  | credentials {k : ChildId} {rc : Int} : s.Exited k rc → rc ≠ 0 →
      Returns s (.judging k) (.early .credentials)
  | failed {k : ChildId} {rc : Int} : s.Exited k rc → rc ≠ 0 → Returns s (.judging k) .failed

inductive Event (u : Setup)
  | stop | expire
  | exit (k : ChildId) (rc : Int)
  | begin
  | enter (c : Call u.q)
  | move (i : u.q.Index) (pc : Pc)
  /-- The attempt begins. -/
  | start (i : u.q.Index)
  | spawn (i : u.q.Index)
  | register (i : u.q.Index)
  | take (i : u.q.Index)
  | signal (i : u.q.Index) (k : ChildId)
  | pop (i : u.q.Index)
  /-- The log says that spot refused. -/
  | refuse (i : u.q.Index)
  | ret (i : u.q.Index) (r : Result)
  | close
  | conclude | mainTake
  | mainSignal (k : ChildId)
  | mainGo | sweep | finish

inductive Step : State u → Event u → State u → Prop
  | stop {s : State u} : Step s .stop { s with stopping := true }
  | expire {s : State u} : Step s .expire { s with expired := true }
  | exit {s : State u} {k : ChildId} {rc : Int} : s.Runs k → Step s (.exit k rc) (s.exit k rc)
  | begin {s : State u} {b : List (Call u.q)} {rest : List (List (Call u.q))} :
      s.main = .working → s.batches = b :: rest → s.due = [] → s.pending = [] → s.Idle →
      Step s .begin
        { s with
          batches := rest, due := b.filter s.isDue, pending := b.filter s.isDue
          results := fun _ => none }
  | enter {s : State u} {c : Call u.q} {rest : List (Call u.q)} : s.pending = c :: rest →
      s.thread c.arm = none → (u.q.concurrent = true ∨ s.Idle) →
      Step s (.enter c) { s.setThread c.arm c .top with pending := rest }
  | move {s : State u} {i : u.q.Index} {c : Call u.q} {pc pc' : Pc} :
      s.thread i = some (c, pc) → Moves s pc pc' → Step s (.move i pc') (s.setThread i c pc')
  | start {s : State u} {i : u.q.Index} {c : Call u.q} : s.thread i = some (c, .clock) →
      s.expired = false → Step s (.start i) ((s.setStatus i .running).setThread i c .ready)
  | spawn {s : State u} {i : u.q.Index} {c : Call u.q} : s.thread i = some (c, .ready) →
      Step s (.spawn i) ((s.spawn c).setThread i c (.spawned s.next))
  | register {s : State u} {i : u.q.Index} {c : Call u.q} {k : ChildId} :
      s.thread i = some (c, .spawned k) →
      Step s (.register i) ((s.register (u.name i) k).setThread i c (.polling k))
  | take {s : State u} {i : u.q.Index} {c : Call u.q} {k : ChildId} :
      s.thread i = some (c, .taking k) →
      Step s (.take i) ({ s with table := [] }.setThread i c (.signalling k (s.table.map Prod.snd)))
  | signal {s : State u} {i : u.q.Index} {c : Call u.q} {k x : ChildId} {todo : List ChildId} :
      s.thread i = some (c, .signalling k (x :: todo)) →
      Step s (.signal i x) ((s.signal x).setThread i c (.signalling k todo))
  | pop {s : State u} {i : u.q.Index} {c : Call u.q} {k : ChildId} :
      s.thread i = some (c, .exited k) →
      Step s (.pop i) ((s.pop (u.name i)).setThread i c (.judging k))
  | refuse {s : State u} {i : u.q.Index} {c : Call u.q} {k : ChildId} {rc : Int} :
      s.thread i = some (c, .judging k) → s.Exited k rc → rc ≠ 0 →
      Step s (.refuse i) ((s.setStatus i .waiting).setThread i c .backoff)
  | ret {s : State u} {i : u.q.Index} {c : Call u.q} {pc : Pc} {r : Result} :
      s.thread i = some (c, pc) → Returns s pc r → Step s (.ret i r) (s.ret i c r)
  | close {s : State u} : s.due ≠ [] → s.pending = [] → s.Idle →
      Step s .close
        { s with
          due := [], verdict := s.batchVerdict
          batches := if s.batchVerdict.isSome then [] else s.batches }
  | conclude {s : State u} : s.main = .working → s.batches = [] → s.due = [] → s.pending = [] →
      s.Idle →
      Step s .conclude { s with main := if s.verdict.isSome then .ending else .closing }
  | mainTake {s : State u} : s.main = .ending →
      Step s .mainTake { s with table := [], main := .signalling (s.table.map Prod.snd) }
  | mainSignal {s : State u} {x : ChildId} {todo : List ChildId} :
      s.main = .signalling (x :: todo) →
      Step s (.mainSignal x) { s.signal x with main := .signalling todo }
  | mainGo {s : State u} : s.main = .signalling [] →
      -- no sweep is possible without credentials
      Step s .mainGo
        { s with main := if s.verdict = some .credentials then .closing else .sweeping }
  | sweep {s : State u} : s.main = .sweeping → Step s .sweep { s with main := .closing }
  | finish {s : State u} : s.main = .closing →
      Step s .finish { s with main := .returned, status := fun i => (s.status i).final s.verdict }

end Children
