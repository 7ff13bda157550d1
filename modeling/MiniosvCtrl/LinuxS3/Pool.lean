import Mathlib.Data.Fintype.Prod
import MiniosvCtrl.Infra.Run
import MiniosvCtrl.LinuxS3.RunConn

/-!
# The block pool and the barriers of linux-s3

`main` starts one thread for each worker and connection. Every thread takes blocks from one
pool until it is empty and runs a connection for each; the `C` threads of a worker meet once at
the worker's barrier, inside their first `run_conn` or, if they drew nothing, after the loop.
Each atomic operation of a thread is one step, and the threads' steps interleave freely. A step
carries the time at which it is taken.
-/

namespace LinuxS3

/-! ## std's barrier -/

/-- The state behind a `Barrier`'s lock. -/
structure Barrier where
  count : Nat
  generation : Nat
  deriving DecidableEq, Repr

def Barrier.new : Barrier := { count := 0, generation := 0 }

/--
`Barrier::wait` up to the point where the thread blocks. The result is the generation it waits
out, or `none` for the leader, the arrival that completes `numThreads`.
-/
def Barrier.wait (numThreads : Nat) (b : Barrier) : Barrier × Option Nat :=
  if b.count + 1 < numThreads then
    ({ b with count := b.count + 1 }, some b.generation)
  else
    ({ count := 0, generation := b.generation + 1 }, none)

/-! ## The threads -/

/-- A thread: its worker and its index among the worker's connections. -/
abbrev Slot (c : Config) := Fin c.workers.toNat × Fin c.connsPerWorker.toNat

/--
Where a thread is. At the barrier, `some b` means inside `run_conn` for block `b` and `none`
means after the loop.
-/
inductive Phase
  | fetching
  | arriving (block : Option UInt64)
  | waiting (block : Option UInt64) (generation : Nat)
  /-- Leads its barrier and has yet to store `worker_start`. -/
  | leading (block : UInt64)
  | running (block : UInt64)
  /-- Found the pool empty. -/
  | emptied
  /-- Read the clock for `first_idle`. -/
  | idling (now : Nat)
  | left
  deriving DecidableEq, Repr

/-- After the barrier, for a thread that waited. -/
def Phase.passed : Option UInt64 → Phase
  | some b => .running b
  | none => .left

/-- After the barrier, for its leader. -/
def Phase.leads : Option UInt64 → Phase
  | some b => .leading b
  | none => .left

structure State (c : Config) where
  /-- `next_block`. -/
  nextBlock : UInt64
  firstIdle : Nat
  workerStart : Fin c.workers.toNat → Nat
  barriers : Fin c.workers.toNat → Barrier
  phase : Slot c → Phase
  outs : Slot c → List Outcome
  /-- Time since `epoch`. -/
  clock : Nat

def State.init (c : Config) : State c :=
  { nextBlock := 0
    firstIdle := 0
    workerStart := fun _ => 0
    barriers := fun _ => Barrier.new
    phase := fun _ => .fetching
    outs := fun _ => []
    clock := 0 }

/-- One atomic operation of a thread. -/
inductive Act
  /-- `pool.fetch_add(1)` returned this block. -/
  | fetch (block : UInt64)
  | arrive
  /-- Returns from `Barrier::wait` after another thread led. -/
  | wake
  /-- The leader stores `worker_start`. -/
  | start
  | finish (block : UInt64) (e : ConnEnd)
  /-- Reads the clock for `first_idle`. -/
  | look
  /-- `idle.compare_exchange(0, now)`. -/
  | publish
  deriving DecidableEq, Repr

structure Event (c : Config) where
  slot : Slot c
  act : Act
  now : Nat
  deriving DecidableEq

variable {c : Config}

def State.setPhase (s : State c) (i : Slot c) (ph : Phase) : State c :=
  { s with phase := Function.update s.phase i ph }

def State.setBarrier (s : State c) (w : Fin c.workers.toNat) (b : Barrier) : State c :=
  { s with barriers := Function.update s.barriers w b }

def State.push (s : State c) (i : Slot c) (out : Outcome) : State c :=
  { s with outs := Function.update s.outs i (s.outs i ++ [out]) }

def State.tick (s : State c) (now : Nat) : State c :=
  { s with clock := now }

/-- One step of one thread. -/
inductive Step : State c → Event c → State c → Prop
  | draw {s : State c} {i : Slot c} {now : Nat} : s.clock ≤ now → s.phase i = .fetching →
      s.nextBlock < c.totalBlocks →
      Step s ⟨i, .fetch s.nextBlock, now⟩
        (({ s with nextBlock := s.nextBlock + 1 }.setPhase i
          -- only a slot's first block brings the barrier along
          (if (s.outs i).isEmpty then .arriving (some s.nextBlock)
            else .running s.nextBlock)).tick now)
  | drain {s : State c} {i : Slot c} {now : Nat} : s.clock ≤ now → s.phase i = .fetching →
      c.totalBlocks ≤ s.nextBlock →
      Step s ⟨i, .fetch s.nextBlock, now⟩
        (({ s with nextBlock := s.nextBlock + 1 }.setPhase i .emptied).tick now)
  | look {s : State c} {i : Slot c} {now : Nat} : s.clock ≤ now → s.phase i = .emptied →
      Step s ⟨i, .look, now⟩ ((s.setPhase i (.idling now)).tick now)
  | publish {s : State c} {i : Slot c} {now t : Nat} : s.clock ≤ now → s.phase i = .idling t →
      Step s ⟨i, .publish, now⟩
        (({ s with firstIdle := if s.firstIdle = 0 then t else s.firstIdle }.setPhase i
          (if (s.outs i).isEmpty then .arriving none else .left)).tick now)
  | arriveWait {s : State c} {i : Slot c} {now g : Nat} {blk : Option UInt64} {b : Barrier} :
      s.clock ≤ now → s.phase i = .arriving blk →
      (s.barriers i.1).wait c.connsPerWorker.toNat = (b, some g) →
      Step s ⟨i, .arrive, now⟩ (((s.setBarrier i.1 b).setPhase i (.waiting blk g)).tick now)
  | arriveLead {s : State c} {i : Slot c} {now : Nat} {blk : Option UInt64} {b : Barrier} :
      s.clock ≤ now → s.phase i = .arriving blk →
      (s.barriers i.1).wait c.connsPerWorker.toNat = (b, none) →
      Step s ⟨i, .arrive, now⟩ (((s.setBarrier i.1 b).setPhase i (.leads blk)).tick now)
  | wake {s : State c} {i : Slot c} {now g : Nat} {blk : Option UInt64} : s.clock ≤ now →
      s.phase i = .waiting blk g → (s.barriers i.1).generation ≠ g →
      Step s ⟨i, .wake, now⟩ ((s.setPhase i (.passed blk)).tick now)
  | start {s : State c} {i : Slot c} {now : Nat} {b : UInt64} : s.clock ≤ now →
      s.phase i = .leading b →
      Step s ⟨i, .start, now⟩
        (({ s with workerStart := Function.update s.workerStart i.1 now }.setPhase i
          (.running b)).tick now)
  | finish {s : State c} {i : Slot c} {now : Nat} {b : UInt64} {e : ConnEnd} : s.clock ≤ now →
      s.phase i = .running b →
      Step s ⟨i, .finish b e, now⟩
        (((s.push i (c.outcome i.1 b now e)).setPhase i .fetching).tick now)

/-- Every thread has left, so `main` has joined them all. -/
def Finished (s : State c) : Prop := ∀ i, s.phase i = .left

/-- The threads in the order `main` starts and joins them. -/
def slots (c : Config) : List (Slot c) :=
  (List.finRange c.workers.toNat).flatMap fun w =>
    (List.finRange c.connsPerWorker.toNat).map fun k => (w, k)

/-- `outcomes`, once every thread is joined. -/
def collected (s : State c) : List Outcome :=
  (slots c).flatMap s.outs

/-- `full`: `worker_start.iter().map(|w| w.load()).max().unwrap_or(0)`. -/
def State.full (s : State c) : Nat :=
  ((List.finRange c.workers.toNat).map s.workerStart).max?.getD 0

/-! ## What a run's events say -/

/-- The blocks fetched from the pool, in order. -/
def fetched (l : List (Event c)) : List UInt64 :=
  l.filterMap fun ev =>
    match ev.act with
    | .fetch b => some b
    | _ => none

/-- The fetches that drew a block, with the thread that made them. -/
def drawn (l : List (Event c)) : List (Slot c × UInt64) :=
  l.filterMap fun ev =>
    match ev.act with
    | .fetch b => if b < c.totalBlocks then some (ev.slot, b) else none
    | _ => none

/-- The threads that found the pool empty. -/
def emptyHanded (l : List (Event c)) : List (Slot c) :=
  l.filterMap fun ev =>
    match ev.act with
    | .fetch b => if b < c.totalBlocks then none else some ev.slot
    | _ => none

/-- The arrivals at the barrier of worker `w`. -/
def received (w : Fin c.workers.toNat) (l : List (Event c)) : List (Fin c.connsPerWorker.toNat) :=
  l.filterMap fun ev =>
    match ev.act with
    | .arrive => if ev.slot.1 = w then some ev.slot.2 else none
    | _ => none

/-- A connection that ended: its thread, its block, when and how. -/
structure Ending (c : Config) where
  slot : Slot c
  block : UInt64
  now : Nat
  how : ConnEnd
  deriving DecidableEq

/-- The outcome `run_conn` returned for it. -/
def Ending.outcome (e : Ending c) : Outcome := c.outcome e.slot.1 e.block e.now e.how

def endings (l : List (Event c)) : List (Ending c) :=
  l.filterMap fun ev =>
    match ev.act with
    | .finish b e => some ⟨ev.slot, b, ev.now, e⟩
    | _ => none

end LinuxS3
