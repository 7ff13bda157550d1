import Mathlib.Algebra.Order.Field.Rat
import Mathlib.Data.List.DropRight
import MiniosvCtrl.Infra.Dicts
import MiniosvCtrl.Infra.RoundRobin
import MiniosvCtrl.Queue.EndChild

/-!
# What every guest script starts with

The helpers that the driver puts in front of a bench's `instance.py`, as far as they confine a run
to some cores and say what the machine did. Files are texts, and whether a file can be written is
up to the machine.

* `capCores` — the IRQs and the transmit queues on the cores of the budget
* `percpu`, `reportCpuBudget` — the cores that were busy, in the budget and outside it
* `budgetOf` — both around a run

The lines are printed by `say`. The figures of the budget are the fractions that `float` stands
for.
-/

namespace Prelude

open Infra Runner EndChild

variable (B : Builtins)

/-! ## Texts -/

/-- `t.strip()` -/
def strip (t : List Char) : List Char := (t.dropWhile isSpace).rdropWhile isSpace

/-- Where `str.splitlines` breaks, once `"\r\n"` and `"\r"` were read as `"\n"`. -/
def isBreak (c : Char) : Bool :=
  c = '\n' || c = '\x0b' || c = '\x0c' || (28 ≤ c.toNat && c.toNat ≤ 30) || c.toNat = 0x85 ||
    c.toNat = 0x2028 || c.toNat = 0x2029

/-- `t.splitlines()` -/
def splitlines (t : List Char) : List (List Char) :=
  let ls := t.splitOnP isBreak
  if ls.getLast? = some [] then ls.dropLast else ls

/-- `read(path)`, of a file with this text, or of none. -/
def read (file : Option (List Char)) : List Char := strip (file.getD [])

/-- `t.isdigit()`, but for the digits that are no decimals. -/
def isDigits (t : List Char) : Bool := t ≠ [] && t.all B.digit

/-- `line.partition(":")`, before and after it. -/
def partition (line : List Char) : List Char × List Char :=
  (line.takeWhile (· != ':'), (line.dropWhile (· != ':')).drop 1)

/-! ## `cap_cores` -/

/-- The files that `cap_cores` finds, and whether it can write to one. -/
structure Nic where
  iface : List Char
  /-- `/proc/interrupts` -/
  interrupts : Option (List Char)
  /-- `os.listdir` of the interface's queues, if there is such a directory. -/
  queues : List String
  writable : List Char → Bool

namespace Nic

variable (m : Nic)

/-- The IRQ of a line, if it is one of the interface's. -/
def irqOf (line : List Char) : Option (List Char) :=
  if m.iface <:+: line ∧ ':' ∈ line then
    let irq := strip (partition line).1
    if isDigits B irq then some irq else none
  else none

def irqs : List (List Char) := (splitlines (read m.interrupts)).filterMap (m.irqOf B)

def affinityPath (irq : List Char) : List Char :=
  "/proc/irq/".toList ++ irq ++ "/smp_affinity_list".toList

/-- The transmit queues, as `sorted` orders them. -/
def txQueues : List String :=
  (m.queues.mergeSort fun a b => decide (a ≤ b)).filter ("tx-".isPrefixOf ·)

def xpsPath (q : String) : List Char :=
  "/sys/class/net/".toList ++ m.iface ++ "/queues/".toList ++ q.toList ++ "/xps_cpus".toList

end Nic

/-- What was written: the CPU of each IRQ, and the mask of each queue. -/
structure Capped where
  affinity : List (List Char × Nat)
  /-- `format(1 << cpu, "x")` -/
  xps : List (List Char × Nat)
  deriving DecidableEq, Repr

/-- `cap_cores(iface, n)`: an IRQ or a queue that cannot be written is passed over. -/
def capCores (m : Nic) (n : Nat) : Capped :=
  { affinity := spread m.writable n 0 ((m.irqs B).map Nic.affinityPath)
    xps := (spread m.writable n 0 (m.txQueues.map m.xpsPath)).map fun p => (p.1, 1 <<< p.2) }

/-! ## `percpu` -/

/-- Busy and total jiffies. -/
structure Jiffies where
  busy : Int
  total : Int
  deriving DecidableEq, Repr

/-- What a line of `/proc/stat` says, if it is a CPU's; an `error` is an exception. -/
def cpuLine (line : List Char) : Except Unit (Option (Nat × Jiffies)) :=
  match words line with
  | [] => .ok none
  | name :: fields =>
    if ¬ "cpu".toList <+: name ∨ name = "cpu".toList then .ok none
    else
      match fields.mapM B.int with
      | none => .error ()
      | some v =>
        match (v[3]? : Option Nat), B.int (name.drop 3) with
        | some idle, some cpu => .ok (some (cpu, ⟨v.sum - idle - v.getD 4 0, v.sum⟩))
        | _, _ => .error ()

/-- `d[k] = v` -/
def put {κ α : Type} [DecidableEq κ] (d : List (κ × α)) (k : κ) (v : α) : List (κ × α) :=
  upsert k v (fun _ => v) d

/-- `percpu()`, of `/proc/stat`. -/
def percpu (stat : Option (List Char)) : Except Unit (List (Nat × Jiffies)) := do
  let rows ← (splitlines (read stat)).mapM (cpuLine B)
  return (rows.filterMap id).foldl (fun out e => put out e.1 e.2) []

/-! ## `report_cpu_budget` -/

/-- The cores that were busy, and those outside the budget by name. -/
structure Budget where
  inside : Rat
  outside : Rat
  hot : List (Nat × Rat)
  deriving DecidableEq, Repr

/-- `before.get(cpu, (0, 0))` -/
def since (before : List (Nat × Jiffies)) (cpu : Nat) : Jiffies :=
  (before.lookup cpu).getD ⟨0, 0⟩

/-- The busy fraction of a CPU; `none`: no time has passed. -/
def fraction (b a : Jiffies) : Option Rat :=
  if a.total - b.total ≤ 0 then none
  else some ((a.busy - b.busy : Int) / (a.total - b.total : Int))

/-- The busy fraction goes to the one sum or the other; a budget of 0 is every CPU. -/
def Budget.add (n : Nat) (s : Budget) (cpu : Nat) (frac : Rat) : Budget :=
  if n ≠ 0 ∧ n ≤ cpu then
    { s with
      outside := s.outside + frac
      hot := if 2 / 100 < frac then s.hot ++ [(cpu, frac)] else s.hot }
  else { s with inside := s.inside + frac }

/-- One CPU of the loop. -/
def Budget.step (before : List (Nat × Jiffies)) (n : Nat) (s : Budget) (e : Nat × Jiffies) :
    Budget :=
  match fraction (since before e.1) e.2 with
  | some frac => s.add n e.1 frac
  | none => s

def reportCpuBudget (before after : List (Nat × Jiffies)) (n : Nat) : Budget :=
  (after.mergeSort fun a b => decide (a.1 ≤ b.1)).foldl (Budget.step before n) ⟨0, 0, []⟩

/-- `cpu0 = percpu()`, the run, and `report_cpu_budget(cpu0, percpu(), n)`. -/
def budgetOf (stat₀ stat₁ : Option (List Char)) (n : Nat) : Except Unit Budget := do
  let before ← percpu B stat₀
  let after ← percpu B stat₁
  return reportCpuBudget before after n

end Prelude
