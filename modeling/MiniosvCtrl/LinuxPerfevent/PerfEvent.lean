import MiniosvCtrl.Infra.Descriptors

/-!
# The counters of PerfEvent.hpp

A `PerfEvent` opens one descriptor for each counter it registers: seven on every machine, and
those of AMD's uncore units that `/sys` lists. pmc-perfevent closes all but two of them, runs a
region, and lets the destructor close the two.

* `readFile` — the numbers of a file under `/sys`
* `counters` — what the constructor registers
* `construct`, `prune`, `destruct` — the life of a `PerfEvent`
* `region`, `regions` — the loop of `main`

The values that are read and what is computed from them are floating point and left out.
-/

namespace PerfEvent

open Infra

/-! ## Files under `/sys` -/

/-- `isspace` -/
def isSpace (c : Char) : Bool := c = ' ' || ('\t' ≤ c && c ≤ '\r')

/-- `std::stoi`: `none` where it throws. -/
def stoi (text : List Char) : Option Int :=
  let text := text.dropWhile isSpace
  let negative := text.head? = some '-'
  let digits := (if negative ∨ text.head? = some '+' then text.tail else text).takeWhile
    Char.isDigit
  let n := digits.foldl (fun n c => n * 10 + (c.toNat - '0'.toNat)) 0
  let value : Int := if negative then -n else n
  if digits = [] ∨ value < -0x80000000 ∨ 0x80000000 ≤ value then none else some value

/-- `readFile`: the numbers of the first line; a file that is not there is empty. -/
def readFile (text : List Char) : List Int :=
  ((text.takeWhile (· != '\n')).splitOn ',').filterMap stoi

/-- What a machine has under `/sys/bus/event_source/devices`. -/
structure Machine where
  /-- `amd_l3/type` and `amd_l3/cpumask` -/
  l3 : List Char × List Char
  /-- `amd_umc_0/type` and `amd_umc_0/cpumask`, and so on. -/
  umc : List (List Char × List Char)

/-! ## Counters -/

/-- What `registerCounter` is given, and the process and CPU to count. -/
structure Counter where
  name : String
  type : Int
  config : UInt64
  excludeUser : Bool
  pid : Int
  cpu : Int
  deriving DecidableEq, Repr

/-- The counters of every machine count the calling process. -/
def Counter.own (name : String) (type : Int) (config : UInt64) (excludeUser : Bool) : Counter :=
  ⟨name, type, config, excludeUser, 0, -1⟩

/-- `PERF_TYPE_HARDWARE`, `PERF_TYPE_SOFTWARE` and `PERF_TYPE_HW_CACHE` -/
def hardware : Int := 0

def software : Int := 1

def hwCache : Int := 3

/-- The seven counters. -/
def defaults : List Counter :=
  [.own "cycle" hardware 0 false, .own "kcycle" hardware 0 true, .own "instr" hardware 1 false,
    .own "L1-miss" hwCache 0x10000 false, .own "c-miss" hardware 3 false,
    .own "br-miss" hardware 5 false, .own "task" software 1 false]

/-- `allFlags` -/
def allFlags : UInt64 :=
  ((3 : UInt64) <<< 56) ||| ((3 : UInt64) <<< 48) ||| ((1 : UInt64) <<< 47) |||
    ((1 : UInt64) <<< 46)

def l3Counters (type cpuMask : Int) : List Counter :=
  [⟨"L3-miss" ++ toString cpuMask, type, 0x104, false, -1, cpuMask⟩,
    ⟨"DRAM-latc" ++ toString cpuMask, type, allFlags ||| 0x1ac, false, -1, cpuMask⟩,
    ⟨"DRAM-latr" ++ toString cpuMask, type, allFlags ||| 0x1ad, false, -1, cpuMask⟩]

def umcCounters (i : Nat) (type cpuMask : Int) : List Counter :=
  [⟨"UMC-rd" ++ toString i, type, 0x10a, false, -1, cpuMask⟩,
    ⟨"UMC-wr" ++ toString i, type, 0x20a, false, -1, cpuMask⟩]

/-- A unit is there when its type is one number. -/
def unit (files : List Char × List Char) (counters : Int → Int → List Counter) :
    Option (List Counter) :=
  match readFile files.1 with
  | [type] => some ((readFile files.2).flatMap (counters type))
  | _ => none

/-- The loop over `amd_umc_i`, which the first that is not there ends. -/
def umcUnits (i : Nat) : List (List Char × List Char) → List Counter
  | [] => []
  | files :: rest =>
    match unit files (umcCounters i) with
    | some counters => counters ++ umcUnits (i + 1) rest
    | none => []

/-- What the constructor registers, in order. -/
def counters (m : Machine) : List Counter :=
  defaults ++ (unit m.l3 l3Counters).getD [] ++ umcUnits 0 m.umc

/-! ## The process -/

/-- What `perf_event_open` may do: a descriptor it returns was not open. -/
structure Kernel where
  /-- Of the n-th call, given what is open. -/
  grant : Nat → List Nat → Counter → Option Nat
  fresh : ∀ n isOpen c fd, grant n isOpen c = some fd → fd ∉ isOpen

structure Process where
  calls : Nat
  fds : Fds
  deriving DecidableEq, Repr

variable (k : Kernel)

def perfEventOpen (p : Process) (c : Counter) : Process × Int :=
  match k.grant p.calls p.fds.isOpen c with
  | some fd => (⟨p.calls + 1, p.fds.grant fd⟩, fd)
  | none => (⟨p.calls + 1, p.fds⟩, -1)

/-- A registered counter with what its open returned. -/
structure Event extends Counter where
  fd : Int
  deriving DecidableEq, Repr

def openAll (p : Process) : List Counter → Process × List Event
  | [] => (p, [])
  | c :: rest =>
    let (p, fd) := perfEventOpen k p c
    let (p, events) := openAll p rest
    (p, ⟨c, fd⟩ :: events)

/-- A `PerfEvent`: its events, and the line of a constructor that gave up. -/
structure Counters where
  events : List Event
  error : Option String
  deriving DecidableEq, Repr

namespace Counters

/-- `events[i].fd`, of all events. -/
def fds (e : Counters) : List Int := e.events.map Event.fd

/-- The constructor: after one failed open, all that did open are closed. -/
def construct (m : Machine) (p : Process) : Process × Counters :=
  let (p, events) := openAll k p (counters m)
  match events.find? fun e => decide (e.fd < 0) with
  | some e =>
    ({ p with fds := p.fds.closeAll ((events.map Event.fd).filter fun fd => decide (0 ≤ fd)) },
      ⟨[], some ("Error opening counter " ++ e.name)⟩)
  | none => (p, ⟨events, none⟩)

/-- `keep` -/
def keep : List String := ["instr", "br-miss"]

def kept (e : Counters) : List Event := keep.flatMap fun name => e.events.filter (·.name = name)

/-- `prune`: what no kept event has the name of is closed. -/
def prune (e : Counters) (p : Process) : Process × Counters :=
  let gone := e.events.filter fun ev => !e.kept.any (·.name = ev.name) && ev.fd != -1
  ({ p with fds := p.fds.closeAll (gone.map Event.fd) }, { e with events := e.kept })

/-- `~PerfEvent` -/
def destruct (e : Counters) (p : Process) : Process := { p with fds := p.fds.closeAll e.fds }

end Counters

/-- The counters of one region, from before it starts until it stopped. -/
def region (m : Machine) (p : Process) : Process × Counters :=
  let (p, e) := Counters.construct k m p
  e.prune p

/-- The loop of `main`, over its sizes and repetitions: one `PerfEvent` after another. -/
def regions (m : Machine) (p : Process) : Nat → Process
  | 0 => p
  | n + 1 =>
    let (p, e) := region k m p
    regions m (e.destruct p) n

end PerfEvent
