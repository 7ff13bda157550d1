import MiniosvCtrl.Infra.Run
import MiniosvCtrl.Runner.Done

/-!
# A driver's `main`: a sweep over a CSV

A driver reads its arguments, reads the CSV, and goes through its plan: a run that `done` finds is
skipped, any other is launched, and its rows are appended and the CSV written. After an invalid run
the rest of the plan is abandoned, unless it was told to keep going.

* `Sweep.parse` — the arguments
* `Sweep.plan` — the runs, value by value or rep by rep
* `Process` — a driver between its start and its exit
* `Session` — drivers that run one after another over one CSV
-/

namespace Runner

open Infra

variable {N : Numerals}

/-! ## Arguments -/

/-- An entry of `knobs`, with its entry of `defaults`. -/
structure Knob where
  name : Name
  /-- `none`: the parser raises. -/
  parser : String → Option Value
  default : Value

structure Bench where
  knobs : List Knob
  nodup : (knobs.map Knob.name).Nodup
  not_main : ∀ knob ∈ knobs, knob.name ∉ mainColumns

/-- `INSTANCE_AXIS` -/
def instanceAxis : Name := "instance"

structure Argv where
  /-- `--sweep axis=raw` -/
  axis : Name
  raw : String
  reps : Nat
  inst : String
  /-- `--knob value`, for each knob that is given -/
  held : List (Name × String)
  keepGoing : Bool
  interleave : Bool
  deriving DecidableEq, Repr

/-- `raw.split(",")` -/
def split (raw : String) : List String := (raw.toList.splitOn ',').map String.ofList

/-- `str.isspace`, of one character. -/
def isSpace (c : Char) : Bool :=
  let n := c.toNat
  (9 ≤ n && n ≤ 13) || (28 ≤ n && n ≤ 32) || n = 0x85 || n = 0xa0 || n = 0x1680 ||
    (0x2000 ≤ n && n ≤ 0x200a) || n = 0x2028 || n = 0x2029 || n = 0x202f || n = 0x205f ||
    n = 0x3000

/-- `t.strip()` -/
def strip (t : String) : String :=
  String.ofList ((t.toList.dropWhile isSpace).reverse.dropWhile isSpace).reverse

namespace Bench

/-- The value of a knob that is not swept: what is given, else the default, parsed if a text. -/
def baseValue (held : List (Name × String)) (knob : Knob) : Option Value := do
  let v ← match held.lookup knob.name with
    | some t => knob.parser t
    | none => some knob.default
  match v with
  | .str t => knob.parser t
  | .int n => some (.int n)

/-- `base` -/
def base (b : Bench) (held : List (Name × String)) : Option (List (Name × Value)) :=
  b.knobs.mapM fun knob => (baseValue held knob).map fun v => (knob.name, v)

/-- `values` -/
def values (b : Bench) (axis : Name) (raw : String) : Option (List Value) :=
  if axis = instanceAxis then
    some ((((split raw).map strip).filter (· ≠ "")).map .str)
  else
    match b.knobs.find? (·.name = axis) with
    | some knob => (split raw).mapM knob.parser
    | none => none

theorem map_fst_of_mapM {b : List Knob} {f : Knob → Option Value} {l : List (Name × Value)}
    (h : (b.mapM fun knob => (f knob).map fun v => (knob.name, v)) = some l) :
    l.map Prod.fst = b.map Knob.name := by
  induction b generalizing l with
  | nil =>
    obtain rfl : [] = l := by simpa using h
    rfl
  | cons knob b ih =>
    cases hf : f knob with
    | none => simp [List.mapM_cons, hf] at h
    | some v =>
      cases hm : (b.mapM fun knob => (f knob).map fun v => (knob.name, v)) with
      | none => simp [List.mapM_cons, hf, hm] at h
      | some m =>
        obtain rfl : (knob.name, v) :: m = l := by simpa [List.mapM_cons, hf, hm] using h
        rw [List.map_cons, List.map_cons, ih hm]

theorem names_base {b : Bench} {held : List (Name × String)} {l : List (Name × Value)}
    (h : b.base held = some l) : l.map Prod.fst = b.knobs.map Knob.name :=
  map_fst_of_mapM h

theorem not_main_base {b : Bench} {held : List (Name × String)} {l : List (Name × Value)}
    (h : b.base held = some l) : ∀ kv ∈ l, kv.1 ∉ mainColumns := by
  intro kv hkv
  have hmem : kv.1 ∈ b.knobs.map Knob.name := names_base h ▸ List.mem_map_of_mem hkv
  obtain ⟨knob, hknob, he⟩ := List.mem_map.mp hmem
  exact he ▸ b.not_main knob hknob

end Bench

/-! ## The plan -/

/-- What `main` knows once it has read its arguments. -/
structure Sweep where
  axis : Name
  values : List Value
  base : List (Name × Value)
  reps : Nat
  inst : String
  keepGoing : Bool
  interleave : Bool
  nodup : (base.map Prod.fst).Nodup
  not_main : ∀ kv ∈ base, kv.1 ∉ mainColumns

namespace Sweep

instance : DecidableEq Sweep := fun s t =>
  decidable_of_iff (s.axis = t.axis ∧ s.values = t.values ∧ s.base = t.base ∧ s.reps = t.reps ∧
    s.inst = t.inst ∧ s.keepGoing = t.keepGoing ∧ s.interleave = t.interleave) <| by
      cases s
      cases t
      simp

/-- `none`: `main` ends before it looks at the CSV. -/
def parse (b : Bench) (a : Argv) : Option Sweep :=
  if a.raw = "" ∨ ∃ kv ∈ a.held, kv.1 ∉ b.knobs.map Knob.name then none
  else
    match b.values a.axis a.raw, h : b.base a.held with
    | some values, some base =>
      some
        { axis := a.axis, values, base, reps := a.reps, inst := a.inst
          keepGoing := a.keepGoing, interleave := a.interleave
          nodup := Bench.names_base h ▸ b.nodup
          not_main := Bench.not_main_base h }
    | _, _ => none

/-- The arguments give the sweep its runs. -/
structure Reads (b : Bench) (a : Argv) (s : Sweep) : Prop where
  axis : s.axis = a.axis
  values : b.values a.axis a.raw = some s.values
  base : b.base a.held = some s.base
  inst : s.inst = a.inst

/-- What the arguments of a sweep were. -/
structure Parsed (b : Bench) (a : Argv) (s : Sweep) : Prop extends Reads b a s where
  reps : s.reps = a.reps
  keepGoing : s.keepGoing = a.keepGoing
  interleave : s.interleave = a.interleave

theorem parsed_of_parse {b : Bench} {a : Argv} {s : Sweep} (h : parse b a = some s) :
    Parsed b a s := by
  unfold parse at h
  split at h
  · cases h
  · split at h
    · rename_i hvalues hbase
      obtain rfl := Option.some_inj.mp h
      exact ⟨⟨rfl, hvalues, hbase, rfl⟩, rfl, rfl, rfl⟩
    · cases h

theorem Parsed.names {b : Bench} {a : Argv} {s : Sweep} (h : Parsed b a s) :
    s.base.map Prod.fst = b.knobs.map Knob.name :=
  Bench.names_base h.base

/-- `{**base, axis: v}`, where `axis` is a knob. -/
def cfg (s : Sweep) (v : Value) : List (Name × Value) :=
  s.base.map fun kv => if kv.1 = s.axis then (kv.1, v) else kv

@[simp] theorem map_fst_cfg (s : Sweep) (v : Value) :
    (s.cfg v).map Prod.fst = s.base.map Prod.fst := by
  rw [cfg, List.map_map]
  refine List.map_congr_left fun kv _ => ?_
  by_cases h : kv.1 = s.axis
  · simp [h]
  · simp [h]

/-- The run of a value and a rep. -/
def run (s : Sweep) (value : Value) (rep : Nat) : Run :=
  { axis := s.axis, value, rep
    inst := if s.axis = instanceAxis then value.text else s.inst
    cfg := if s.axis = instanceAxis then s.base else s.cfg value
    nodup := by
      split
      · exact s.nodup
      · rw [map_fst_cfg]
        exact s.nodup
    not_main := by
      split
      · exact s.not_main
      · intro kv hkv
        have hmem : kv.1 ∈ s.base.map Prod.fst :=
          map_fst_cfg s value ▸ List.mem_map_of_mem hkv
        obtain ⟨kv', hkv', he⟩ := List.mem_map.mp hmem
        exact he ▸ s.not_main kv' hkv' }

/-- `plan` -/
def plan (s : Sweep) : List Run :=
  let reps := (List.range s.reps).map (· + 1)
  if s.interleave then reps.flatMap fun r => s.values.map fun v => s.run v r
  else s.values.flatMap fun v => reps.map fun r => s.run v r

theorem run_congr {s t : Sweep} (haxis : s.axis = t.axis) (hbase : s.base = t.base)
    (hinst : s.inst = t.inst) (v : Value) (rep : Nat) : s.run v rep = t.run v rep := by
  cases s
  cases t
  cases haxis
  cases hbase
  cases hinst
  rfl

theorem mem_plan {s : Sweep} {run : Run} :
    run ∈ s.plan ↔ ∃ v ∈ s.values, ∃ r, 1 ≤ r ∧ r ≤ s.reps ∧ run = s.run v r := by
  have hreps : ∀ r, r ∈ (List.range s.reps).map (· + 1) ↔ 1 ≤ r ∧ r ≤ s.reps := by
    intro r
    rw [List.mem_map]
    constructor
    · rintro ⟨n, hn, rfl⟩
      have := List.mem_range.mp hn
      omega
    · rintro ⟨h1, h2⟩
      exact ⟨r - 1, List.mem_range.mpr (by omega), by omega⟩
  unfold plan
  split
  · rw [List.mem_flatMap]
    constructor
    · rintro ⟨r, hr, hrun⟩
      obtain ⟨v, hv, rfl⟩ := List.mem_map.mp hrun
      exact ⟨v, hv, r, ((hreps r).mp hr).1, ((hreps r).mp hr).2, rfl⟩
    · rintro ⟨v, hv, r, h1, h2, rfl⟩
      exact ⟨r, (hreps r).mpr ⟨h1, h2⟩, List.mem_map_of_mem hv⟩
  · rw [List.mem_flatMap]
    constructor
    · rintro ⟨v, hv, hrun⟩
      obtain ⟨r, hr, rfl⟩ := List.mem_map.mp hrun
      exact ⟨v, hv, r, ((hreps r).mp hr).1, ((hreps r).mp hr).2, rfl⟩
    · rintro ⟨v, hv, r, h1, h2, rfl⟩
      exact ⟨v, hv, List.mem_map_of_mem ((hreps r).mpr ⟨h1, h2⟩)⟩

end Sweep

/-! ## The loop -/

/-- A CSV, with the recorded runs that its rows are of. -/
structure Csv (N : Numerals) where
  table : Table
  holds : List (Run × Boot N)

/-- `pd.read_csv(out)` -/
def Csv.read (c : Csv N) : Frame N := c.table.readCsv N

/-- A driver between its start and its exit. -/
structure Process (N : Numerals) where
  sweep : Sweep
  df : Frame N
  /-- The recorded runs that the rows of `df` are of. -/
  holds : List (Run × Boot N)
  /-- The rest of the plan. -/
  todo : List Run

namespace Process

/-- `df = pd.read_csv(out) if out.exists() else pd.DataFrame()` -/
def start (s : Sweep) (file : Option (Csv N)) : Process N :=
  { sweep := s
    df := file.elim (Frame.empty N) Csv.read
    holds := file.elim [] Csv.holds
    todo := s.plan }

def skip (p : Process N) : Process N := { p with todo := p.todo.tail }

/-- An invalid run abandons what is queued. -/
def record (p : Process N) (run : Run) (boot : Boot N) (valid : Bool) : Process N :=
  { p with
    df := Runner.record p.df run boot
    holds := p.holds ++ [(run, boot)]
    todo := if valid || p.sweep.keepGoing then p.todo.tail else [] }

/-- `df.to_csv(out, index=False)` -/
def csv (p : Process N) : Csv N := { table := p.df.toCsv, holds := p.holds }

end Process

/-- Drivers that run one after another, with one `--out`. -/
structure Session (N : Numerals) where
  file : Option (Csv N)
  live : Option (Process N)

namespace Session

inductive Event (N : Numerals)
  | start (s : Sweep)
  | skip (run : Run)
  /-- The run was launched, and its rows are written. -/
  | record (run : Run) (boot : Boot N) (valid : Bool)
  /-- The run was launched, and `run_once` raised. -/
  | raise (run : Run)
  | exit
  | kill

/-- The run that is launched. -/
def Event.launched : Event N → Option Run
  | .record run _ _ => some run
  | .raise run => some run
  | _ => none

inductive Step (allowed : Sweep → Prop) : Session N → Event N → Session N → Prop
  | start {file : Option (Csv N)} {s : Sweep} : allowed s →
      Step allowed ⟨file, none⟩ (.start s) ⟨file, some (Process.start s file)⟩
  | skip {file : Option (Csv N)} {p : Process N} {run : Run} : p.todo.head? = some run →
      done p.df run = true →
      Step allowed ⟨file, some p⟩ (.skip run) ⟨file, some p.skip⟩
  | record {file : Option (Csv N)} {p : Process N} {run : Run} {boot : Boot N} {valid : Bool} :
      p.todo.head? = some run → done p.df run = false →
      Step allowed ⟨file, some p⟩ (.record run boot valid)
        ⟨some (p.record run boot valid).csv, some (p.record run boot valid)⟩
  | raise {file : Option (Csv N)} {p : Process N} {run : Run} : p.todo.head? = some run →
      done p.df run = false → Step allowed ⟨file, some p⟩ (.raise run) ⟨file, none⟩
  | exit {file : Option (Csv N)} {p : Process N} : p.todo = [] →
      Step allowed ⟨file, some p⟩ .exit ⟨file, none⟩
  | kill {file : Option (Csv N)} {p : Process N} : Step allowed ⟨file, some p⟩ .kill ⟨file, none⟩

/-- The runs that were recorded in the CSV. -/
def recorded (s : Session N) : List (Run × Boot N) := s.file.elim [] Csv.holds

/-- No driver runs, and no row of the CSV was written by these drivers. -/
def init (table : Option Table) : Session N := ⟨table.map fun t => ⟨t, []⟩, none⟩

end Session

end Runner
