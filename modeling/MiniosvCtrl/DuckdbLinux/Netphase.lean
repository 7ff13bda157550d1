import Mathlib.Data.Rat.Defs
import Mathlib.Data.UInt
import MiniosvCtrl.Infra.Lines

/-!
# `netphase.so`

The library stands between DuckDB and the socket calls. Each call is stamped, and an exchange is
counted when it ends: at the next send of its connection, when that is closed, or at exit.

The counters are atomic and 64 bits wide, which no run exhausts; they are numbers here. The clock
is read in a call, so it is part of the call.

* `closeExchange` — one exchange is counted
* `step` — a call
* `fini` — what is dumped at exit
* `Dump.text`, `p50` — the dump on its way into the report
-/

namespace Netphase

def maxFd : Nat := 65536

/-- Buckets of a millisecond; the last one is everything behind. -/
def hb : Nat := 512

inductive Phase
  | idle
  | sent
  | receiving
  deriving DecidableEq, Repr

structure Slot where
  sock : Bool
  phase : Phase
  tls : Bool
  exchanges : UInt32
  tSend : UInt64
  tFirst : UInt64
  tLast : UInt64
  bytes : Nat

/-- `memset(s, 0, sizeof *s)` -/
def Slot.zero : Slot :=
  { sock := false, phase := .idle, tls := false, exchanges := 0, tSend := 0, tFirst := 0,
    tLast := 0, bytes := 0 }

/-- What a receive of `n` bytes changes in a slot. -/
def Slot.receive (s : Slot) (n : Nat) (t : UInt64) : Slot :=
  let s := if s.phase = .sent then { s with tFirst := t, phase := .receiving } else s
  { s with tLast := t, bytes := s.bytes + n }

/-! ## Counting -/

structure Agg where
  n : Nat
  ttfb : Nat
  body : Nat
  gap : Nat
  gapN : Nat
  bytes : Nat
  hTtfb : List Nat
  hBody : List Nat

def Agg.zero : Agg :=
  { n := 0, ttfb := 0, body := 0, gap := 0, gapN := 0, bytes := 0, hTtfb := List.replicate hb 0,
    hBody := List.replicate hb 0 }

def bucket (ns : UInt64) : Nat :=
  let ms := ns.toNat / 1000000
  if ms < hb then ms else hb - 1

def hist (h : List Nat) (ns : UInt64) : List Nat := h.modify (bucket ns) (· + 1)

/-- What is counted of a slot, with the time of the next send if there is one. -/
structure Exchange where
  tSend : UInt64
  tFirst : UInt64
  tLast : UInt64
  bytes : Nat
  next : Option UInt64
  deriving DecidableEq, Repr

namespace Exchange

def ttfb (x : Exchange) : UInt64 := x.tFirst - x.tSend

def body (x : Exchange) : UInt64 := x.tLast - x.tFirst

def gap (x : Exchange) : Option UInt64 := x.next.map (· - x.tLast)

end Exchange

def Agg.count (a : Agg) (x : Exchange) : Agg :=
  { n := a.n + 1
    ttfb := a.ttfb + x.ttfb.toNat
    body := a.body + x.body.toNat
    bytes := a.bytes + x.bytes
    hTtfb := hist a.hTtfb x.ttfb
    hBody := hist a.hBody x.body
    gap := a.gap + (x.gap.map UInt64.toNat).getD 0
    gapN := a.gapN + if x.gap.isSome then 1 else 0 }

structure Process where
  slots : Nat → Slot
  req : Agg
  hs : Agg
  tFirstSend : UInt64
  tLastRecv : UInt64
  conns : Nat

def Process.zero : Process :=
  { slots := fun _ => Slot.zero, req := Agg.zero, hs := Agg.zero, tFirstSend := 0, tLastRecv := 0,
    conns := 0 }

namespace Process

variable (p : Process)

def set (fd : Nat) (s : Slot) : Process := { p with slots := Function.update p.slots fd s }

/-- `hs` or `req` counts. -/
def count (first : Bool) (x : Exchange) : Process :=
  if first then { p with hs := p.hs.count x } else { p with req := p.req.count x }

/-- `close_exchange`, with `t_next` if there is one -/
def closeExchange (fd : Nat) (tNext : Option UInt64) : Process :=
  let s := p.slots fd
  if s.phase ≠ .receiving then p
  else
    let x : Exchange :=
      { tSend := s.tSend, tFirst := s.tFirst, tLast := s.tLast, bytes := s.bytes, next := tNext }
    (p.count (s.exchanges = 0 ∧ s.tls = true) x).set fd
      { s with exchanges := s.exchanges + 1, phase := .idle, bytes := 0 }

/-! ## The calls -/

/-- `fd < 0 || fd >= MAXFD || !slots[fd].sock`, the other way round -/
def watches (fd : Int) : Bool := 0 ≤ fd ∧ fd < maxFd ∧ (p.slots fd.toNat).sock = true

/-- `t_first_send` is set once. -/
def noteSend (t : UInt64) : Process := if p.tFirstSend = 0 then { p with tFirstSend := t } else p

/-- `t_last_recv` is the latest. -/
def noteRecv (t : UInt64) : Process := if p.tLastRecv < t then { p with tLastRecv := t } else p

def onSend (fd : Int) (t : UInt64) : Process :=
  if p.watches fd then
    let p := p.closeExchange fd.toNat (some t)
    (p.set fd.toNat { p.slots fd.toNat with tSend := t, phase := .sent }).noteSend t
  else p

def onRecv (fd : Int) (n : Int) (t : UInt64) : Process :=
  if p.watches fd ∧ 0 < n then
    let s := p.slots fd.toNat
    if s.phase = .idle then p
    else (p.set fd.toNat (s.receive n.toNat t)).noteRecv t
  else p

/-- `connect`; a port is there for an address of IPv4 or IPv6. -/
def connect (fd : Int) (port : Option UInt16) : Process :=
  match port with
  | none => p
  | some port =>
    if 0 ≤ fd ∧ fd < maxFd then
      { p.set fd.toNat { Slot.zero with sock := true, tls := port = 443 } with
        conns := p.conns + 1 }
    else p

def close (fd : Int) : Process :=
  if p.watches fd then
    let p := p.closeExchange fd.toNat none
    p.set fd.toNat { p.slots fd.toNat with sock := false }
  else p

end Process

section

variable {p : Process} {fd : Nat} {s : Slot}

@[simp] theorem Process.set_req : (p.set fd s).req = p.req := rfl

@[simp] theorem Process.set_hs : (p.set fd s).hs = p.hs := rfl

@[simp] theorem Process.set_conns : (p.set fd s).conns = p.conns := rfl

@[simp] theorem Process.set_slots_self : (p.set fd s).slots fd = s := Function.update_self ..

@[simp] theorem Process.set_slots_of_ne {fd' : Nat} (h : fd' ≠ fd) :
    (p.set fd s).slots fd' = p.slots fd' := Function.update_of_ne h ..

@[simp] theorem Process.noteSend_slots {t : UInt64} : (p.noteSend t).slots = p.slots := by
  rw [noteSend]
  split <;> rfl

@[simp] theorem Process.noteSend_req {t : UInt64} : (p.noteSend t).req = p.req := by
  rw [noteSend]
  split <;> rfl

@[simp] theorem Process.noteSend_hs {t : UInt64} : (p.noteSend t).hs = p.hs := by
  rw [noteSend]
  split <;> rfl

@[simp] theorem Process.noteRecv_slots {t : UInt64} : (p.noteRecv t).slots = p.slots := by
  rw [noteRecv]
  split <;> rfl

@[simp] theorem Process.noteRecv_req {t : UInt64} : (p.noteRecv t).req = p.req := by
  rw [noteRecv]
  split <;> rfl

@[simp] theorem Process.noteRecv_hs {t : UInt64} : (p.noteRecv t).hs = p.hs := by
  rw [noteRecv]
  split <;> rfl

@[simp] theorem Process.count_slots {first : Bool} {x : Exchange} :
    (p.count first x).slots = p.slots := by
  cases first <;> rfl

end

inductive Call
  | connect (fd : Int) (port : Option UInt16)
  | send (fd : Int) (t : UInt64)
  /-- What the call returned is `n`. -/
  | recv (fd : Int) (n : Int) (t : UInt64)
  | close (fd : Int)
  deriving DecidableEq, Repr

def step (p : Process) : Call → Process
  | .connect fd port => p.connect fd port
  | .send fd t => p.onSend fd t
  | .recv fd n t => p.onRecv fd n t
  | .close fd => p.close fd

def run (calls : List Call) : Process := calls.foldl step Process.zero

/-! ## The dump -/

structure Dump where
  conns : Nat
  windowNs : UInt64
  req : Agg
  hs : Agg

/-- Exchanges still open at exit. -/
def closeAll (p : Process) : Process :=
  (List.range maxFd).foldl
    (fun p fd => if (p.slots fd).sock then p.closeExchange fd none else p) p

def Process.dump (p : Process) : Dump :=
  { conns := p.conns
    windowNs := if p.tFirstSend < p.tLastRecv then p.tLastRecv - p.tFirstSend else 0
    req := p.req
    hs := p.hs }

@[simp] theorem Process.dump_req (p : Process) : p.dump.req = p.req := rfl

@[simp] theorem Process.dump_hs (p : Process) : p.dump.hs = p.hs := rfl

/-- `fini`, with `NETPHASE_OUT` set; `none`: there was no connection, and nothing is written. -/
def fini (p : Process) : Option Dump := if p.conns = 0 then none else some (closeAll p).dump

/-- `%lu` -/
def decimal (n : Nat) : List Char := Nat.toDigits 10 n

def column (h : List Nat) : List Char := [','].intercalate (h.map decimal)

/-- `dump_agg` -/
def Agg.entries (name : String) (a : Agg) : List (String × List Char) :=
  [(name ++ "_n", decimal a.n), (name ++ "_ttfb_ns", decimal a.ttfb),
    (name ++ "_body_ns", decimal a.body), (name ++ "_gap_ns", decimal a.gap),
    (name ++ "_gap_n", decimal a.gapN), (name ++ "_bytes", decimal a.bytes),
    (name ++ "_hist_ttfb_ms", column a.hTtfb), (name ++ "_hist_body_ms", column a.hBody)]

def Dump.entries (d : Dump) : List (String × List Char) :=
  [("conns", decimal d.conns), ("window_ns", decimal d.windowNs.toNat)] ++ d.req.entries "req" ++
    d.hs.entries "hs"

def entryText (e : String × List Char) : List Char := e.1.toList ++ '=' :: e.2 ++ ['\n']

def Dump.text (d : Dump) : List Char := d.entries.flatMap entryText

/-- What a list of exchanges counts up to. -/
def aggregate (xs : List Exchange) : Agg := xs.foldl Agg.count Agg.zero

/-- What every exchange adds to, over a list of them. -/
theorem aggregate_sum {f : Agg → Nat} {g : Exchange → Nat} (hzero : f Agg.zero = 0)
    (hcount : ∀ a x, f (a.count x) = f a + g x) (xs : List Exchange) :
    f (aggregate xs) = (xs.map g).sum := by
  have hfoldl : ∀ a : Agg, f (xs.foldl Agg.count a) = f a + (xs.map g).sum := by
    induction xs with
    | nil => exact fun _ => rfl
    | cons x xs ih =>
      intro a
      rw [List.foldl_cons, ih, hcount, List.map_cons, List.sum_cons, Nat.add_assoc]
  rw [aggregate, hfoldl, hzero, Nat.zero_add]

theorem n_aggregate (xs : List Exchange) : (aggregate xs).n = xs.length := by
  rw [aggregate_sum (f := Agg.n) (g := fun _ => 1) rfl (fun _ _ => rfl) xs, List.map_const',
    List.sum_replicate_nat, Nat.mul_one]

theorem bytes_aggregate (xs : List Exchange) :
    (aggregate xs).bytes = (xs.map Exchange.bytes).sum :=
  aggregate_sum (f := Agg.bytes) (g := Exchange.bytes) rfl (fun _ _ => rfl) xs

/-! ## The report -/

/-- The lines of a file, without their ends. -/
def fileLines (t : List Char) : List (List Char) :=
  let ls := Infra.Regex.lines t
  if ls.getLast? = some [] then ls.dropLast else ls

/-- `line.partition("=")`, without the middle -/
def partition (l : List Char) : String × List Char :=
  (String.ofList (l.takeWhile (· ≠ '=')), (l.dropWhile (· ≠ '=')).drop 1)

/-- `kv[key]`; `none` is a `KeyError`. -/
def value (t : List Char) (key : String) : Option (List Char) :=
  ((fileLines t).map partition).reverse.lookup key

/-- `int(x)`, of ASCII digits; `none` is a `ValueError`. No counter has too many. -/
def int (l : List Char) : Option Nat :=
  if l ≠ [] ∧ l.all Char.isDigit = true then some (Nat.ofDigitChars 10 l 0) else none

/-- The loop of `p50`, at bucket `i` with so many below. -/
def scan (total : Nat) : Nat → Nat → List Nat → Rat
  | _, _, [] => 0
  | i, acc, c :: h =>
    if total ≠ 0 ∧ total ≤ (acc + c) * 2 then i + 1 / 2 else scan total (i + 1) (acc + c) h

/-- `p50` of `netphase_report`; `none`: it raises. -/
def p50 (t : List Char) (key : String) : Option Rat := do
  let v ← value t key
  let h ← (v.splitOn ',').mapM int
  some (scan h.sum 0 0 h)

end Netphase
