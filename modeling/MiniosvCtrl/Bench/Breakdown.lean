import Mathlib.Algebra.Order.Field.Rat
import Mathlib.Data.List.Sort

/-!
# Where a query's wall time goes

A bar is the median run of a query. Its time with a request outstanding is split in the proportions
of an average request's life, and the rest is DuckDB's own.

Times are rational numbers. A cell that is empty is `none`, like a column that is not there; what
is divided by zero is no number.

* `SortValues` — how pandas sorts
* `miniosv`, `linux` — the parts of a bar
-/

namespace Breakdown

/-- `g.sort_values(wall)`; equal values may come in any order. -/
structure SortValues (α : Type) (wall : α → Rat) where
  sort : List α → List α
  perm : ∀ g, (sort g).Perm g
  sorted : ∀ g, (sort g).Pairwise fun a b => wall a ≤ wall b

/-- Equal values stay in their order. -/
def SortValues.stable {α : Type} (wall : α → Rat) : SortValues α wall where
  sort g := g.mergeSort fun a b => wall a ≤ wall b
  perm g := List.mergeSort_perm g _
  sorted g := by
    refine (@List.pairwise_mergeSort α (fun a b => decide (wall a ≤ wall b)) ?_ ?_ g).imp
      of_decide_eq_true
    · intro a b c hab hbc
      exact decide_eq_true ((of_decide_eq_true hab).trans (of_decide_eq_true hbc))
    · intro a b
      simpa using le_total (wall a) (wall b)

/-- `median_run`; `none`: there is no run. -/
def medianRun {α : Type} {wall : α → Rat} (S : SortValues α wall) (g : List α) : Option α :=
  (S.sort g)[(g.length - 1) / 2]?

/-- `a / b`; `none` is a `ZeroDivisionError`. -/
def divide (a b : Rat) : Option Rat := if b = 0 then none else some (a / b)

/-- What `miniosv` and `linux` return: the parts of the wall time, and the request's times. -/
structure Bar where
  parts : List Rat
  s3 : Option Rat
  wire : Option Rat
  perReq : Rat

/-! ## miniOSv -/

structure MiniosvRun where
  queryMs : Rat
  netMs : Rat
  netCalls : Rat
  ttfbUsAvg : Rat
  xferUsAvg : Rat
  netActiveMs : Rat

namespace MiniosvRun

variable (m : MiniosvRun)

def s3 : Rat := m.ttfbUsAvg / 1000

def wire : Rat := m.xferUsAvg / 1000

def bar : Option Bar := do
  let perCall ← divide m.netMs m.netCalls
  let stack := max 0 (perCall - m.s3 - m.wire)
  let active := m.netActiveMs
  let turnaround ← divide (active * m.s3) perCall
  let body ← divide (active * m.wire) perCall
  let rest ← divide (active * stack) perCall
  some
    { parts := [turnaround, body, rest, 0, max 0 (m.queryMs - active)]
      s3 := some m.s3
      wire := some m.wire
      perReq := perCall }

end MiniosvRun

def miniosv (S : SortValues MiniosvRun MiniosvRun.queryMs) (g : List MiniosvRun) : Option Bar :=
  (medianRun S g).bind MiniosvRun.bar

/-! ## Linux -/

structure LinuxRun where
  queryMs : Rat
  httpMsSum : Rat
  httpN : Rat
  httpWindowMs : Rat
  httpActiveMs : Option Rat
  httpProfileMs : Option Rat
  npTtfbMsAvg : Option Rat
  npBodyMsAvg : Rat

namespace LinuxRun

variable (m : LinuxRun)

/-- The union of the requests' intervals, or their span, in the logged pass. -/
def logged : Rat := m.httpActiveMs.getD m.httpWindowMs

/-- From the logged pass to the clean one. -/
def scale : Rat :=
  match m.httpProfileMs with
  | none => 1
  | some profile => if profile = 0 then 1 else m.queryMs / profile

def active : Rat := min (m.logged * m.scale) m.queryMs

def bar : Option Bar := do
  let perReq ← divide m.httpMsSum m.httpN
  let rest := max 0 (m.queryMs - m.active)
  match m.npTtfbMsAvg with
  | none => some { parts := [0, 0, 0, m.active, rest], s3 := none, wire := none, perReq := perReq }
  | some s3 =>
    let wire := m.npBodyMsAvg
    let stack := max 0 (perReq - s3 - wire)
    let turnaround ← divide (m.active * s3) perReq
    let body ← divide (m.active * wire) perReq
    let client ← divide (m.active * stack) perReq
    some
      { parts := [turnaround, body, client, 0, rest]
        s3 := some s3
        wire := some wire
        perReq := perReq }

end LinuxRun

def linux (S : SortValues LinuxRun LinuxRun.queryMs) (g : List LinuxRun) : Option Bar :=
  (medianRun S g).bind LinuxRun.bar

end Breakdown
