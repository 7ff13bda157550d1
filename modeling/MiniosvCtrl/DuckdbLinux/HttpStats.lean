import Mathlib.Algebra.Order.Floor.Ring
import Mathlib.Data.Rat.Floor
import Mathlib.Data.List.Dedup

/-!
# `HTTP_STATS_SQL`

One row of figures about the requests of a query, from DuckDB's HTTP log. A window goes over the
rows in the order of their starts; which of several rows with one start comes first is the
engine's choice, in each of the two windows anew.

* `Request` — a row of the log
* `iv`, `isl`, `act` — the three steps of `active_ms`
* `Orders` — the orders of the two windows
* `httpStats`
-/

namespace HttpStats

/-- A row of `r`. -/
structure Request where
  type : String
  t0Us : Rat
  ms : Rat
  ms_nonneg : 0 ≤ ms

/-- `t0_us + ms * 1000` -/
def Request.endUs (r : Request) : Rat := r.t0Us + r.ms * 1000

/-- `sum`, which is `NULL` of no rows. -/
def sum : List Rat → Option Rat
  | [] => none
  | xs => some xs.sum

/-! ## `active_ms` -/

/-- A row of `iv`. -/
structure Iv where
  s : Rat
  e : Rat
  reach : Option Rat
  deriving DecidableEq, Repr

/-- `max` over a frame that is one row longer. -/
def longer (reach : Option Rat) (e : Rat) : Rat :=
  match reach with
  | none => e
  | some m => max m e

/-- `iv`, with the largest end of the rows before; `none` is `NULL`. -/
def iv : Option Rat → List Request → List Iv
  | _, [] => []
  | reach, r :: rs =>
    { s := r.t0Us, e := r.endUs, reach } :: iv (some (longer reach r.endUs)) rs

/-- `reach IS NULL OR s > reach` -/
def Iv.begins (v : Iv) : Bool :=
  match v.reach with
  | none => true
  | some m => decide (m < v.s)

/-- A row of `isl`. -/
structure Isl where
  s : Rat
  e : Rat
  island : Nat
  deriving DecidableEq, Repr

/-- `isl`, with the sum of the rows before. -/
def isl : Nat → List Iv → List Isl
  | _, [] => []
  | n, v :: vs =>
    { s := v.s, e := v.e, island := n + if v.begins then 1 else 0 } ::
      isl (n + if v.begins then 1 else 0) vs

/-- `mx - mn` -/
def extent (rows : List Isl) : Option Rat :=
  match (rows.map Isl.e).max?, (rows.map Isl.s).min? with
  | some mx, some mn => some (mx - mn)
  | _, _ => none

/-- The extent of each island, `GROUP BY island`. -/
def extents (rows : List Isl) : List Rat :=
  (rows.map Isl.island).dedup.filterMap fun i => extent (rows.filter fun row => row.island = i)

/-- `act` -/
def act (rows : List Isl) : Option Rat := (sum (extents rows)).map (· / 1000)

/-- The orders in which the two windows go over the rows. -/
structure Orders (r : List Request) where
  first : List Request
  first_perm : first.Perm r
  first_sorted : first.Pairwise fun a b => a.t0Us ≤ b.t0Us
  second : List Iv
  second_perm : second.Perm (iv none first)
  second_sorted : second.Pairwise fun a b => a.s ≤ b.s

/-- `active_ms`, before it is rounded. -/
def Orders.activeMs {r : List Request} (o : Orders r) : Option Rat := act (isl 0 o.second)

/-! ## The row -/

/-- `window_ms`, before it is rounded. -/
def windowMs (r : List Request) : Option Rat :=
  match (r.map Request.endUs).max?, (r.map Request.t0Us).min? with
  | some mx, some mn => some ((mx - mn) / 1000)
  | _, _ => none

/-- `round(x, 2)`: a half goes away from zero. -/
def round (x : Rat) : Rat :=
  if 0 ≤ x then (⌊x * 100 + 1 / 2⌋ : Rat) / 100 else -((⌊-x * 100 + 1 / 2⌋ : Rat) / 100)

/-- `quantile_cont(ms, q)`: between the two values next to the place `q * (n - 1)`. -/
def quantileCont (ms : List Rat) (q : Rat) : Option Rat := do
  let sorted := ms.mergeSort fun a b => a ≤ b
  let place := q * (ms.length - 1)
  let lo ← sorted[⌊place⌋.toNat]?
  let hi ← sorted[⌈place⌉.toNat]?
  some (lo + (hi - lo) * (place - ⌊place⌋))

structure Row where
  n : Nat
  nGet : Nat
  nHead : Nat
  msAvg : Option Rat
  msP50 : Option Rat
  msP90 : Option Rat
  msP99 : Option Rat
  msMin : Option Rat
  msMax : Option Rat
  msSum : Option Rat
  windowMs : Option Rat
  activeMs : Option Rat

def httpStats {r : List Request} (o : Orders r) : Row :=
  let ms := r.map Request.ms
  { n := r.length
    nGet := r.countP fun q => q.type = "GET"
    nHead := r.countP fun q => q.type = "HEAD"
    msAvg := (sum ms).map fun x => round (x / r.length)
    msP50 := (quantileCont ms (1 / 2)).map round
    msP90 := (quantileCont ms (9 / 10)).map round
    msP99 := (quantileCont ms (99 / 100)).map round
    msMin := ms.min?
    msMax := ms.max?
    msSum := sum ms
    windowMs := (windowMs r).map round
    activeMs := o.activeMs.map round }

end HttpStats
