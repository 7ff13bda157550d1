import Mathlib.Data.UInt

/-!
# The latencies of the AnyBlob client

* `AnyBlob.Dist.of` — `Dist::of`, of microseconds
-/

namespace AnyBlob

structure Dist where
  n : UInt64
  avg : UInt64
  p50 : UInt64
  p90 : UInt64
  p99 : UInt64
  max : UInt64
  deriving DecidableEq, Repr

/-- The index that `at` takes, of `n` values; its `q` is `p / 100`. -/
def Dist.index (p n : Nat) : Nat := min (n - 1) (p * n / 100)

/-- `Dist::of`; the sum wraps. -/
def Dist.of (v : List UInt64) : Dist :=
  let sorted := v.mergeSort fun a b => decide (a ≤ b)
  let at' := fun p : Nat => sorted.getD (Dist.index p sorted.length) 0
  if v = [] then ⟨0, 0, 0, 0, 0, 0⟩
  else
    { n := UInt64.ofNat sorted.length
      avg := sorted.foldl (· + ·) 0 / UInt64.ofNat sorted.length
      p50 := at' 50
      p90 := at' 90
      p99 := at' 99
      max := sorted.getLastD 0 }

end AnyBlob
