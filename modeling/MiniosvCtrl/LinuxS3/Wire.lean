import Mathlib.Algebra.Order.Ring.Rat

/-!
# The best second on the wire

The scan over the samples of the NIC's counter that gives `WIRE PEAK`, in linux-s3's
`wire_windows` and again in AnyBlob's `main`. Rates are exact.

* `Wire.compared` — the pairs of samples whose rates are taken
* `LinuxS3.peak`, `AnyBlob.peak`
-/

namespace Wire

/-- Nanoseconds since the epoch, and the bytes received. -/
abbrev Sample := UInt64 × UInt64

/-- `while j < samples.len() && samples[j].0 < limit { j += 1 }`, with the samples from `j` on. -/
def advance (limit : UInt64) : List Sample → Nat → Nat
  | [], j => j
  | s :: rest, j => if s.1 < limit then advance limit rest (j + 1) else j

/-- The loop over `i`, with the samples from `i` on: the pairs for which `j` is in the list. -/
def comparedFrom (samples : List Sample) : List Sample → Nat → List (Sample × Sample)
  | [], _ => []
  | s :: rest, j =>
    let j := advance (s.1 + 1000000000) (samples.drop j) j
    (samples[j]?.map fun t => (s, t)).toList ++ comparedFrom samples rest j

def compared (samples : List Sample) : List (Sample × Sample) := comparedFrom samples samples 0

/-- `best`, with the rate of so many bytes in so many nanoseconds. -/
def peak (rate : UInt64 → UInt64 → Rat) (samples : List Sample) : Rat :=
  (compared samples).foldl (fun best p => max best (rate (p.2.2 - p.1.2) (p.2.1 - p.1.1))) 0

end Wire

/-- `gbps(bytes, ns)` -/
def LinuxS3.gbps (bytes ns : UInt64) : Rat :=
  bytes.toNat * 8 / 1000000000 / max ((ns.toNat : Rat) / 1000000000) (1 / 1000000000)

/-- `best` in `wire_windows`. -/
def LinuxS3.peak : List Wire.Sample → Rat := Wire.peak LinuxS3.gbps

/-- `gbps(bytes, s)`, of seconds. -/
def AnyBlob.gbps (bytes : UInt64) (s : Rat) : Rat :=
  bytes.toNat * 8 / 1000000000 / max s (1 / 1000000000)

/-- `best` in `main`. -/
def AnyBlob.peak : List Wire.Sample → Rat :=
  Wire.peak fun bytes ns => AnyBlob.gbps bytes (ns.toNat / 1000000000)
