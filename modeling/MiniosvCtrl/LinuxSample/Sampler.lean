import MiniosvCtrl.Infra.LittleEndian

/-!
# The sample ring of `linux-sample`

The kernel writes records into a ring of bytes and counts the bytes it has written. After the
workload `samplerCount` goes over the ring once, from header to header.

* `Sampler` — the ring and its two positions
* `header` — a record's header where it is read
* `samplerCount`
-/

namespace Sampler

open Infra

/-! ## The mapping -/

/-- `struct perf_event_mmap_page`, as far as it is read. Both count bytes from the start on. -/
structure Meta where
  dataHead : Nat
  dataTail : Nat
  deriving DecidableEq, Repr

/-- What is mapped: the page before the ring, and the ring. -/
structure Mapping where
  page : Meta
  /-- `PMC_RING_PAGES * page` -/
  size : Nat
  /-- The bytes from `data` on. Those from `size` on are not the ring's. -/
  data : Nat → UInt8

/-- `struct perf_event_header` -/
structure Header where
  type : Nat
  misc : Nat
  size : Nat
  deriving DecidableEq, Repr

def perfRecordThrottle : Nat := 5

def perfRecordSample : Nat := 9

/-- `(struct perf_event_header *)(data + i)`: four bytes, two and two. -/
def header (data : Nat → UInt8) (i : Nat) : Header :=
  { type := ofLittleEndian ((bytesAt data i 8).take 4)
    misc := ofLittleEndian (((bytesAt data i 8).drop 4).take 2)
    size := ofLittleEndian ((bytesAt data i 8).drop 6) }

/-! ## `samplerCount` -/

/-- `a - b` of two `uint64_t`. -/
def sub64 (a b : Nat) : Nat := (a + 2 ^ 64 - b) % 2 ^ 64

/-- `n` and `thr`, one more than before at most. Neither can overflow: no round of a loop that
ends has the `tail` of an earlier one. -/
structure Counts where
  n : Nat
  thr : Nat
  deriving DecidableEq, Repr

def Counts.count (c : Counts) (h : Header) : Counts :=
  if h.type = perfRecordSample then { c with n := c.n + 1 }
  else if h.type = perfRecordThrottle then { c with thr := c.thr + 1 }
  else c

/-- `while (tail < head)`; `none` is a loop that has not ended within `fuel` rounds. -/
def loop (m : Mapping) (head : Nat) : Nat → Nat → Counts → Option Counts
  | 0, _, _ => none
  | fuel + 1, tail, c =>
    if tail < head then
      let h := header m.data (tail % m.size)
      if h.size = 0 then some c
      else loop m head fuel ((tail + h.size) % 2 ^ 64) (c.count h)
    else some c

/-- Where the loop starts. -/
def start (m : Mapping) : Nat :=
  if m.size < sub64 m.page.dataHead m.page.dataTail then sub64 m.page.dataHead m.size
  else m.page.dataTail

/-- The counts, and the page with `data_tail` stored. -/
def samplerCount (m : Mapping) (fuel : Nat) : Option (Counts × Meta) :=
  (loop m m.page.dataHead fuel (start m) ⟨0, 0⟩).map fun c =>
    (c, { m.page with dataTail := m.page.dataHead })

end Sampler
