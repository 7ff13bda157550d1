import Mathlib.Data.UInt

/-!
# The requests of the AnyBlob client

`main` builds all requests before the clock starts: worker by worker, each with the blocks that are
its own.

* `AnyBlob.parseSize` — a number in the environment
* `AnyBlob.load` — the configuration, from the numbers in the environment
* `AnyBlob.Config.blockRange` — the bytes of a block, without the last
* `AnyBlob.Config.requestList` — the request list
-/

namespace AnyBlob

/-- `isspace`, in the C locale. -/
def isSpace (c : Char) : Bool := c ∈ [' ', '\t', '\n', '\x0b', '\x0c', '\r']

/-- The digits that `strtoull` converts, the sign in front of them, and what follows. -/
def scan (s : List Char) : Bool × List Char × List Char :=
  let s := s.dropWhile isSpace
  let negative := s.head? = some '-'
  let s := if negative ∨ s.head? = some '+' then s.drop 1 else s
  (negative, s.takeWhile Char.isDigit, s.dropWhile Char.isDigit)

/-- `strtoull(s, &end, 10)` of a text that has digits; what does not fit is `ULLONG_MAX`. -/
def strtoull (negative : Bool) (digits : List Char) : UInt64 :=
  let n := Nat.ofDigitChars 10 digits 0
  if 2 ^ 64 ≤ n then UInt64.ofNat (2 ^ 64 - 1)
  else if negative then 0 - UInt64.ofNat n
  else UInt64.ofNat n

/-- The `switch` on the character behind the number. -/
def suffix (v : UInt64) : Option Char → UInt64
  | none => v
  | some c =>
    if c = 'K' ∨ c = 'k' then v <<< 10
    else if c = 'M' ∨ c = 'm' then v <<< 20
    else if c = 'G' ∨ c = 'g' then v <<< 30
    else if c = 'T' ∨ c = 't' then v <<< 40
    else v

/-- A character that is not ASCII is more than one `char`, none of which is looked for. -/
def parseSize (s : String) (d : UInt64) : UInt64 :=
  let found := scan s.toList
  if s = "" ∨ found.2.1 = [] then d else suffix (strtoull found.1 found.2.1) found.2.2.head?

/-- `Config`, with the check of `main` as fields. Workers and connections are `unsigned`. -/
structure Config where
  workers : UInt32
  conns : UInt32
  block : UInt64
  /-- For each worker; 0 stands for `conns`. -/
  blocks : UInt64
  object : UInt64
  workers_ne : workers ≠ 0
  conns_ne : conns ≠ 0
  block_ne : block ≠ 0
  object_ne : object ≠ 0

/-- `load`, from the numbers `parseSize` reads. -/
def load (workers conns blocks objectSize blockSize : UInt64) : Except String Config :=
  if h : workers.toUInt32 = 0 ∨ conns.toUInt32 = 0 ∨ blockSize = 0 ∨ objectSize = 0 then
    .error ("FAIL: BENCH_WORKERS, BENCH_CONNS_PER_WORKER, BENCH_BLOCK_SIZE and " ++
      "AWS_BUCKET_SIZE must be nonzero")
  else
    .ok
      { workers := workers.toUInt32
        conns := conns.toUInt32
        block := blockSize
        blocks := blocks
        object := objectSize
        workers_ne := fun hw => h (Or.inl hw)
        conns_ne := fun hc => h (Or.inr (Or.inl hc))
        block_ne := fun hb => h (Or.inr (Or.inr (Or.inl hb)))
        object_ne := fun ho => h (Or.inr (Or.inr (Or.inr ho))) }

namespace Config

variable (c : Config)

def blocksPerWorker : UInt64 := if c.blocks ≠ 0 then c.blocks else c.conns.toUInt64

def stride : UInt64 := (if c.block < c.object then c.object - c.block else 0) + 1

/-- `[start, end)` -/
def blockRange (block : UInt64) : UInt64 × UInt64 :=
  let start := if c.stride = 0 then 0 else block * c.block % c.stride
  (start, start + c.block)

/-- The ids of worker `w`, in order. -/
def idsOf (w : Nat) : List UInt64 :=
  (List.range c.blocksPerWorker.toNat).map fun k =>
    UInt64.ofNat w * c.blocksPerWorker + UInt64.ofNat k

/-- The ids of all requests, in order. -/
def ids : List UInt64 := (List.range c.workers.toNat).flatMap c.idsOf

/-- The ranges that are requested; `none`: the library does not build one of the requests. -/
def requestList (getObjectRequest : UInt64 → Bool) : Option (List (UInt64 × UInt64)) :=
  c.ids.mapM fun id => if getObjectRequest id then some (c.blockRange id) else none

end Config

end AnyBlob
