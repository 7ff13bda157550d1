import MiniosvCtrl.LinuxS3.Pool

/-!
# What linux-s3's `main` concludes

The last lines `main` prints, from the outcomes it collected: `COMPLETE`, or `INCOMPLETE` and
exit code 1. The totals wrap, as the release build's do.
-/

namespace LinuxS3

section

variable (c : Config) (outcomes : List Outcome)

def totalB : UInt64 := (outcomes.map Outcome.bytesReceived).sum

def totalExpected : UInt64 := (outcomes.map Outcome.expected).sum

def connsTotal : UInt64 := UInt64.ofNat outcomes.length

def connsClean : UInt64 := UInt64.ofNat (outcomes.countP Outcome.closedCleanly)

def rangesOk : Bool :=
  connsClean outcomes == connsTotal outcomes && decide (0 < connsTotal outcomes)

/-- `planned_conns` is computed as `total_blocks` is. -/
def covered : Bool := connsTotal outcomes == c.totalBlocks

/-- The stub counts ciphertext, which is longer than what was asked for. -/
def bytesOk : Bool :=
  if c.stub then decide (totalExpected outcomes ≤ totalB outcomes)
  else totalB outcomes == totalExpected outcomes

def complete : Bool := rangesOk outcomes && covered c outcomes && bytesOk c outcomes

inductive Verdict
  | complete (line : String)
  /-- `main` exits with code 1. -/
  | incomplete (line : String)
  deriving DecidableEq, Repr

def verdict : Verdict :=
  if complete c outcomes then
    if c.stub then
      .complete ("COMPLETE: all " ++ toString (connsTotal outcomes) ++ " blocks fetched " ++
        "(set BENCH_TLS_STUB=0 for a byte-exact check)")
    else .complete ("COMPLETE: " ++ toString (totalB outcomes) ++ " bytes, byte-exact")
  else
    let surplus := decide (totalExpected outcomes < totalB outcomes)
    .incomplete ("INCOMPLETE: " ++ toString (connsTotal outcomes - connsClean outcomes) ++
      " connections abandoned, " ++
      toString (if c.totalBlocks < connsTotal outcomes then 0
        else c.totalBlocks - connsTotal outcomes) ++ " blocks unrequested, " ++
      toString (if surplus then totalB outcomes - totalExpected outcomes
        else totalExpected outcomes - totalB outcomes) ++ " bytes " ++
      if surplus then "over" else "short")

end

/-- The connections whose outcomes `main` collected: of distinct planned blocks. -/
structure Collected (c : Config) where
  ends : List (Ending c)
  planned : ∀ e ∈ ends, e.block < c.totalBlocks
  nodup : (ends.map Ending.block).Nodup

def Collected.outcomes {c : Config} (k : Collected c) : List Outcome := k.ends.map Ending.outcome

end LinuxS3
