import Mathlib.Data.List.Infix
import Mathlib.Data.Nat.Digits.Defs

/-!
# How `run_one` reads an attempt's log

`run_one` appends a header and the child's output to a log named by the experiment file's stem,
and when the child fails it looks for two kinds of phrases in the last 4000 characters of that
log. A log is modelled as the text `read_text` returns.

* `classify` — the result for an exit code and a log
* `Before` — what a log may hold when an experiment's attempt opens it
* `Situation` — one attempt, with what else its log holds
-/

namespace Queue

abbrev Text := List Char

/-- `SPOT_REFUSED`. -/
def spotRefused : Text := "spot requested but not provided".toList

/-- `CREDENTIALS_GONE`. -/
def credentialsGone : List Text :=
  ["ExpiredToken".toList, "LoginRefreshRequired".toList, "refresh token has expired".toList,
    "RequestExpired".toList]

/-- `t[-n:]` -/
def lastChars (n : Nat) (t : Text) : Text := t.drop (t.length - n)

inductive Result
  | done | credentials
  /-- Refused by spot: `run_one` retries. -/
  | waiting
  | failed
  deriving DecidableEq, Repr

/-- A credential phrase is in the text. -/
def SaysGone (t : Text) : Prop := ∃ m ∈ credentialsGone, m <:+: t

def SaysRefused (t : Text) : Prop := spotRefused <:+: t

instance (t : Text) : Decidable (SaysGone t) := List.decidableBEx _ _

instance (t : Text) : Decidable (SaysRefused t) := inferInstanceAs (Decidable (_ <:+: _))

/-- What `run_one` makes of the exit code and the log. -/
def classify (rc : Int) (log : Text) : Result :=
  if rc = 0 then .done
  else
    let tail := lastChars 4000 log
    if SaysGone tail then .credentials
    else if SaysRefused tail then .waiting
    else .failed

/-! ## Experiments and their logs -/

/-- An experiment of `state.json`, as far as its log goes. -/
structure Member where
  name : Text
  path : Text
  group : Nat
  deriving DecidableEq, Repr

/-- `Path(path).name` -/
def fileName (path : Text) : Text := (path.reverse.takeWhile (· ≠ '/')).reverse

/-- `Path(path).stem`: without the last suffix, unless the name starts or ends with its dot. -/
def stem (path : Text) : Text :=
  let name := fileName path
  let suffix := name.reverse.takeWhile (· ≠ '.')
  if suffix.length + 1 < name.length ∧ suffix ≠ [] then
    name.take (name.length - suffix.length - 1)
  else name

/-- What `submit` fixes. -/
structure Plan where
  experiments : List Member
  interleave : Bool
  concurrent : Bool
  /-- `"interleave": a.interleave or a.concurrent` -/
  interleave_of_concurrent : concurrent = true → interleave = true

namespace Plan

/-- A place in the list of experiments. -/
abbrev Index (q : Plan) := Fin q.experiments.length

def member (q : Plan) (i : q.Index) : Member := q.experiments.get i

/-- The two experiments append to one log. -/
def SameLog (q : Plan) (i j : q.Index) : Prop :=
  stem (q.member i).path = stem (q.member j).path

instance (q : Plan) (i j : q.Index) : Decidable (q.SameLog i j) :=
  inferInstanceAs (Decidable (_ = _))

/-- An experiment that runs at the same time appends to the same log. -/
def Shared (q : Plan) (i : q.Index) : Prop :=
  q.concurrent = true ∧ ∃ j, j ≠ i ∧ (q.member j).group = (q.member i).group ∧ q.SameLog j i

/-- Nothing appends to the log before the experiment's first attempt. -/
def FirstWriter (q : Plan) (i : q.Index) : Prop := ∀ j, j < i → ¬ q.SameLog j i

end Plan

/-- One attempt's own part of the log. -/
structure Section where
  stamp : Text
  reps : Nat
  attempt : Nat
  output : Text
  /-- `x["attempts"] += 1` comes first. -/
  attempt_pos : 0 < attempt

/-- The line `run_one` writes before it starts the child. -/
def header (x : Member) (s : Section) : Text :=
  "\n===== ".toList ++ s.stamp ++ " ".toList ++ x.name ++ " --reps ".toList ++
    Nat.toDigits 10 s.reps ++ " attempt ".toList ++ Nat.toDigits 10 s.attempt ++ " =====\n".toList

def Section.text (x : Member) (s : Section) : Text := header x s ++ s.output

/--
What is written to the log between an attempt's start and its end: the attempt's own part, and
between its lines whatever an experiment that runs at the same time writes.
-/
def Written (q : Plan) (i : q.Index) (s : Section) (w : Text) : Prop :=
  (s.text (q.member i)).Sublist w ∧ (¬ q.Shared i → w = s.text (q.member i))

/-- What the log of experiment `i` may hold when its `n`-th attempt opens it. -/
inductive Before (q : Plan) (i : q.Index) : Nat → Text → Prop
  | fresh : q.FirstWriter i → Before q i 1 []
  /-- An experiment listed before had its last attempt. -/
  | shared {j : q.Index} (log : Text) (s : Section) : j < i → q.SameLog j i →
      Before q i 1 (log ++ s.text (q.member j))
  /-- The attempt before was refused spot. -/
  | retry {t w : Text} (s : Section) (rc : Int) : Before q i s.attempt t → Written q i s w →
      classify rc (t ++ w) = .waiting → Before q i (s.attempt + 1) (t ++ w)
  /-- The attempt before was done, and other experiments had their turn. -/
  | next {t w : Text} (s : Section) (more : Text) : q.interleave = true →
      Before q i s.attempt t → Written q i s w →
      (more ≠ [] → ∃ j, j ≠ i ∧ q.SameLog j i) → Before q i (s.attempt + 1) (t ++ w ++ more)

/-- An attempt of experiment `i` that has ended, with its log. -/
structure Situation (q : Plan) (i : q.Index) (own : Section) where
  before : Text
  written : Text
  before_ok : Before q i own.attempt before
  written_ok : Written q i own written

/-- The result `run_one` gives for the attempt. -/
def Situation.result {q : Plan} {i : q.Index} {own : Section} (s : Situation q i own)
    (rc : Int) : Result :=
  classify rc (s.before ++ s.written)

end Queue
