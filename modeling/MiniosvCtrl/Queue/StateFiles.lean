import MiniosvCtrl.Infra.Files
import MiniosvCtrl.Runner.Sweep

/-!
# The files of a queue

What `submit`, the runners and everyone who asks for the state of a queue do to the files under
`results/queue`, write by write and read by read. A `submit` makes the queue's directory, writes
`state.json` as it is and points `LATEST` at the queue; a runner writes `state.json.tmp` and gives
it the other name; a reader reads `LATEST` and then, piece by piece, the `state.json` that it
opened. All of them run side by side, and a `submit` or a runner may end at any moment.

* `Sys`, `Step` — the files, and a step of one process
* `Store`, `Store.Step` — what they stand for: versions that are published and read as a whole

`LATEST` is shorter than a block, and is read and written at once; only to be emptied is a step of
its own. The lock of `save` is held throughout, so that a runner writes one text at a time.
-/

namespace StateFiles

open Infra Runner

abbrev Text := List Char

/-- What `strftime("%Y%m%dT%H%M%SZ")` gives. -/
structure IsQid (q : Text) : Prop where
  length : q.length = 16
  solid : ∀ c ∈ q, isSpace c = false

/-- `t.strip()` -/
def strip (t : Text) : Text := ((t.dropWhile isSpace).reverse.dropWhile isSpace).reverse

/-- Names under `results/queue`. -/
inductive Name
  | latest
  | state (q : Text)
  | tmp (q : Text)
  deriving DecidableEq

/-- `os.replace(tmp, self.qdir / "state.json")` -/
def replaced (fs : Fs Name Char) (q : Text) : Fs Name Char := fs.rename (.tmp q) (.state q)

/-- How far a `submit` is. -/
inductive Submit
  | ready
  /-- `state.json` is open; the rest of the text is to be written. -/
  | writing (q : Text) (i : Nat) (text rest : Text)
  | written (q : Text)
  /-- `LATEST` is open, and was emptied. -/
  | pointing (q : Text) (i : Nat)
  | pointed (q : Text)
  | returned

/-- The queue of a `submit`, from its directory on until the runner has it. -/
def Submit.queue : Submit → Option Text
  | ready | returned => none
  | writing q .. | written q | pointing q _ | pointed q => some q

inductive Runner
  | idle
  /-- `state.json.tmp` is open. -/
  | saving (i : Nat) (text rest : Text)
  | killed

/-- How far `running_queue` or `latest_state` is. -/
inductive Reader
  | ready
  /-- What `LATEST` held. -/
  | found (l : Text)
  | reading (q : Text) (i : Nat) (got : Text)
  | got (q t : Text)
  /-- There is no such file. -/
  | failed

structure Sys where
  fs : Fs Name Char
  /-- The directories that were made. -/
  made : Text → Bool
  submits : Nat → Submit
  runners : Text → Option Runner
  readers : Nat → Reader

def Sys.init : Sys where
  fs := Fs.empty
  made _ := false
  submits _ := .ready
  runners _ := none
  readers _ := .ready

inductive Act
  | mkdir (k : Nat) (q text : Text)
  | writeState (k : Nat) (piece : Text)
  | closeState (k : Nat) (q text : Text)
  | openLatest (k : Nat)
  | writeLatest (k : Nat)
  | spawn (k : Nat)
  | interrupt (k : Nat)
  | save (q text : Text)
  | writeTmp (q piece : Text)
  | replace (q text : Text)
  | kill (q : Text)
  | readLatest (r : Nat)
  | openState (r : Nat)
  | read (r : Nat) (piece : Text)
  | eof (r : Nat)
  | again (r : Nat)

namespace Sys

variable (s : Sys)

def setSubmit (k : Nat) (x : Submit) : Sys := { s with submits := Function.update s.submits k x }

def setRunner (q : Text) (x : Runner) : Sys :=
  { s with runners := Function.update s.runners q (some x) }

def setReader (r : Nat) (x : Reader) : Sys := { s with readers := Function.update s.readers r x }

def setFs (fs : Fs Name Char) : Sys := { s with fs := fs }

/-- `qdir.mkdir(parents=True)` -/
def make (q : Text) : Sys := { s with made := Function.update s.made q true }

/-- What `LATEST.read_text()` gives, if there is a `LATEST`. -/
def latest : Option Text := (s.fs.names .latest).map s.fs.content

end Sys

/-- One step of one process. -/
inductive Step : Sys → Act → Sys → Prop
  /-- `mkdir` fails if there is such a directory; nothing stands in the one it makes. -/
  | mkdir {s : Sys} {k : Nat} {q text : Text} : s.submits k = .ready → s.made q = false →
      IsQid q →
      Step s (.mkdir k q text) (((s.make q).setFs (s.fs.openW (.state q)).1).setSubmit k
        (.writing q (s.fs.openW (.state q)).2 text text))
  | writeState {s : Sys} {k i : Nat} {q text piece rest : Text} :
      s.submits k = .writing q i text (piece ++ rest) →
      Step s (.writeState k piece)
        ((s.setFs (s.fs.write i (s.fs.content i).length piece)).setSubmit k
          (.writing q i text rest))
  | closeState {s : Sys} {k i : Nat} {q text : Text} : s.submits k = .writing q i text [] →
      Step s (.closeState k q text) (s.setSubmit k (.written q))
  | openLatest {s : Sys} {k : Nat} {q : Text} : s.submits k = .written q →
      Step s (.openLatest k) ((s.setFs (s.fs.openW .latest).1).setSubmit k
        (.pointing q (s.fs.openW .latest).2))
  | writeLatest {s : Sys} {k i : Nat} {q : Text} : s.submits k = .pointing q i →
      Step s (.writeLatest k) ((s.setFs (s.fs.write i 0 q)).setSubmit k (.pointed q))
  | spawn {s : Sys} {k : Nat} {q : Text} : s.submits k = .pointed q →
      Step s (.spawn k) ((s.setRunner q .idle).setSubmit k .returned)
  | interrupt {s : Sys} {k : Nat} : Step s (.interrupt k) (s.setSubmit k .returned)
  | save {s : Sys} {q text : Text} : s.runners q = some .idle →
      Step s (.save q text) ((s.setFs (s.fs.openW (.tmp q)).1).setRunner q
        (.saving (s.fs.openW (.tmp q)).2 text text))
  | writeTmp {s : Sys} {i : Nat} {q text piece rest : Text} :
      s.runners q = some (.saving i text (piece ++ rest)) →
      Step s (.writeTmp q piece)
        ((s.setFs (s.fs.write i (s.fs.content i).length piece)).setRunner q (.saving i text rest))
  | replace {s : Sys} {i : Nat} {q text : Text} : s.runners q = some (.saving i text []) →
      Step s (.replace q text) ((s.setFs (replaced s.fs q)).setRunner q .idle)
  | kill {s : Sys} {q : Text} {x : Runner} : s.runners q = some x →
      Step s (.kill q) (s.setRunner q .killed)
  /-- `LATEST.is_file()`, and its text. -/
  | readLatest {s : Sys} {r : Nat} : s.readers r = .ready →
      Step s (.readLatest r) (s.setReader r (s.latest.elim .failed .found))
  | openState {s : Sys} {r : Nat} {l : Text} : s.readers r = .found l →
      Step s (.openState r) (s.setReader r
        ((s.fs.names (.state (strip l))).elim .failed fun i => .reading (strip l) i []))
  | read {s : Sys} {r i : Nat} {q got piece rest : Text} : s.readers r = .reading q i got →
      (s.fs.content i).drop got.length = piece ++ rest →
      Step s (.read r piece) (s.setReader r (.reading q i (got ++ piece)))
  | eof {s : Sys} {r i : Nat} {q got : Text} : s.readers r = .reading q i got →
      (s.fs.content i).length ≤ got.length →
      Step s (.eof r) (s.setReader r (.got q got))
  | again {s : Sys} {r : Nat} : Step s (.again r) (s.setReader r .ready)

/-- The texts of a queue's state that an action brings to their end. -/
def Act.publication (q : Text) : Act → List Text
  | .closeState _ q' text | .replace q' text => if q' = q then [text] else []
  | _ => []

/-- All texts of a queue's state that were brought to their end, in order. -/
def published (l : List Act) (q : Text) : List Text := l.flatMap (Act.publication q)

/-! ## What the files stand for -/

/-- What a reader has seen. -/
inductive View
  | idle
  | named (q : Text)
  /-- A version, as a whole. -/
  | has (q t : Text)
  | nothing

/-- The versions of each queue's state, and the queue that is the latest. -/
structure Store where
  versions : Text → List Text
  latest : Option Text
  views : Nat → View

namespace Store

def init : Store where
  versions _ := []
  latest := none
  views _ := .idle

inductive Act
  | publish (q t : Text)
  | point (o : Option Text)
  | look (r : Nat)
  | fetch (r : Nat)
  | again (r : Nat)

def setView (σ : Store) (r : Nat) (v : View) : Store :=
  { σ with views := Function.update σ.views r v }

/-- One step, of which nobody sees a part. -/
inductive Step : Store → Act → Store → Prop
  | publish {σ : Store} {q t : Text} :
      Step σ (.publish q t)
        { σ with versions := Function.update σ.versions q (σ.versions q ++ [t]) }
  /-- There may be no latest queue for a while. -/
  | point {σ : Store} {o : Option Text} : (∀ q ∈ o, σ.versions q ≠ []) →
      Step σ (.point o) { σ with latest := o }
  | look {σ : Store} {r : Nat} : σ.views r = .idle →
      Step σ (.look r) (σ.setView r (σ.latest.elim .nothing .named))
  | fetch {σ : Store} {r : Nat} {q t : Text} : σ.views r = .named q →
      (σ.versions q).getLast? = some t →
      Step σ (.fetch r) (σ.setView r (.has q t))
  | again {σ : Store} {r : Nat} : Step σ (.again r) (σ.setView r .idle)

end Store

end StateFiles
