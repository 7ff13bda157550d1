import Mathlib.Data.List.Basic
import MiniosvCtrl.Infra.Run

/-!
# `bucket_policy.py`: one statement of a shared document

Each invocation reads the bucket's whole policy, puts its own statement in or takes it out, and
writes the whole document back. Nothing ties the write to what was read.

* `Invocation` — one call, with the arguments `main` accepts
* `Invocation.kept` — the statements it leaves, from those it read
* `Step` — a read or a write of one of any number of invocations
* `lineage` — the invocations whose change is in the document, from the order of the calls alone
-/

namespace Bucket

open Infra

abbrev Sid := String

/-- What a statement says besides its `Sid`. -/
inductive Body
  /-- `s3:GetObject` on the resource, for requests through the endpoint: what `add` writes. -/
  | getObject (resource vpce : String)
  /-- Any other statement, as JSON. -/
  | other (json : String)
  deriving DecidableEq, Repr

structure Statement where
  sid : Option Sid
  body : Body
  deriving DecidableEq, Repr

structure Doc where
  version : String
  statement : List Statement
  deriving DecidableEq, Repr

/-- `EMPTY` -/
def Doc.empty : Doc := { version := "2012-10-17", statement := [] }

/-- The bucket's policy; `none` is `NoSuchBucketPolicy`. -/
abbrev Policy := Option Doc

/-- What `main` goes on with: the document, or `EMPTY` if the bucket has no policy. -/
def Policy.doc (p : Policy) : Doc := p.getD Doc.empty

def Policy.statements (p : Policy) : List Statement := (Policy.doc p).statement

inductive Action
  | add (resource vpce : String)
  | remove
  deriving DecidableEq, Repr

/-- `add needs --resource and --vpce` -/
def Action.accepted : Action → Bool
  | .add resource vpce => resource != "" && vpce != ""
  | .remove => true

structure Invocation where
  sid : Sid
  action : Action
  accepted : action.accepted = true
  deriving DecidableEq

namespace Invocation

def statement (a : Invocation) (resource vpce : String) : Statement :=
  { sid := some a.sid, body := .getObject resource vpce }

/-- What the action appends. -/
def added (a : Invocation) : List Statement :=
  match a.action with
  | .add resource vpce => [a.statement resource vpce]
  | .remove => []

/-- `kept` -/
def kept (a : Invocation) (l : List Statement) : List Statement :=
  l.filter (fun s => s.sid ≠ some a.sid) ++ a.added

/-- `put_bucket_policy`, or `delete_bucket_policy` of a document that would be empty. -/
def put (a : Invocation) (doc : Doc) : Policy :=
  if a.kept doc.statement = [] then none else some { doc with statement := a.kept doc.statement }

/-- The statements are as the invocation asked. -/
def Granted (a : Invocation) (l : List Statement) : Prop :=
  match a.action with
  | .add resource vpce => a.statement resource vpce ∈ l
  | .remove => ∀ s ∈ l, s.sid ≠ some a.sid

end Invocation

/-! ## Any number of invocations -/

structure State where
  policy : Policy
  /-- Invocations between their read and their write, with the document they read. -/
  reading : List (Invocation × Doc)
  /-- Those that have written. -/
  done : List Invocation

namespace State

def init (p : Policy) : State := { policy := p, reading := [], done := [] }

def started (s : State) : List Invocation := s.reading.map Prod.fst ++ s.done

end State

inductive Event
  | read (a : Invocation)
  | write (a : Invocation)
  deriving DecidableEq

/-- One call. No two invocations share a `Sid`. -/
inductive Step : State → Event → State → Prop
  | read {s : State} {a : Invocation} : a.sid ∉ s.started.map Invocation.sid →
      Step s (.read a) { s with reading := (a, Policy.doc s.policy) :: s.reading }
  | write {s : State} {a : Invocation} {doc : Doc} : (a, doc) ∈ s.reading →
      Step s (.write a)
        { policy := a.put doc, reading := s.reading.erase (a, doc), done := s.done ++ [a] }

/-! ## Whose change is in the document -/

/-- The invocations whose changes a document holds, oldest first. -/
abbrev Lineage := List Invocation

structure Schedule where
  /-- Of the bucket's policy. -/
  stored : Lineage
  /-- Of what each invocation read. -/
  seen : List (Invocation × Lineage)

def Schedule.step (t : Schedule) : Event → Schedule
  | .read a => { t with seen := (a, t.stored) :: t.seen }
  | .write a => { t with stored := (t.seen.lookup a).getD [] ++ [a] }

def schedule (l : List Event) : Schedule := l.foldl Schedule.step ⟨[], []⟩

/-- The last invocation to write, the one whose document it had read, and so on. -/
def lineage (l : List Event) : Lineage := (schedule l).stored

/-- The document that the changes of a lineage make of `l`. -/
def applied (l : List Statement) (m : Lineage) : List Statement :=
  m.foldl (fun l a => a.kept l) l

end Bucket
