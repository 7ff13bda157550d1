import MiniosvCtrl.Bucket.Policy

/-!
# `bench_grant` and `bench_revoke`

The shell functions of the setup, which call `bucket_policy.py` with an option for each resource,
and what the parser of `main` makes of those words: an option that is repeated keeps its last value.

* `Call.argv` — the words the shell passes
* `Args.parse` — what `argparse` makes of them
* `run` — calls one after another, on the bucket's policy
* `Names`, `Statement.allows` — which objects a statement lets the endpoint read
-/

namespace Bucket

open Infra

/-- `t.startswith("-")` -/
def dashed (t : String) : Bool := t.toList.head? == some '-'

/-- A word that no parser takes for an option: a `Sid`, an ARN, the endpoint's id. -/
structure Operand where
  text : String
  ne : text ≠ ""
  plain : dashed text = false
  deriving DecidableEq

/-- `bench_grant sid resource...`, of at least one resource, and `bench_revoke sid`. -/
inductive Call
  | grant (sid : Operand) (resource : Operand) (more : List Operand)
  | revoke (sid : Operand)
  deriving DecidableEq

namespace Call

def sid : Call → Operand
  | grant sid _ _ => sid
  | revoke sid => sid

/-- `add|remove` -/
def action : Call → String
  | grant .. => "add"
  | revoke _ => "remove"

def resources : Call → List Operand
  | grant _ r more => r :: more
  | revoke _ => []

/-- `bench_policy`: the words behind the script's name. -/
def argv (vpce : Operand) (c : Call) : List String :=
  [c.action, "--sid", c.sid.text, "--vpce", vpce.text] ++
    c.resources.flatMap fun r => ["--resource", r.text]

end Call

/-! ## `bucket_policy.py` -/

/-- `a` -/
structure Args where
  action : Option String
  sid : Option String
  resource : Option String
  vpce : Option String
  deriving DecidableEq

namespace Args

def empty : Args := ⟨none, none, none, none⟩

/-- An option's value; one that is there already gives way. -/
def store (a : Args) (option value : String) : Option Args :=
  if dashed value then none
  else if option = "--sid" then some { a with sid := some value }
  else if option = "--resource" then some { a with resource := some value }
  else if option = "--vpce" then some { a with vpce := some value }
  else none

/-- `action` -/
def positional (a : Args) (word : String) : Option Args :=
  if a.action = none ∧ (word = "add" ∨ word = "remove") then some { a with action := some word }
  else none

/-- `parse_args`, of options that are written out, each with its value as a word of its own;
`none` is its `SystemExit`. -/
def parse (a : Args) : List String → Option Args
  | [] => if a.action.isSome ∧ a.sid.isSome then some a else none
  | [word] => if dashed word then none else (a.positional word).bind fun a => parse a []
  | word :: value :: rest =>
    if dashed word then (a.store word value).bind fun a => parse a rest
    else (a.positional word).bind fun a => parse a (value :: rest)

end Args

/-- `if a.action == "add"`; an option that is missing or empty ends an `add`. -/
def invocation (a : Args) : Option Invocation := do
  let action ← a.action
  let sid ← a.sid
  let act := if action = "add" then Action.add (a.resource.getD "") (a.vpce.getD "") else .remove
  if h : act.accepted = true then some ⟨sid, act, h⟩ else none

/-- `main`, with no other call between its read and its write. -/
def main (argv : List String) (p : Policy) : Policy :=
  match (Args.empty.parse argv).bind invocation with
  | none => p
  | some a => a.put (Policy.doc p)

/-- Calls one after another. -/
def run (vpce : Operand) (p : Policy) (l : List Call) : Policy :=
  l.foldl (fun p c => main (c.argv vpce) p) p

/-! ## What a statement allows -/

/-- The objects that a resource names: `*` and `?` are wildcards. -/
inductive Names : List Char → List Char → Prop
  | nil : Names [] []
  | char {c : Char} {p t : List Char} : Names p t → Names (c :: p) (c :: t)
  | any {c : Char} {p t : List Char} : Names p t → Names ('?' :: p) (c :: t)
  | skip {p t : List Char} : Names p t → Names ('*' :: p) t
  | more {c : Char} {p t : List Char} : Names ('*' :: p) t → Names ('*' :: p) (c :: t)

/-- The statement lets what comes through the endpoint read the object. -/
def Statement.Allows (s : Statement) (vpce object : String) : Prop :=
  ∃ resource, s.body = .getObject resource vpce ∧ Names resource.toList object.toList

/-- It lets it read every object that the resource names. -/
def Statement.AllowsAll (s : Statement) (vpce resource : String) : Prop :=
  ∀ object : String, Names resource.toList object.toList → s.Allows vpce object

end Bucket
