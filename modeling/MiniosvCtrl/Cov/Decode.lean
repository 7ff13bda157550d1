import MiniosvCtrl.Infra.Base64
import MiniosvCtrl.Infra.Python
import MiniosvCtrl.Infra.Regex

/-!
# Coverage dumps on a console

The guest prints its profile as numbered lines of base64 with a line before them and one after.
`decode` merges the lines of several console texts, and undoes base64 and the run lengths.

* `passes`, `announced` — what the texts hold
* `loop` — the run lengths
* `decode`
-/

namespace Cov

open Infra

variable (B : Builtins)

/-! ## The lines -/

/-- `[A-Za-z0-9+/=]` -/
def isPayload (c : Char) : Bool := c.isAlphanum || c == '+' || c == '/' || c == '='

/-- `^COV:(\d+):([A-Za-z0-9+/=]+)\r?$` -/
def line : Regex :=
  .seqs [.bol, .text "COV:", .group (.plus B.digit), .text ":", .group (.plus isPayload),
    .opt (.lit ['\x0d']), .eol]

/-- `^COV BEGIN raw=(\d+)` -/
def begins : Regex := .seqs [.bol, .text "COV BEGIN raw=", .group (.plus B.digit)]

/-- `^COV END lines=(\d+)` -/
def ends : Regex := .seqs [.bol, .text "COV END lines=", .group (.plus B.digit)]

/-- The number and the text of a line; `none` is a `ValueError`. -/
def numbered (groups : Groups) : Option (Nat × List Char) :=
  (B.int (groups.headD [])).map fun i => (i, (groups.drop 1).headD [])

/-- The lines of all texts, in the order in which they are found. -/
def passes (texts : List (List Char)) : Option (List (Nat × List Char)) :=
  (texts.mapM fun text => ((line B).starts text).mapM fun f => numbered B f.2.2).map List.flatten

/-- The number of the last text that has one; `none` is a `ValueError`. -/
def announced (r : Regex) (texts : List (List Char)) : Option (Option Nat) :=
  texts.foldlM (fun number text =>
    match r.group1 text with
    | none => some number
    | some digits => (B.int digits).map some) none

/-! ## Run lengths -/

/-- `struct.unpack_from("<I", rle, i)[0]`; `none` is a `struct.error`. -/
def unpackFrom (rle : List UInt8) (i : Nat) : Option Nat :=
  match rle.drop i with
  | a :: b :: c :: d :: _ =>
    some (a.toNat + 2 ^ 8 * b.toNat + 2 ^ 16 * c.toNat + 2 ^ 24 * d.toNat)
  | _ => none

/-- `while i < len(rle)` -/
def loop (rle : List UInt8) (i : Nat) (out : List UInt8) : Option (List UInt8) :=
  if h : i < rle.length then
    if rle[i] ≠ 0 then loop rle (i + 1) (out ++ [rle[i]])
    else
      match unpackFrom rle (i + 1) with
      | none => none
      | some n => loop rle (i + 5) (out ++ List.replicate n 0)
  else some out
termination_by rle.length - i

/-! ## `decode` -/

inductive Raised
  /-- `ValueError`: a number has too many digits. -/
  | value
  /-- `no complete COV dump in the logs` -/
  | noDump
  /-- `... of ... lines missing, first ...` -/
  | missing (lines : List Nat) (end_ : Nat)
  /-- `binascii.Error` -/
  | base64
  /-- `struct.error` -/
  | cutOff
  /-- `decoded ... bytes, the guest wrote ...` -/
  | length (decoded want : Nat)
  deriving DecidableEq, Repr

def orRaise {α : Type} (e : Raised) : Option α → Except Raised α
  | none => .error e
  | some a => .ok a

/-- `[i for i in range(end) if i not in lines]` -/
def missing (lines : List (Nat × List Char)) (end_ : Nat) : List Nat :=
  (List.range end_).filter fun i => (lines.lookup i).isNone

/-- `"".join(lines[i] for i in range(end))` -/
def joined (lines : List (Nat × List Char)) (end_ : Nat) : List Char :=
  (List.range end_).flatMap fun i => (lines.lookup i).getD []

/-- From `rle = ...` on. -/
def undo (lines : List (Nat × List Char)) (end_ want : Nat) : Except Raised (List UInt8) := do
  let rle ← orRaise .base64 (Base64.decode (joined lines end_))
  let out ← orRaise .cutOff (loop rle 0 [])
  if out.length ≠ want then .error (.length out.length want) else .ok out

def decode (texts : List (List Char)) : Except Raised (List UInt8) := do
  let lines ← orRaise .value (passes B texts)
  let want ← orRaise .value (announced B (begins B) texts)
  let end_ ← orRaise .value (announced B (ends B) texts)
  let end_ ← orRaise .noDump end_
  let want ← orRaise .noDump want
  if missing lines end_ ≠ [] then .error (.missing (missing lines end_) end_)
  else undo lines end_ want

end Cov
