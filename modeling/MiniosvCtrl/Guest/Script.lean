import MiniosvCtrl.Infra.Literal

/-!
# The program that a guest runs

`guest_script` makes one program of a bench's configuration, the helpers in front of every
`instance.py` and that script itself. The guest imports nothing: `CONFIG` is the program's second
line, which Python reads as it reads any literal.

* `guestScript` — the program
* `configOf` — the `CONFIG` that it sets
* `cfg` — a value of it, or else of the environment
* `merged`, `encode` — the environment of what the guest starts

The texts of the environment are UTF-8.
-/

namespace Prelude

open Infra

/-- A text of Python's, by the numbers of its characters: half of a pair is one of them. -/
abbrev Text := List Nat

def text (s : String) : Text := s.toList.map Char.toNat

/-- What a text is on the other side of `json.dumps`. -/
def sent (s : String) : Text := Literal.units s.toList

abbrev Environ := String → Option String

/-- `CONFIG` -/
abbrev Config := List (Text × Text)

/-! ## The driver -/

/-- `body.split("\n", 1)[1] if body.startswith("#!") else body`; `none` is an `IndexError`. -/
def withoutShebang (body : List Char) : Option (List Char) :=
  if "#!".toList <+: body then
    match body.dropWhile (· != '\n') with
    | [] => none
    | _ :: rest => some rest
  else some body

/-- `guest_script` -/
def guestScript (conf : List (String × String)) (prelude body : List Char) :
    Option (List Char) := do
  let body ← withoutShebang body
  let dict := Literal.dumpsDict (conf.map fun e => (e.1.toList, e.2.toList))
  return "#!/usr/bin/env python3".toList ++
    '\n' :: ("CONFIG = ".toList ++ dict ++ '\n' :: (prelude ++ '\n' :: body))

/-! ## The guest -/

/-- The first line of a text, and what follows it. -/
def firstLine (t : List Char) : List Char × List Char :=
  (t.takeWhile (· != '\n'), (t.dropWhile (· != '\n')).drop 1)

/-- The `CONFIG` that the second line of a program sets, if its first one is a comment. -/
def configOf (program : List Char) : Option Config :=
  let comment := firstLine program
  let line := (firstLine comment.2).1
  if "#".toList <+: comment.1 ∧ "CONFIG = ".toList <+: line then Literal.dict (line.drop 9)
  else none

/-- `CONFIG.get(key)`; of two items with one key the later one counts. -/
def Config.get (c : Config) (key : String) : Option Text :=
  (c.reverse.find? fun e => e.1 = text key).map Prod.snd

/-- `cfg(key, default)` -/
def cfg (c : Config) (environ : Environ) (key default : String) : Text :=
  match c.get key with
  | some v => v
  | none => text ((environ key).getD default)

/-- `dict(os.environ)`, updated with `CONFIG`. -/
def merged (c : Config) (environ : Environ) (key : String) : Option Text :=
  match c.get key with
  | some v => some v
  | none => (environ key).map text

/-- What a text is to a program that is started; `none` is an exception of `Popen`. -/
def encode (t : Text) : Option String :=
  if 0 ∈ t then none else (Literal.chars t).map String.ofList

/-- `CONFIG` in an environment that `Popen` takes. -/
def Config.Encodes (c : Config) : Prop :=
  ∀ e ∈ c, (encode e.1).isSome ∧ '='.toNat ∉ e.1 ∧ (encode e.2).isSome

instance (c : Config) : Decidable c.Encodes := inferInstanceAs (Decidable (∀ e ∈ c, _))

end Prelude
