import Mathlib.Data.List.Basic

/-!
# Regular expressions as a backtracking matcher runs them

A pattern is tried at every position of a text from the left, and at a position its alternatives
in the order in which they are written: a greedy repetition the longest way first, a lazy one the
shortest. The first way through is the match. `^` is the start of a line, as under `re.M`.

Repetitions are of a single class of characters, and a group is not nested in another.

* `Regex.run` — the ways through from a position, as a continuation is given them
* `search` — the first match, with its groups
* `findAll`, `starts`, `sub` — the matches that do not overlap
-/

namespace Infra

/-- A position in a text: the character before it, and the text from there on. -/
structure Cursor where
  prev : Option Char
  rest : List Char
  deriving DecidableEq, Repr

inductive Regex
  | lit (s : List Char)
  /-- One character of a class. -/
  | one (p : Char → Bool)
  /-- `[p]*` -/
  | many (p : Char → Bool)
  /-- `[p]*?` -/
  | few (p : Char → Bool)
  | seq (a b : Regex)
  | alt (a b : Regex)
  | group (a : Regex)
  /-- `^` -/
  | bol
  /-- `$`, the end of a line. -/
  | eol
  /-- `\b`, with the characters of words. -/
  | boundary (word : Char → Bool)

/-- The texts of the groups, in order. -/
abbrev Groups := List (List Char)

/-- Where a match ends, and its groups. -/
abbrev Found := Cursor × Groups

/-- What is to be matched next. -/
abbrev Cont := Cursor → Groups → Option Found

namespace Cursor

/-- The position after the text `s`, if it stands here. -/
def after (c : Cursor) : List Char → Option Cursor
  | [] => some c
  | x :: s =>
    match c.rest with
    | [] => none
    | y :: rest => if x = y then after ⟨some y, rest⟩ s else none

/-- The text from `c` to the later position `d`. -/
def upTo (c d : Cursor) : List Char := c.rest.take (c.rest.length - d.rest.length)

def atBol (c : Cursor) : Bool := c.prev = none || c.prev = some '\n'

def atEol (c : Cursor) : Bool := c.rest.head?.all (· == '\n')

/-- One side is a character of a word, the other is not. -/
def atBoundary (word : Char → Bool) (c : Cursor) : Bool :=
  c.prev.any word != c.rest.head?.any word

end Cursor

namespace Regex

def runMany (p : Char → Bool) (g : Groups) (k : Cont) : Option Char → List Char → Option Found
  | prev, [] => k ⟨prev, []⟩ g
  | prev, x :: rest =>
    if p x then (runMany p g k (some x) rest).or (k ⟨prev, x :: rest⟩ g) else k ⟨prev, x :: rest⟩ g

def runFew (p : Char → Bool) (g : Groups) (k : Cont) : Option Char → List Char → Option Found
  | prev, [] => k ⟨prev, []⟩ g
  | prev, x :: rest =>
    (k ⟨prev, x :: rest⟩ g).or (if p x then runFew p g k (some x) rest else none)

/-- The first way from `c` through the pattern and then through `k`. -/
def run : Regex → Cursor → Groups → Cont → Option Found
  | lit s, c, g, k =>
    match c.after s with
    | some d => k d g
    | none => none
  | one p, c, g, k =>
    match c.rest with
    | [] => none
    | x :: rest => if p x then k ⟨some x, rest⟩ g else none
  | many p, c, g, k => runMany p g k c.prev c.rest
  | few p, c, g, k => runFew p g k c.prev c.rest
  | seq a b, c, g, k => run a c g fun d g => run b d g k
  | alt a b, c, g, k => (run a c g k).or (run b c g k)
  | group a, c, g, k => run a c g fun d g => k d (g ++ [c.upTo d])
  | bol, c, g, k => if c.atBol then k c g else none
  | eol, c, g, k => if c.atEol then k c g else none
  | boundary word, c, g, k => if c.atBoundary word then k c g else none

section

variable {p : Char → Bool} {k : Cont} {g : Groups} {c : Cursor} {prev : Option Char} {a b : Regex}
  {s rest : List Char} {x : Char}

theorem runMany_cons : runMany p g k prev (x :: rest) =
    if p x then (runMany p g k (some x) rest).or (k ⟨prev, x :: rest⟩ g)
    else k ⟨prev, x :: rest⟩ g := rfl

theorem runFew_cons : runFew p g k prev (x :: rest) =
    (k ⟨prev, x :: rest⟩ g).or (if p x then runFew p g k (some x) rest else none) := rfl

theorem run_lit : run (lit s) c g k = (c.after s).elim none fun d => k d g := by
  show (match c.after s with | some d => k d g | none => none) = _
  cases c.after s <;> rfl

theorem run_one_cons :
    run (one p) ⟨prev, x :: rest⟩ g k = if p x then k ⟨some x, rest⟩ g else none := rfl

theorem run_many : run (many p) c g k = runMany p g k c.prev c.rest := rfl

theorem run_few : run (few p) c g k = runFew p g k c.prev c.rest := rfl

theorem run_seq : run (seq a b) c g k = run a c g fun d g => run b d g k := rfl

theorem run_group : run (group a) c g k = run a c g fun d g => k d (g ++ [c.upTo d]) := rfl

theorem run_bol : run bol c g k = if c.atBol then k c g else none := rfl

end

/-- The match that begins here. -/
def matchAt (r : Regex) (c : Cursor) : Option Found := run r c [] fun d g => some (d, g)

/-! ## Abbreviations -/

/-- One after the other. -/
def seqs : List Regex → Regex
  | [] => lit []
  | [r] => r
  | r :: rest => seq r (seqs rest)

/-- `[p]+` -/
def plus (p : Char → Bool) : Regex := seq (one p) (many p)

/-- `r?` -/
def opt (r : Regex) : Regex := alt r (lit [])

/-- The text of a literal. -/
def text (s : String) : Regex := lit s.toList

/-- `.` -/
def dot (c : Char) : Bool := c != '\n'

/-! ## Searching -/

def searchFrom (r : Regex) : Option Char → List Char → Option Found
  | prev, [] => r.matchAt ⟨prev, []⟩
  | prev, x :: rest => (r.matchAt ⟨prev, x :: rest⟩).or (searchFrom r (some x) rest)

theorem searchFrom_nil {r : Regex} {prev : Option Char} :
    r.searchFrom prev [] = r.matchAt ⟨prev, []⟩ := rfl

theorem searchFrom_cons {r : Regex} {prev : Option Char} {x : Char} {rest : List Char} :
    r.searchFrom prev (x :: rest) =
      (r.matchAt ⟨prev, x :: rest⟩).or (r.searchFrom (some x) rest) := rfl

/-- `re.search(r, t, re.M)` -/
def search (r : Regex) (t : List Char) : Option Found := r.searchFrom none t

/-- `m.group(1)` -/
def group1 (r : Regex) (t : List Char) : Option (List Char) :=
  (r.search t).bind fun f => f.2.head?

/-- The groups of `re.fullmatch(r, t)`. -/
def fullMatch (r : Regex) (t : List Char) : Option Groups :=
  (run r ⟨none, t⟩ [] fun d g => if d.rest = [] then some (d, g) else none).map Prod.snd

/-- Whether there is a match. -/
def found (r : Regex) (t : List Char) : Bool := (r.search t).isSome

/--
The matches that do not overlap, each with the text from its start on; `skip` characters
belong to the match before.
-/
def startsFrom (r : Regex) : Nat → Option Char → List Char → List (List Char × Found)
  | _, _, [] => []
  | skip + 1, _, x :: rest => startsFrom r skip (some x) rest
  | 0, prev, x :: rest =>
    match r.matchAt ⟨prev, x :: rest⟩ with
    | some f =>
      (x :: rest, f) :: startsFrom r (rest.length - f.1.rest.length) (some x) rest
    | none => startsFrom r 0 (some x) rest

/-- `re.finditer(r, t, re.M)`, for a pattern that matches no empty text. -/
def starts (r : Regex) (t : List Char) : List (List Char × Found) := r.startsFrom 0 none t

/-- `re.findall(r, t)`, for a pattern with one group. -/
def findAll (r : Regex) (t : List Char) : Groups := (r.starts t).filterMap fun f => f.2.2.head?

def subFrom (r : Regex) (repl : List Char) : Nat → Option Char → List Char → List Char
  | _, _, [] => []
  | skip + 1, _, x :: rest => subFrom r repl skip (some x) rest
  | 0, prev, x :: rest =>
    match r.matchAt ⟨prev, x :: rest⟩ with
    | some f => repl ++ subFrom r repl (rest.length - f.1.rest.length) (some x) rest
    | none => x :: subFrom r repl 0 (some x) rest

/-- `re.sub(r, repl, t)`, for a pattern that matches no empty text. -/
def sub (r : Regex) (repl t : List Char) : List Char := r.subFrom repl 0 none t

end Regex

end Infra
