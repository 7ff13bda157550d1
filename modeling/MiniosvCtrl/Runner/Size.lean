import MiniosvCtrl.Infra.Python
import MiniosvCtrl.Runner.Sweep

/-!
# `size`

* `sizePattern` — `(\d+)\s*([KMGT]?)i?B?`, whatever the case
* `size` — the number of bytes; `none` is an exception
-/

namespace Runner

open Infra Regex

variable (B : Builtins)

/-- `[KMGT]`, which is also the sign for kelvin when the case is ignored. -/
def units : List Char := ['K', 'M', 'G', 'T', 'k', 'm', 'g', 't', '\u212a']

/-- `i`, and the `I` without and the `I` with a dot. -/
def iecs : List Char := ['i', 'I', '\u0131', '\u0130']

def isUnit (c : Char) : Bool := c ∈ units

def isTail (c : Char) : Bool := c ∈ iecs

def isBytes (c : Char) : Bool := c ∈ ['B', 'b']

def sizePattern : Regex :=
  .seqs [.group (plus B.digit), .many isSpace, .group (opt (.one isUnit)), opt (.one isTail),
    opt (.one isBytes)]

/-- The table of the factors; `m.group(2).upper()` is looked up in it. -/
def factor : List Char → Option Nat
  | [] => some 1
  | c :: _ =>
    if c = 'K' ∨ c = 'k' then some (2 ^ 10)
    else if c = 'M' ∨ c = 'm' then some (2 ^ 20)
    else if c = 'G' ∨ c = 'g' then some (2 ^ 30)
    else if c = 'T' ∨ c = 't' then some (2 ^ 40)
    else none

def size (t : String) : Option Nat := do
  let m ← (sizePattern B).fullMatch (strip t).toList
  let n ← B.int (m.headD [])
  let f ← factor ((m.drop 1).headD [])
  return n * f

end Runner
