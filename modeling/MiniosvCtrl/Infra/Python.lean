import Mathlib.Algebra.Group.Nat.Defs
import Mathlib.Data.Rat.Defs
import Mathlib.Data.List.Basic
import MiniosvCtrl.Infra.Regex

/-!
# Python's texts and values

What a program sees of Python's built-in types: the classes of characters that `\d`, `\w` and `\s`
stand for, `int` and `float` of a text, and the values a `dict` of scalars holds.

The tables behind the characters and the floats are not part of a program, so they are a
parameter, `Builtins`, with what is documented of them.

* `Builtins` — the tables
* `Builtins.int`, `Builtins.float` — a text as a number
* `Scalar` — `None`, a bool, an int, a float or a text
* `Builtins.exact` — floats that are the numbers their texts denote
* `Py` — a computation that may raise
-/

namespace Infra

/-- The tables of characters, and the floats. -/
structure Builtins where
  Float : Type
  decEq : DecidableEq Float
  zero : Float
  /-- `float(t)`; `none` is a `ValueError`. -/
  float : List Char → Option Float
  /-- `str(x)` -/
  showFloat : Float → String
  /-- The value of a decimal digit of any script. -/
  decimal : Char → Option Nat
  /-- `c.isalnum()` -/
  alnum : Char → Bool
  decimal_ascii : ∀ c, c.toNat < 128 → decimal c = if c.isDigit then some (c.toNat - 48) else none
  alnum_ascii : ∀ c, c.toNat < 128 → alnum c = c.isAlphanum

variable (B : Builtins)

instance : DecidableEq B.Float := B.decEq

namespace Builtins

/-- `\d` -/
def digit (c : Char) : Bool := (B.decimal c).isSome

/-- `\w` -/
def word (c : Char) : Bool := B.alnum c || c == '_'

/-- `[\d.]` -/
def digitOrPoint (c : Char) : Bool := B.digit c || c == '.'

/-- `sys.get_int_max_str_digits()` -/
def maxDigits : Nat := 4300

/-- The number whose decimal digits these are. -/
def natOf (l : List Char) : Nat := l.foldl (fun n c => 10 * n + (B.decimal c).getD 0) 0

/-- `int(t)`, of digits; `none` is a `ValueError`. -/
def int (l : List Char) : Option Nat :=
  if l ≠ [] ∧ l.all B.digit = true ∧ l.length ≤ maxDigits then some (B.natOf l) else none

/-! ## Numbers that were printed -/

theorem digit_ascii {c : Char} (h : c.toNat < 128) : B.digit c = c.isDigit := by
  rw [digit, B.decimal_ascii c h]
  cases hc : c.isDigit <;> simp

theorem toNat_lt_of_isDigit {c : Char} (h : c.isDigit = true) : c.toNat < 128 := by
  have hle : c.val ≤ 57 := by
    rw [Char.isDigit, Bool.and_eq_true] at h
    simpa using h.2
  exact Nat.lt_of_le_of_lt (UInt32.le_iff_toNat_le.mp hle) (by decide)

theorem digit_of_isDigit {c : Char} (h : c.isDigit = true) : B.digit c = true := by
  rw [B.digit_ascii (toNat_lt_of_isDigit h), h]

theorem isDigit_of_mem_toDigits {n : Nat} {c : Char} (h : c ∈ Nat.toDigits 10 n) :
    c.isDigit = true :=
  Nat.isDigit_of_mem_toDigits (by omega) (by omega) h

theorem natOf_eq_ofDigitChars {l : List Char} (h : ∀ c ∈ l, c.isDigit = true) :
    B.natOf l = Nat.ofDigitChars 10 l 0 := by
  have hvalue : ∀ c ∈ l, (B.decimal c).getD 0 = c.toNat - '0'.toNat := by
    intro c hc
    rw [B.decimal_ascii c (toNat_lt_of_isDigit (h c hc)), if_pos (h c hc)]
    rfl
  rw [natOf, Nat.ofDigitChars_eq_foldl]
  exact List.foldl_ext _ _ 0 fun n c hc => by rw [hvalue c hc]

/-- Twenty digits are not too many. -/
theorem lt_maxDigits {n : Nat} (h : n < 10 ^ 20) : n < 10 ^ maxDigits :=
  Nat.lt_of_lt_of_le h (Nat.pow_le_pow_right (by decide) (by decide))

/-- **`int` of a number that was printed is the number.** -/
theorem int_toDigits {n : Nat} (h : n < 10 ^ maxDigits) :
    B.int (Nat.toDigits 10 n) = some n := by
  have hall : (Nat.toDigits 10 n).all B.digit = true :=
    List.all_eq_true.mpr fun c hc => B.digit_of_isDigit (isDigit_of_mem_toDigits hc)
  have hlength := (Nat.length_toDigits_le_iff (by decide) (by decide)).mpr h
  rw [int, if_pos ⟨Nat.toDigits_ne_nil, hall, hlength⟩,
    B.natOf_eq_ofDigitChars fun c hc => isDigit_of_mem_toDigits hc, Nat.ofDigitChars_ten_toDigits]

end Builtins

/-- `None` or a scalar. -/
inductive Scalar (B : Builtins)
  | none
  | bool (b : Bool)
  | int (n : Int)
  | float (x : B.Float)
  | str (t : String)

namespace Scalar

variable {B}

instance : DecidableEq (Scalar B)
  | none, none => isTrue rfl
  | bool a, bool b => decidable_of_iff (a = b) (by simp)
  | int a, int b => decidable_of_iff (a = b) (by simp)
  | float a, float b => decidable_of_iff (a = b) (by simp)
  | str a, str b => decidable_of_iff (a = b) (by simp)
  | none, bool _ | none, int _ | none, float _ | none, str _ => isFalse nofun
  | bool _, none | bool _, int _ | bool _, float _ | bool _, str _ => isFalse nofun
  | int _, none | int _, bool _ | int _, float _ | int _, str _ => isFalse nofun
  | float _, none | float _, bool _ | float _, int _ | float _, str _ => isFalse nofun
  | str _, none | str _, bool _ | str _, int _ | str _, float _ => isFalse nofun

/-- `bool(v)` -/
def truthy : Scalar B → Bool
  | none => false
  | bool b => b
  | int n => n != 0
  | float x => x ≠ B.zero
  | str t => t != ""

def isNone : Scalar B → Bool
  | none => true
  | _ => false

/-- `str(v)` -/
def text : Scalar B → String
  | none => "None"
  | bool b => if b then "True" else "False"
  | int n => toString n
  | float x => B.showFloat x
  | str t => t

/-- `a or b` -/
def or (a b : Scalar B) : Scalar B := if a.truthy then a else b

end Scalar

/-! ## Exact floats -/

namespace Builtins

/-- Digits with at most one point among them. -/
def decimalOf (l : List Char) : Option Rat :=
  let whole := l.takeWhile (· != '.')
  let part := (l.dropWhile (· != '.')).drop 1
  if (whole ++ part) ≠ [] ∧ (whole ++ part).all Char.isDigit = true then
    some (mkRat (Nat.ofDigitChars 10 (whole ++ part) 0) (10 ^ part.length))
  else none

/-- ASCII, and the rational numbers that decimal fractions denote. -/
def exact : Builtins :=
  { Float := Rat
    decEq := inferInstance
    zero := 0
    float := decimalOf
    showFloat := toString
    decimal := fun c => if c.isDigit then some (c.toNat - 48) else none
    alnum := Char.isAlphanum
    decimal_ascii := fun _ _ => rfl
    alnum_ascii := fun _ _ => rfl }

end Builtins

/-! ## Computations -/

/-- What returns or raises, and leaves a state either way. -/
def Py (σ ε α : Type) : Type := σ → Except ε α × σ

namespace Py

variable {σ ε α β : Type}

protected def pure (a : α) : Py σ ε α := fun s => (.ok a, s)

protected def bind (m : Py σ ε α) (f : α → Py σ ε β) : Py σ ε β := fun s =>
  match m s with
  | (.ok a, s) => f a s
  | (.error e, s) => (.error e, s)

instance : Monad (Py σ ε) where
  pure := Py.pure
  bind := Py.bind

def raise (e : ε) : Py σ ε α := fun s => (.error e, s)

/-- `try: m` and `except` for the exceptions that `p` tells. -/
def tryExcept (m : Py σ ε α) (p : ε → Bool) (h : Py σ ε α) : Py σ ε α := fun s =>
  match m s with
  | (.ok a, s) => (.ok a, s)
  | (.error e, s) => if p e then h s else (.error e, s)

/-- `try: m` and `finally: f`: what `f` raises takes the place of what `m` did. -/
def tryFinally (m : Py σ ε α) (f : Py σ ε β) : Py σ ε (α × β) := fun s =>
  match m s with
  | (r, s) =>
    match f s with
    | (.error e, s) => (.error e, s)
    | (.ok b, s) => (r.map fun a => (a, b), s)

theorem bind_ok {m : Py σ ε α} {f : α → Py σ ε β} {s t : σ} {a : α} (h : m s = (.ok a, t)) :
    (m >>= f) s = f a t := by
  show (match m s with | (.ok a, s) => f a s | (.error e, s) => (.error e, s)) = f a t
  rw [h]

theorem bind_error {m : Py σ ε α} {f : α → Py σ ε β} {s t : σ} {e : ε}
    (h : m s = (.error e, t)) : (m >>= f) s = (.error e, t) := by
  show (match m s with | (.ok a, s) => f a s | (.error e, s) => (.error e, s)) = (.error e, t)
  rw [h]

/-- However the body ends, the `finally` clause runs on the state it left. -/
theorem tryFinally_state (m : Py σ ε α) (f : Py σ ε β) (s : σ) :
    (tryFinally m f s).2 = (f (m s).2).2 := by
  unfold tryFinally
  split
  rename_i r t heq
  rw [heq]
  split <;> rename_i hf <;> rw [hf]

end Py

end Infra
