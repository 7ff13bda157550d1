import Mathlib.Data.UInt

/-!
# Arithmetic that may trap

64-bit operations that give nothing where a machine with overflow checks stops: what does not fit
into 64 bits, and a remainder by zero. Where they give something it is what the wrapping operation
gives.

* `Checked.add`, `Checked.sub`, `Checked.mul`, `Checked.rem`
-/

namespace Infra.Checked

variable {a b : UInt64}

def add (a b : UInt64) : Option UInt64 :=
  if a.toNat + b.toNat < 2 ^ 64 then some (a + b) else none

def sub (a b : UInt64) : Option UInt64 := if b.toNat ≤ a.toNat then some (a - b) else none

def mul (a b : UInt64) : Option UInt64 :=
  if a.toNat * b.toNat < 2 ^ 64 then some (a * b) else none

def rem (a b : UInt64) : Option UInt64 := if b = 0 then none else some (a % b)

theorem add_of_lt (h : a.toNat + b.toNat < 2 ^ 64) : add a b = some (a + b) := if_pos h

theorem sub_of_le (h : b.toNat ≤ a.toNat) : sub a b = some (a - b) := if_pos h

theorem rem_of_ne (h : b ≠ 0) : rem a b = some (a % b) := if_neg h

theorem mul_isSome : (mul a b).isSome ↔ a.toNat * b.toNat < 2 ^ 64 := by
  unfold mul
  split <;> simp_all

theorem rem_isSome : (rem a b).isSome ↔ b ≠ 0 := by
  unfold rem
  split <;> simp_all

end Infra.Checked
