import Mathlib.Algebra.Ring.Nat
import Mathlib.Data.List.Basic

/-!
# Numbers in memory, the least significant byte first

* `littleEndian`, `ofLittleEndian` — a number as bytes, and back
* `bytesAt` — consecutive bytes of a memory
* `bytesAt_ring` — of a ring, where what is read does not cross its end
-/

namespace Infra

def littleEndian : Nat → Nat → List UInt8
  | 0, _ => []
  | k + 1, n => UInt8.ofNat n :: littleEndian k (n / 256)

def ofLittleEndian : List UInt8 → Nat
  | [] => 0
  | b :: bs => b.toNat + 256 * ofLittleEndian bs

@[simp] theorem length_littleEndian (k n : Nat) : (littleEndian k n).length = k := by
  induction k generalizing n with
  | zero => rfl
  | succ k ih => rw [littleEndian, List.length_cons, ih]

theorem ofLittleEndian_littleEndian {k n : Nat} (h : n < 256 ^ k) :
    ofLittleEndian (littleEndian k n) = n := by
  induction k generalizing n with
  | zero =>
    rw [Nat.pow_zero] at h
    exact (Nat.lt_one_iff.mp h).symm
  | succ k ih =>
    have hdiv : n / 256 < 256 ^ k := Nat.div_lt_of_lt_mul (by rwa [← Nat.pow_succ'])
    rw [littleEndian, ofLittleEndian, ih hdiv, UInt8.toNat_ofNat']
    exact Nat.mod_add_div n 256

/-! ## Memory -/

/-- The `k` bytes from `i` on. -/
def bytesAt (data : Nat → UInt8) (i k : Nat) : List UInt8 :=
  (List.range k).map fun j => data (i + j)

/-- In a ring whose size is a multiple of `k`, a read of `k` bytes at a multiple of `k` does not
cross the end. -/
theorem bytesAt_ring {data : Nat → UInt8} {size k p : Nat} (hsize : k ∣ size) (hpos : 0 < size)
    (hp : k ∣ p) :
    bytesAt data (p % size) k = (List.range k).map fun j => data ((p + j) % size) := by
  refine List.map_congr_left fun j hj => congrArg data ?_
  have hj := List.mem_range.mp hj
  have hmod : k ∣ p % size := (Nat.dvd_mod_iff hsize).mpr hp
  have hroom : p % size + k ≤ size := by
    obtain ⟨a, ha⟩ := hmod
    obtain ⟨b, rfl⟩ := hsize
    have hlt : k * a < k * b := ha ▸ Nat.mod_lt p hpos
    have hab : a + 1 ≤ b := Nat.lt_of_mul_lt_mul_left hlt
    calc p % (k * b) + k = k * (a + 1) := by rw [ha, Nat.mul_succ]
      _ ≤ k * b := Nat.mul_le_mul_left k hab
  have hlt : p % size + j < size := by omega
  rw [← Nat.mod_add_mod, Nat.mod_eq_of_lt hlt]

end Infra
