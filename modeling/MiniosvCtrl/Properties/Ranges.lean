import Mathlib.Data.Nat.ModEq
import Mathlib.Order.Interval.Finset.Nat
import MiniosvCtrl.LinuxS3.RunConn

/-!
# The ranges of the blocks

* `Config.Unwrapped` — the additions and subtractions of `run_conn` do not go round
* `Config.rangeStart_lt` — a range begins where a block still fits into the object
* `Config.rangeStart_inj` — where the block size divides the object's, ranges begin apart
* `ranges_inside` — every range is a block of the object
-/

namespace LinuxS3.Config

variable (c : Config)

/-- The bytes that linux-s3 asks for. -/
def bytes (b : UInt64) : Finset Nat :=
  Finset.Icc (c.rangeStart b).toNat (c.rangeEnd b).toNat

/-! ## Where a range begins -/

theorem toNat_blockSize_pos : 0 < c.blockSize.toNat := by
  have hne := c.blockSize_ne
  rw [Nat.pos_iff_ne_zero]
  exact fun h => hne (UInt64.toNat_inj.mp h)

/-- A block fits into the object behind every start, so the stride does not wrap to 0. -/
theorem toNat_stride : c.stride.toNat = c.objectSize.toNat - c.blockSize.toNat + 1 := by
  have hpos := c.toNat_blockSize_pos
  have hobject := c.objectSize.toNat_lt
  unfold stride
  split
  · rename_i h
    have h : c.objectSize.toNat < c.blockSize.toNat := UInt64.lt_iff_toNat_lt.mp h
    rw [UInt64.toNat_add]
    show (0 + 1) % 2 ^ 64 = _
    omega
  · rename_i h
    have h : ¬ c.objectSize.toNat < c.blockSize.toNat := fun h' => h (UInt64.lt_iff_toNat_lt.mpr h')
    have hle : c.blockSize ≤ c.objectSize := UInt64.le_iff_toNat_le.mpr (by omega)
    rw [UInt64.toNat_add, UInt64.toNat_sub_of_le _ _ hle]
    show (_ + 1) % 2 ^ 64 = _
    omega

theorem toNat_rangeStart (b : UInt64) :
    (c.rangeStart b).toNat = (b * c.blockSize).toNat % c.stride.toNat := by
  have hpos : 0 < c.stride.toNat := by
    rw [c.toNat_stride]
    exact Nat.succ_pos _
  have hne : c.stride ≠ 0 := by
    rintro h
    rw [h] at hpos
    exact absurd hpos (Nat.lt_irrefl 0)
  rw [rangeStart, if_neg hne, UInt64.toNat_mod]

theorem rangeStart_lt (b : UInt64) : (c.rangeStart b).toNat < c.stride.toNat := by
  rw [c.toNat_rangeStart]
  refine Nat.mod_lt _ ?_
  rw [c.toNat_stride]
  exact Nat.succ_pos _

/-- No range goes round: behind its start there is room for a block. -/
theorem rangeStart_add_lt (b : UInt64) :
    (c.rangeStart b).toNat + c.blockSize.toNat < 2 ^ 64 := by
  have hstart := c.rangeStart_lt b
  rw [c.toNat_stride] at hstart
  have hobject := c.objectSize.toNat_lt
  have hblock := c.blockSize.toNat_lt
  omega

/-! ## Additions and subtractions -/

/-- No addition or subtraction of `run_conn` goes round. -/
structure Unwrapped (b : UInt64) : Prop where
  stride : c.stride.toNat = c.objectSize.toNat - c.blockSize.toNat + 1
  /-- `start + block_size` -/
  next : (c.rangeStart b + c.blockSize).toNat = (c.rangeStart b).toNat + c.blockSize.toNat
  /-- `start + block_size - 1` -/
  last : 1 ≤ (c.rangeStart b + c.blockSize).toNat ∧
    (c.rangeEnd b).toNat = (c.rangeStart b + c.blockSize).toNat - 1
  /-- `end - start` -/
  span : (c.rangeStart b).toNat ≤ (c.rangeEnd b).toNat ∧
    (c.rangeEnd b - c.rangeStart b).toNat = (c.rangeEnd b).toNat - (c.rangeStart b).toNat
  /-- `end - start + 1` -/
  expected : (c.expected b).toNat = (c.rangeEnd b - c.rangeStart b).toNat + 1

theorem unwrapped (b : UInt64) : c.Unwrapped b := by
  have hlt := c.rangeStart_add_lt b
  have hpos := c.toNat_blockSize_pos
  have hnext : (c.rangeStart b + c.blockSize).toNat =
      (c.rangeStart b).toNat + c.blockSize.toNat := by
    rw [UInt64.toNat_add, Nat.mod_eq_of_lt hlt]
  have hone : (1 : UInt64) ≤ c.rangeStart b + c.blockSize := by
    rw [UInt64.le_iff_toNat_le, hnext]
    show 1 ≤ _
    omega
  have hlast : (c.rangeEnd b).toNat = (c.rangeStart b + c.blockSize).toNat - 1 := by
    rw [rangeEnd, UInt64.toNat_sub_of_le _ _ hone]
    rfl
  have hle : c.rangeStart b ≤ c.rangeEnd b := by
    rw [UInt64.le_iff_toNat_le]
    omega
  have hspan : (c.rangeEnd b - c.rangeStart b).toNat =
      (c.rangeEnd b).toNat - (c.rangeStart b).toNat := UInt64.toNat_sub_of_le _ _ hle
  refine ⟨c.toNat_stride, hnext, ⟨by omega, hlast⟩, ⟨UInt64.le_iff_toNat_le.mp hle, hspan⟩, ?_⟩
  rw [c.expected_eq]
  omega

theorem card_bytes (b : UInt64) : (c.bytes b).card = c.blockSize.toNat := by
  have h := c.unwrapped b
  have hpos := c.toNat_blockSize_pos
  have hlast := h.last
  have hnext := h.next
  rw [bytes, Nat.card_Icc]
  omega

theorem bytes_subset (h : c.blockSize ≤ c.objectSize) (b : UInt64) :
    c.bytes b ⊆ Finset.range c.objectSize.toNat := by
  intro i hi
  have hle := UInt64.le_iff_toNat_le.mp h
  have hu := c.unwrapped b
  have hstart := c.rangeStart_lt b
  have hlast := hu.last
  have hnext := hu.next
  rw [c.toNat_stride] at hstart
  rw [bytes, Finset.mem_Icc] at hi
  rw [Finset.mem_range]
  omega

/-! ## Where the ranges begin apart -/

/-- The stride is one more than a multiple of the block size. -/
theorem coprime_stride (h : c.blockSize ≤ c.objectSize)
    (hdvd : c.blockSize.toNat ∣ c.objectSize.toNat) :
    c.stride.toNat.Coprime c.blockSize.toNat := by
  have hle := UInt64.le_iff_toNat_le.mp h
  obtain ⟨k, hk⟩ := Nat.dvd_sub hdvd (dvd_refl c.blockSize.toNat)
  rw [c.toNat_stride, hk, Nat.coprime_comm]
  simp

theorem rangeStart_inj (h : c.blockSize ≤ c.objectSize)
    (hdvd : c.blockSize.toNat ∣ c.objectSize.toNat) {n : Nat} (hn : n ≤ c.stride.toNat)
    (hfit : n * c.blockSize.toNat < 2 ^ 64) {i j : UInt64} (hi : i.toNat < n) (hj : j.toNat < n)
    (hstart : c.rangeStart i = c.rangeStart j) : i = j := by
  have hproduct : ∀ b : UInt64, b.toNat < n →
      (b * c.blockSize).toNat = b.toNat * c.blockSize.toNat := by
    intro b hb
    rw [UInt64.toNat_mul, Nat.mod_eq_of_lt]
    exact (Nat.mul_le_mul_right _ hb.le).trans_lt hfit
  -- the products are alike modulo the stride, and the block size has an inverse there
  have hmod : i.toNat * c.blockSize.toNat ≡ j.toNat * c.blockSize.toNat [MOD c.stride.toNat] := by
    rw [Nat.ModEq, ← hproduct i hi, ← hproduct j hj, ← c.toNat_rangeStart, ← c.toNat_rangeStart,
      hstart]
  have hcancel := Nat.ModEq.cancel_right_of_coprime (c.coprime_stride h hdvd) hmod
  exact UInt64.toNat_inj.mp (hcancel.eq_of_lt_of_lt (hi.trans_le hn) (hj.trans_le hn))

/--
**Every range is a block of the object, and none is asked for twice** where the block size divides
the object's.
-/
theorem ranges_inside (h : c.blockSize ≤ c.objectSize) :
    (∀ b, c.bytes b ⊆ Finset.range c.objectSize.toNat ∧
      (c.bytes b).card = c.blockSize.toNat ∧ c.Unwrapped b) ∧
    (c.blockSize.toNat ∣ c.objectSize.toNat →
      c.totalBlocks.toNat ≤ c.objectSize.toNat - c.blockSize.toNat + 1 →
      c.totalBlocks.toNat * c.blockSize.toNat < 2 ^ 64 →
      ∀ i j, i < c.totalBlocks → j < c.totalBlocks → i ≠ j →
        c.rangeStart i ≠ c.rangeStart j) := by
  refine ⟨fun b => ⟨c.bytes_subset h b, c.card_bytes b, c.unwrapped b⟩, ?_⟩
  intro hdvd hn hfit i j hi hj hne hstart
  rw [← c.toNat_stride] at hn
  exact hne (c.rangeStart_inj h hdvd hn hfit (UInt64.lt_iff_toNat_lt.mp hi)
    (UInt64.lt_iff_toNat_lt.mp hj) hstart)

/-- Four workers with one block each, of an object of twelve bytes in blocks of three. -/
def twelve : Config :=
  { workers := 4, connsPerWorker := 1, blocksPerWorker := 1, objectSize := 12, blockSize := 3
    stub := false, plain := true, workers_ne := by decide, connsPerWorker_ne := one_ne
    blocksPerWorker_ne := one_ne, objectSize_ne := by decide, blockSize_ne := by decide }

theorem ranges_inside_twelve :
    twelve.blockSize ≤ twelve.objectSize ∧ twelve.blockSize.toNat ∣ twelve.objectSize.toNat ∧
      (twelve.bytes 3 ⊆ Finset.range 12 ∧ (twelve.bytes 3).card = 3 ∧ twelve.Unwrapped 3) ∧
      twelve.rangeStart 0 ≠ twelve.rangeStart 3 :=
  have h := twelve.ranges_inside (by decide)
  ⟨by decide, by decide, h.1 3, h.2 (by decide) (by decide) (by decide) 0 3 (by decide) (by decide)
    (by decide)⟩

end LinuxS3.Config
