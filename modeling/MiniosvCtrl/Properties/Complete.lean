import Mathlib.Data.Nat.ModEq
import MiniosvCtrl.LinuxS3.Verdict
import MiniosvCtrl.Properties.BlockPool

/-!
# What `COMPLETE` certifies

* `Certified` — every planned block has one outcome, clean and of its own length
* `Hidden` — all is clean and counted, and surplus bytes make up for missing ones
* **`complete_certifies_iff`** — `COMPLETE` certifies every block unless a surplus hides a
  shortfall
* `collected_of_run` — what a finished run of the pool collects
-/

namespace LinuxS3

open Infra

variable {c : Config}

/-! ## Definitions -/

/-- Every planned block has exactly one outcome, which closed cleanly with its own length. -/
def Certified (k : Collected c) : Prop :=
  ∀ b < c.totalBlocks, ∃ e, (k.ends.filter fun e => e.block = b) = [e] ∧
    e.outcome.closedCleanly = true ∧ e.outcome.bytesReceived = e.outcome.expected

/-- Bytes received beyond what was asked for. -/
def surplus (os : List Outcome) : Nat :=
  (os.map fun o => o.bytesReceived.toNat - o.expected.toNat).sum

/-- Bytes that were asked for and not received. -/
def shortfall (os : List Outcome) : Nat :=
  (os.map fun o => o.expected.toNat - o.bytesReceived.toNat).sum

/-- Some connections' surplus hides the others' shortfall. -/
structure Hidden (c : Config) (os : List Outcome) : Prop where
  clean : ∀ o ∈ os, o.closedCleanly = true
  covered : os.length = c.totalBlocks.toNat
  differs : ∃ o ∈ os, o.bytesReceived ≠ o.expected
  cancels : surplus os ≡ shortfall os [MOD 2 ^ 64]

/-! ## Sums that wrap -/

theorem toNat_sum_modEq (l : List UInt64) :
    l.sum.toNat ≡ (l.map UInt64.toNat).sum [MOD 2 ^ 64] := by
  induction l with
  | nil => rfl
  | cons a l ih =>
    rw [List.sum_cons, List.map_cons, List.sum_cons, UInt64.toNat_add]
    exact (Nat.mod_modEq _ _).trans (Nat.ModEq.rfl.add ih)

theorem sum_eq_iff_modEq (l m : List UInt64) :
    l.sum = m.sum ↔ (l.map UInt64.toNat).sum ≡ (m.map UInt64.toNat).sum [MOD 2 ^ 64] := by
  have hl := toNat_sum_modEq l
  have hm := toNat_sum_modEq m
  rw [← UInt64.toNat_inj]
  constructor
  · intro h
    exact hl.symm.trans (h ▸ hm)
  · intro h
    exact ((hl.trans h).trans hm.symm).eq_of_lt_of_lt (UInt64.toNat_lt _) (UInt64.toNat_lt _)

theorem received_add_shortfall (os : List Outcome) :
    (os.map fun o => o.bytesReceived.toNat).sum + shortfall os =
      (os.map fun o => o.expected.toNat).sum + surplus os := by
  induction os with
  | nil => rfl
  | cons o os ih =>
    unfold shortfall surplus at *
    simp only [List.map_cons, List.sum_cons]
    omega

/-- The totals agree exactly when surplus and shortfall do. -/
theorem totalB_eq_totalExpected_iff (os : List Outcome) :
    totalB os = totalExpected os ↔ surplus os ≡ shortfall os [MOD 2 ^ 64] := by
  have h := received_add_shortfall os
  rw [totalB, totalExpected, sum_eq_iff_modEq, List.map_map, List.map_map]
  show (os.map fun o => o.bytesReceived.toNat).sum ≡ (os.map fun o => o.expected.toNat).sum
    [MOD 2 ^ 64] ↔ _
  constructor
  · intro heq
    have h₁ := heq.symm.add_right (shortfall os)
    rw [h] at h₁
    exact (Nat.ModEq.add_left_cancel' _ h₁).symm
  · intro heq
    have h₁ := heq.add_left (os.map fun o => o.expected.toNat).sum
    rw [← h] at h₁
    exact Nat.ModEq.add_right_cancel' _ h₁

/-! ## What the verdict says -/

theorem Collected.block_nodup (k : Collected c) :
    (k.ends.map fun e => e.block.toNat).Nodup := by
  have h := k.nodup.map (f := UInt64.toNat) fun a b => UInt64.toNat_inj.mp
  rwa [List.map_map] at h

theorem Collected.block_subset (k : Collected c) :
    (k.ends.map fun e => e.block.toNat) ⊆ List.range c.totalBlocks.toNat := by
  intro n hn
  obtain ⟨e, he, rfl⟩ := List.mem_map.mp hn
  exact List.mem_range.mpr (UInt64.lt_iff_toNat_lt.mp (k.planned e he))

theorem Collected.length_le (k : Collected c) : k.outcomes.length ≤ c.totalBlocks.toNat := by
  have h := (k.block_nodup.subperm k.block_subset).length_le
  rwa [List.length_map, List.length_range, ← List.length_map Ending.outcome] at h

theorem Collected.connsTotal_toNat (k : Collected c) :
    (connsTotal k.outcomes).toNat = k.outcomes.length := by
  have h := k.length_le
  have hlt := UInt64.toNat_lt c.totalBlocks
  rw [connsTotal, UInt64.toNat_ofNat', Nat.mod_eq_of_lt (by omega)]

theorem Collected.connsClean_toNat (k : Collected c) :
    (connsClean k.outcomes).toNat = k.outcomes.countP Outcome.closedCleanly := by
  have h := k.length_le
  have hlt := UInt64.toNat_lt c.totalBlocks
  have hcount : k.outcomes.countP Outcome.closedCleanly ≤ k.outcomes.length := List.countP_le_length
  rw [connsClean, UInt64.toNat_ofNat', Nat.mod_eq_of_lt (by omega)]

/-- `COMPLETE` without stub, in numbers that do not wrap. -/
theorem Collected.complete_iff (k : Collected c) (hstub : c.stub = false) :
    complete c k.outcomes = true ↔
      (∀ o ∈ k.outcomes, o.closedCleanly = true) ∧ 0 < k.outcomes.length ∧
      k.outcomes.length = c.totalBlocks.toNat ∧
      surplus k.outcomes ≡ shortfall k.outcomes [MOD 2 ^ 64] := by
  have htotal := k.connsTotal_toNat
  have hclean : connsClean k.outcomes = connsTotal k.outcomes ↔
      ∀ o ∈ k.outcomes, o.closedCleanly = true := by
    rw [← UInt64.toNat_inj, htotal, k.connsClean_toNat, List.countP_eq_length]
  have hcov : connsTotal k.outcomes = c.totalBlocks ↔
      k.outcomes.length = c.totalBlocks.toNat := by
    rw [← UInt64.toNat_inj, htotal]
  have hpos : 0 < connsTotal k.outcomes ↔ 0 < k.outcomes.length := by
    rw [UInt64.lt_iff_toNat_lt, htotal]
    rfl
  simp only [complete, rangesOk, covered, bytesOk, hstub, Bool.and_eq_true, beq_iff_eq,
    decide_eq_true_eq, hclean, hcov, hpos, ← totalB_eq_totalExpected_iff, Bool.false_eq_true,
    if_false]
  tauto

/-- All planned blocks have an outcome once there are as many outcomes as blocks. -/
theorem Collected.exists_block (k : Collected c) (h : k.outcomes.length = c.totalBlocks.toNat)
    {b : UInt64} (hb : b < c.totalBlocks) : ∃ e ∈ k.ends, e.block = b := by
  have hperm := (k.block_nodup.subperm k.block_subset).perm_of_length_le (by
    rw [List.length_range, List.length_map, ← h]
    exact (List.length_map Ending.outcome).le)
  have hmem : b.toNat ∈ k.ends.map fun e => e.block.toNat :=
    hperm.mem_iff.mpr (List.mem_range.mpr (UInt64.lt_iff_toNat_lt.mp hb))
  obtain ⟨e, he, hbe⟩ := List.mem_map.mp hmem
  exact ⟨e, he, UInt64.toNat_inj.mp hbe⟩

/-- **`COMPLETE` certifies every block unless a surplus hides a shortfall.** -/
theorem complete_certifies_iff (hstub : c.stub = false) (k : Collected c) :
    (complete c k.outcomes = true → Certified k) ↔ ¬ Hidden c k.outcomes := by
  rw [k.complete_iff hstub]
  constructor
  · rintro hcert ⟨hclean, hcov, ⟨o, ho, hne⟩, hcancel⟩
    obtain ⟨e, he, rfl⟩ := List.mem_map.mp ho
    obtain ⟨e', hfilter, -, hbytes⟩ :=
      hcert ⟨hclean, List.length_pos_of_mem ho, hcov, hcancel⟩ e.block (k.planned e he)
    have hmem : e ∈ k.ends.filter fun e' => e'.block = e.block :=
      List.mem_filter.mpr ⟨he, decide_eq_true rfl⟩
    rw [hfilter, List.mem_singleton] at hmem
    exact hne (hmem ▸ hbytes)
  · rintro hnot ⟨hclean, -, hcov, hcancel⟩ b hb
    have hexact : ∀ o ∈ k.outcomes, o.bytesReceived = o.expected := by
      intro o ho
      by_contra hne
      exact hnot ⟨hclean, hcov, ⟨o, ho, hne⟩, hcancel⟩
    obtain ⟨e, he, rfl⟩ := k.exists_block hcov hb
    have ho : e.outcome ∈ k.outcomes := List.mem_map_of_mem he
    exact ⟨e, filter_key_eq_singleton k.nodup he, hclean _ ho, hexact _ ho⟩

/-- One block, fetched whole. -/
def wholeBlock : Collected oneBlock :=
  { ends := [⟨(⟨0, by decide⟩, ⟨0, by decide⟩), 0, 0, .pumped 1 true⟩]
    planned := by decide
    nodup := by decide }

theorem complete_certifies_iff_wholeBlock :
    complete oneBlock wholeBlock.outcomes = true ∧ Certified wholeBlock :=
  ⟨by decide, (complete_certifies_iff rfl wholeBlock).mpr
    (fun h => absurd h.differs (by decide)) (by decide)⟩

/-- One connection for the two blocks of an object of two bytes. -/
def twoBlocks : Config :=
  { oneBlock with
    blocksPerWorker := 2
    objectSize := 2
    blocksPerWorker_ne := two_ne
    objectSize_ne := two_ne }

/-- The first block's response has an empty body, the second's is the whole object. -/
def shortAndLong : Collected twoBlocks :=
  { ends := [⟨(⟨0, by decide⟩, ⟨0, by decide⟩), 0, 0, .pumped 0 true⟩,
      ⟨(⟨0, by decide⟩, ⟨0, by decide⟩), 1, 0, .pumped 2 true⟩]
    planned := by decide
    nodup := by decide }

theorem complete_shortAndLong :
    complete twoBlocks shortAndLong.outcomes = true ∧ ¬ Certified shortAndLong := by
  refine ⟨by decide, fun h => ?_⟩
  obtain ⟨e, hfilter, -, hbytes⟩ := h 0 (by decide)
  have he : e = ⟨(⟨0, by decide⟩, ⟨0, by decide⟩), 0, 0, .pumped 0 true⟩ :=
    (List.cons.inj hfilter).1.symm
  rw [he] at hbytes
  exact absurd hbytes (by decide)

/-! ## What a run collects -/

/-- The verdict does not depend on the order in which the threads are joined. -/
theorem verdict_perm {os os' : List Outcome} (h : os.Perm os') : verdict c os = verdict c os' := by
  have htotal : connsTotal os = connsTotal os' := by rw [connsTotal, connsTotal, h.length_eq]
  have hclean : connsClean os = connsClean os' := by rw [connsClean, connsClean, h.countP_eq]
  have hb : totalB os = totalB os' := (h.map Outcome.bytesReceived).sum_eq
  have he : totalExpected os = totalExpected os' := (h.map Outcome.expected).sum_eq
  have hcomplete : complete c os = complete c os' := by
    unfold complete rangesOk covered bytesOk
    rw [htotal, hclean, hb, he]
  unfold verdict
  rw [hcomplete, htotal, hclean, hb, he]

theorem drawn_lt {l : List (Event c)} {d : Slot c × UInt64} (h : d ∈ drawn l) :
    d.2 < c.totalBlocks := by
  obtain ⟨ev, -, hev⟩ := List.mem_filterMap.mp h
  split at hev
  · split at hev
    · next hlt =>
      cases hev
      exact hlt
    · cases hev
  · cases hev

/-- A finished run collects outcomes of distinct planned blocks. -/
theorem collected_of_run {l : List (Event c)} {s : State c} (hfit : c.Fits)
    (h : Run Step (State.init c) l s) (hfin : Finished s) :
    ∃ k : Collected c, k.ends = endings l ∧ verdict c (collected s) = verdict c k.outcomes := by
  have hperm := endings_block_perm h hfin
  have hnodup : ((drawn l).map Prod.snd).Nodup := by
    have hn : ((drawn l).map fun d => d.2.toNat).Nodup := by
      rw [(run_poolInv hfit h).drawn_eq]
      exact List.nodup_range
    exact List.Nodup.of_map UInt64.toNat (by rwa [List.map_map])
  refine ⟨⟨endings l, fun e he => ?_, hperm.nodup_iff.mpr hnodup⟩, rfl,
    verdict_perm (collected_perm h)⟩
  obtain ⟨d, hd, hde⟩ := List.mem_map.mp (hperm.mem_iff.mp (List.mem_map_of_mem he))
  rw [← hde]
  exact drawn_lt hd

end LinuxS3
