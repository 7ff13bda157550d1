import MiniosvCtrl.AnyBlob.Requests
import MiniosvCtrl.Properties.BlockPool
import MiniosvCtrl.Properties.Ranges

/-!
# The two clients ask for the same bytes

linux-s3 draws its blocks from a counter and asks for inclusive ranges, AnyBlob's `main` deals them
out beforehand as half-open ones.

* `blockRange_eq` — a block's range, for either client
* `bytes_eq` — every block number denotes the same bytes
* `ids_eq` — AnyBlob deals out every block once
* `same_bytes` — what the two request, over a whole run
-/

open Infra LinuxS3

/-! ## One block -/

/-- The bytes of a range of AnyBlob's. -/
def AnyBlob.bytes (r : UInt64 × UInt64) : Finset Nat := Finset.Ico r.1.toNat r.2.toNat

namespace SameBytes

variable {c : LinuxS3.Config} {a : AnyBlob.Config} {l : List (Event c)} {s : State c}

/-- The two clients have the same object, in blocks of the same size. -/
structure SameObject (c : LinuxS3.Config) (a : AnyBlob.Config) : Prop where
  object : a.object = c.objectSize
  block : a.block = c.blockSize

theorem stride_eq (h : SameObject c a) : a.stride = c.stride := by
  unfold AnyBlob.Config.stride LinuxS3.Config.stride
  rw [h.object, h.block]
  by_cases hlt : c.objectSize < c.blockSize
  · have hnot : ¬ c.blockSize < c.objectSize := by
      rw [UInt64.lt_iff_toNat_lt] at hlt ⊢
      omega
    rw [if_pos hlt, if_neg hnot]
  · rw [if_neg hlt]
    by_cases hgt : c.blockSize < c.objectSize
    · rw [if_pos hgt]
    · -- the block is the whole object
      have heq : c.objectSize = c.blockSize := by
        rw [UInt64.lt_iff_toNat_lt] at hlt hgt
        exact UInt64.toNat_inj.mp (by omega)
      rw [if_neg hgt, heq, UInt64.sub_self]

theorem blockRange_eq (h : SameObject c a) (b : UInt64) :
    a.blockRange b = (c.rangeStart b, c.rangeStart b + c.blockSize) := by
  unfold AnyBlob.Config.blockRange LinuxS3.Config.rangeStart
  rw [stride_eq h, h.block]

/-- **A block number denotes the same bytes for both clients.** -/
theorem bytes_eq (h : SameObject c a) (b : UInt64) :
    c.bytes b = AnyBlob.bytes (a.blockRange b) := by
  have hlt := c.rangeStart_add_lt b
  have hpos := c.toNat_blockSize_pos
  have hle : (1 : UInt64) ≤ c.rangeStart b + c.blockSize := by
    rw [UInt64.le_iff_toNat_le, UInt64.toNat_add, Nat.mod_eq_of_lt hlt]
    show 1 ≤ _
    omega
  have hend : (c.rangeEnd b).toNat + 1 = (c.rangeStart b + c.blockSize).toNat := by
    rw [LinuxS3.Config.rangeEnd, UInt64.toNat_sub_of_le _ _ hle, UInt64.toNat_add,
      Nat.mod_eq_of_lt hlt]
    show _ - 1 + 1 = _
    omega
  ext i
  rw [blockRange_eq h, LinuxS3.Config.bytes, AnyBlob.bytes, Finset.mem_Icc, Finset.mem_Ico]
  show _ ↔ (c.rangeStart b).toNat ≤ i ∧ i < (c.rangeStart b + c.blockSize).toNat
  omega

/-! ## All blocks -/

/-- Rows of equal length, one after another. -/
theorem flatMap_range (w k : Nat) :
    (List.range w).flatMap (fun i => (List.range k).map fun j => i * k + j) =
      List.range (w * k) := by
  induction w with
  | zero => simp
  | succ w ih =>
    rw [List.range_succ, List.flatMap_append, ih, Nat.succ_mul, List.range_add]
    simp

/-- Worker by worker, the ids are the numbers from 0 on. -/
theorem ids_eq (hfit : a.workers.toNat * a.blocksPerWorker.toNat ≤ 2 ^ 64) :
    a.ids.map UInt64.toNat = List.range (a.workers.toNat * a.blocksPerWorker.toNat) := by
  rw [AnyBlob.Config.ids, List.map_flatMap, ← flatMap_range]
  refine List.flatMap_congr fun w hw => ?_
  rw [AnyBlob.Config.idsOf, List.map_map]
  refine List.map_congr_left fun k hk => ?_
  have hw := List.mem_range.mp hw
  have hk := List.mem_range.mp hk
  have hid : (w + 1) * a.blocksPerWorker.toNat ≤ a.workers.toNat * a.blocksPerWorker.toNat :=
    Nat.mul_le_mul_right _ hw
  have hsucc : (w + 1) * a.blocksPerWorker.toNat =
      w * a.blocksPerWorker.toNat + a.blocksPerWorker.toNat := Nat.succ_mul ..
  have hworkers := a.workers.toNat_lt
  rw [Function.comp_apply, UInt64.toNat_add, UInt64.toNat_mul, UInt64.toNat_ofNat',
    UInt64.toNat_ofNat', Nat.mod_eq_of_lt (by omega : w < 2 ^ 64),
    Nat.mod_eq_of_lt (by omega : k < 2 ^ 64),
    Nat.mod_eq_of_lt (by omega : w * a.blocksPerWorker.toNat < 2 ^ 64), Nat.mod_eq_of_lt (by omega)]

theorem requestList_eq {getObjectRequest : UInt64 → Bool} {reqs : List (UInt64 × UInt64)}
    (h : a.requestList getObjectRequest = some reqs) : reqs = a.ids.map a.blockRange := by
  unfold AnyBlob.Config.requestList at h
  generalize a.ids = ids at h ⊢
  induction ids generalizing reqs with
  | nil => simpa using h.symm
  | cons id ids ih =>
    rw [List.mapM_cons] at h
    cases hid : getObjectRequest id with
    | false => simp [hid] at h
    | true =>
      cases hrest : ids.mapM fun id =>
        if getObjectRequest id then some (a.blockRange id) else none with
      | none => simp [hid, hrest] at h
      | some rest =>
        obtain rfl : (a.blockRange id) :: rest = reqs := by simpa [hid, hrest] using h
        rw [List.map_cons, ih hrest]

theorem exists_requestList (a : AnyBlob.Config) :
    a.requestList (fun _ => true) = some (a.ids.map a.blockRange) := by
  unfold AnyBlob.Config.requestList
  generalize a.ids = ids
  induction ids with
  | nil => rfl
  | cons id ids ih =>
    rw [List.mapM_cons, ih]
    rfl

/-! ## Whole runs -/

/-- The numbers in the environment that both clients read. -/
structure Environment where
  workers : UInt64
  conns : UInt64
  blocks : UInt64
  objectSize : UInt64
  blockSize : UInt64

/-- Both clients accept the environment. -/
structure Environment.Loads (env : Environment) (stub plain : Bool) (c : LinuxS3.Config)
    (a : AnyBlob.Config) : Prop where
  linuxS3 : LinuxS3.loadConfig env.workers env.conns env.blocks env.objectSize env.blockSize stub
    plain = .ok c
  anyBlob : AnyBlob.load env.workers env.conns env.blocks env.objectSize env.blockSize = .ok a

/-- AnyBlob holds the workers and the connections in 32 bits. -/
def Environment.Narrow (env : Environment) : Prop :=
  env.workers.toNat < 2 ^ 32 ∧ env.conns.toNat < 2 ^ 32

variable {env : Environment} {stub plain : Bool}

theorem Environment.Loads.sameObject (h : env.Loads stub plain c a) : SameObject c a := by
  obtain ⟨hc, ha⟩ := h
  unfold LinuxS3.loadConfig at hc
  unfold AnyBlob.load at ha
  split at hc
  · cases hc
  · split at ha
    · cases ha
    · cases hc
      cases ha
      exact ⟨rfl, rfl⟩

theorem Environment.Loads.workers (h : env.Loads stub plain c a) (hnarrow : env.Narrow) :
    a.workers.toNat = c.workers.toNat := by
  obtain ⟨hc, ha⟩ := h
  unfold LinuxS3.loadConfig at hc
  unfold AnyBlob.load at ha
  split at hc
  · cases hc
  · split at ha
    · cases ha
    · cases hc
      cases ha
      show env.workers.toUInt32.toNat = env.workers.toNat
      rw [UInt64.toNat_toUInt32, Nat.mod_eq_of_lt hnarrow.1]

theorem Environment.Loads.blocksPerWorker (h : env.Loads stub plain c a) (hnarrow : env.Narrow) :
    a.blocksPerWorker = c.blocksPerWorker := by
  obtain ⟨hc, ha⟩ := h
  unfold LinuxS3.loadConfig at hc
  unfold AnyBlob.load at ha
  split at hc
  · cases hc
  · split at ha
    · cases ha
    · cases hc
      cases ha
      show (if env.blocks ≠ 0 then env.blocks else env.conns.toUInt32.toUInt64) =
        if env.blocks = 0 then env.conns else env.blocks
      have hconns : env.conns.toUInt32.toUInt64 = env.conns := by
        refine UInt64.toNat_inj.mp ?_
        rw [UInt32.toNat_toUInt64, UInt64.toNat_toUInt32, Nat.mod_eq_of_lt hnarrow.2]
      by_cases hblocks : env.blocks = 0
      · rw [if_neg (not_not.mpr hblocks), if_pos hblocks, hconns]
      · rw [if_pos hblocks, if_neg hblocks]

/-- The bytes that linux-s3 has asked for. -/
def requested (l : List (Event c)) : List (Finset Nat) := (endings l).map fun e => c.bytes e.block

/--
**Every block number denotes the same bytes for both clients; and in whatever order the slots of
linux-s3 take their steps, the two ask for the same ranges, each of which belongs to one block.**
-/
theorem same_bytes (h : env.Loads stub plain c a) :
    (∀ b : UInt64, c.bytes b = AnyBlob.bytes (a.blockRange b)) ∧
    (env.Narrow → c.Fits → Infra.Run Step (State.init c) l s → Finished s →
      ∀ getObjectRequest reqs, a.requestList getObjectRequest = some reqs →
        (requested l).Perm (reqs.map AnyBlob.bytes) ∧
        ((endings l).map fun e => e.block.toNat).Perm
          (List.range (c.workers.toNat * c.blocksPerWorker.toNat)) ∧
        a.ids.map UInt64.toNat = List.range (c.workers.toNat * c.blocksPerWorker.toNat)) := by
  have hbytes := bytes_eq h.sameObject
  refine ⟨hbytes, fun hnarrow hfit hrun hfin getObjectRequest reqs hreqs => ?_⟩
  have hworkers := h.workers hnarrow
  have hblocks := h.blocksPerWorker hnarrow
  have hle : a.workers.toNat * a.blocksPerWorker.toNat ≤ 2 ^ 64 := by
    rw [hworkers, hblocks]
    exact (Nat.le_add_right _ _).trans hfit
  have hids := ids_eq hle
  rw [hworkers, hblocks] at hids
  have hdrawn : ((drawn l).map Prod.snd).map UInt64.toNat =
      List.range (c.workers.toNat * c.blocksPerWorker.toNat) := by
    rw [← drawn_length_of_finished hfit hrun hfin, List.map_map]
    exact (run_poolInv hfit hrun).drawn_eq
  -- both sides are the numbers from 0 on, as 64-bit words
  have hperm : ((endings l).map Ending.block).Perm a.ids := by
    have heq : (drawn l).map Prod.snd = a.ids :=
      List.map_injective_iff.mpr (fun _ _ he => UInt64.toNat_inj.mp he) (hdrawn.trans hids.symm)
    exact heq ▸ endings_block_perm hrun hfin
  refine ⟨?_, ?_, hids⟩
  · rw [requestList_eq hreqs, List.map_map]
    have hmap := hperm.map c.bytes
    rw [List.map_map] at hmap
    rwa [List.map_congr_left fun b _ => hbytes b] at hmap
  · have hmap := hperm.map UInt64.toNat
    rwa [List.map_map, hids] at hmap

/-! ## One block, and too many -/

/-- One worker, one connection, one block. -/
def oneBlockEnv : Environment := ⟨1, 1, 1, 1, 1⟩

/-- Both ask for the only byte there is. -/
theorem same_bytes_oneBlock :
    ∃ (a : AnyBlob.Config) (reqs : List (UInt64 × UInt64)) (l : List (Event oneBlock))
        (s : State oneBlock),
      oneBlockEnv.Loads false true oneBlock a ∧ oneBlockEnv.Narrow ∧ oneBlock.Fits ∧
      Infra.Run Step (State.init oneBlock) l s ∧ Finished s ∧
      a.requestList (fun _ => true) = some reqs ∧
      (requested l).Perm (reqs.map AnyBlob.bytes) := by
  obtain ⟨l, s, hrun, hfin⟩ := run_oneBlock
  obtain ⟨a, hload⟩ : ∃ a, oneBlockEnv.Loads false true oneBlock a := ⟨_, rfl, rfl⟩
  have hnarrow : oneBlockEnv.Narrow := by
    unfold Environment.Narrow
    decide
  have hfit : oneBlock.Fits := by
    unfold LinuxS3.Config.Fits
    decide
  have hreqs := exists_requestList a
  exact ⟨a, _, l, s, hload, hnarrow, hfit, hrun, hfin, hreqs,
    ((same_bytes hload).2 hnarrow hfit hrun hfin _ _ hreqs).1⟩

/-- Two workers with `2 ^ 63` blocks each. -/
def wrappedEnv : Environment := ⟨2, 1, 9223372036854775808, 1, 1⟩

/-- linux-s3 asks for nothing, as its count of blocks is 0; AnyBlob builds requests. -/
theorem requests_differ_wrapped :
    ∃ (a : AnyBlob.Config) (reqs : List (UInt64 × UInt64)) (l : List (Event wrapped))
        (s : State wrapped),
      wrappedEnv.Loads false true wrapped a ∧
      Infra.Run Step (State.init wrapped) l s ∧ Finished s ∧
      a.requestList (fun _ => true) = some reqs ∧
      ¬ (requested l).Perm (reqs.map AnyBlob.bytes) := by
  obtain ⟨l, s, hrun, hfin, hdrawn, -⟩ := run_wrapped
  have hload : wrappedEnv.Loads false true wrapped _ := ⟨rfl, rfl⟩
  refine ⟨_, _, l, s, hload, hrun, hfin, exists_requestList _, fun hperm => ?_⟩
  have hnone : endings l = [] := by
    have hblocks := (endings_block_perm hrun hfin).length_eq
    rw [hdrawn, List.length_map] at hblocks
    exact List.length_eq_zero_iff.mp hblocks
  rw [requested, hnone, List.map_nil, List.nil_perm, List.map_eq_nil_iff, List.map_eq_nil_iff,
    AnyBlob.Config.ids, List.flatMap_eq_nil_iff] at hperm
  have hfirst := hperm 0 (List.mem_range.mpr (by decide))
  rw [AnyBlob.Config.idsOf, List.map_eq_nil_iff, List.range_eq_nil] at hfirst
  exact absurd hfirst (by decide)

end SameBytes
