import MiniosvCtrl.Infra.Lists
import MiniosvCtrl.LinuxS3.LoadConfig
import MiniosvCtrl.Properties.Ranges

/-!
# Accepted configurations do not trap

`load_config` sees to it that blocks, objects, workers and connections are not zero. Nothing looks
at the number of cores to pin to, or at how many blocks there are.

* `Settings.range_eq` — the range of a block never goes over
* `sound_iff` — the rest does not either, exactly when the cores are not 0 and the blocks fit
* `trapped_capped` — a configuration that is accepted and stops at its first connection
-/

namespace LinuxS3

open Infra

variable {e : Env} {s : Settings} {debug : String → String}

/-- The range of a block, with overflow checks, is the one of the build without. -/
theorem Settings.range_eq (s : Settings) (block : UInt64) :
    s.range block = some (s.config.rangeStart block, s.config.rangeEnd block,
      s.config.expected block) := by
  set c := s.config with hc
  have hu := c.unwrapped block
  -- the stride is one more than the room that a block has in the object
  have hspan : c.stride.toNat = (if c.objectSize < c.blockSize then 0
      else c.objectSize - c.blockSize).toNat + 1 := by
    rw [hu.stride]
    split
    · rename_i h
      have h := UInt64.lt_iff_toNat_lt.mp h
      show _ = 0 + 1
      omega
    · rename_i h
      have h : c.blockSize ≤ c.objectSize := UInt64.not_lt.mp h
      rw [UInt64.toNat_sub_of_le _ _ h]
  have hstride : Checked.add (if c.objectSize < c.blockSize then 0
      else c.objectSize - c.blockSize) 1 = some c.stride := by
    refine Checked.add_of_lt ?_
    show _ + 1 < _
    rw [← hspan]
    exact c.stride.toNat_lt
  have hstart : s.start c.stride block = some (c.rangeStart block) := by
    unfold start Config.rangeStart
    rw [← hc]
    split
    · rfl
    · rename_i hne
      exact Checked.rem_of_ne hne
  have hnext : Checked.add (c.rangeStart block) c.blockSize =
      some (c.rangeStart block + c.blockSize) :=
    Checked.add_of_lt (c.rangeStart_add_lt block)
  have hlast : Checked.sub (c.rangeStart block + c.blockSize) 1 = some (c.rangeEnd block) :=
    Checked.sub_of_le hu.last.1
  have hdiff : Checked.sub (c.rangeEnd block) (c.rangeStart block) =
      some (c.rangeEnd block - c.rangeStart block) :=
    Checked.sub_of_le hu.span.1
  have hexpected : Checked.add (c.rangeEnd block - c.rangeStart block) 1 =
      some (c.expected block) := by
    refine Checked.add_of_lt ?_
    show _ + 1 < _
    rw [← hu.expected]
    exact (c.expected block).toNat_lt
  unfold range
  simp only [← hc, hstride, hstart, hnext, hlast, hdiff, hexpected, Option.bind_eq_bind,
    Option.bind_some, Option.pure_def]

/-- What `load_config` puts into the configuration. -/
theorem load_spec (h : e.load debug = .ok s) :
    s.tuning = e.tuning ∧ s.config.workers = e.workers ∧
      s.config.blocksPerWorker = e.blocksPerWorker := by
  obtain ⟨plain, -, h⟩ := ok_of_bind h
  obtain ⟨host, -, h⟩ := ok_of_bind h
  obtain ⟨targetIp, -, h⟩ := ok_of_bind h
  obtain ⟨config, hconfig, h⟩ := ok_of_bind h
  cases h
  unfold loadConfig at hconfig
  split at hconfig
  · cases hconfig
  · cases hconfig
    exact ⟨rfl, rfl, rfl⟩

theorem pins_iff (e : Env) :
    e.Pins ↔ e.mode ∈ ["capped", "nogro", "nogro1500"] ∨ e.mode = "parity" := by
  show e.mode ∈ ["capped", "nogro", "nogro1500"] ++ ["parity"] ↔ _
  rw [List.mem_append, List.mem_singleton]

theorem pinCores_tuning (e : Env) :
    e.tuning.pinCores = if e.Pins then some e.pin else none := by
  unfold Env.tuning
  by_cases hcapped : e.mode ∈ ["capped", "nogro", "nogro1500"]
  · rw [if_pos hcapped, if_pos ((pins_iff e).mpr (Or.inl hcapped))]
  rw [if_neg hcapped]
  by_cases hparity : e.mode = "parity"
  · rw [if_pos hparity, if_pos ((pins_iff e).mpr (Or.inr hparity))]
  · rw [if_neg hparity, if_neg fun h => ((pins_iff e).mp h).elim hcapped hparity]
    rfl

/--
**No accepted configuration traps, exactly if its threads are not pinned to 0 cores and its blocks
can be counted with 64 bits.**
-/
theorem sound_iff (h : e.load debug = .ok s) :
    s.Sound ↔ (e.Pins → e.pin ≠ 0) ∧ e.workers.toNat * e.blocksPerWorker.toNat < 2 ^ 64 := by
  obtain ⟨htuning, hworkers, hblocks⟩ := load_spec h
  have htotal : s.total.isSome ↔ e.workers.toNat * e.blocksPerWorker.toNat < 2 ^ 64 := by
    rw [Settings.total, hworkers, hblocks, Checked.mul_isSome]
  have hcore : ∀ worker, (s.core worker).isSome ↔ (e.Pins → e.pin ≠ 0) := by
    intro worker
    unfold Settings.core
    rw [htuning, pinCores_tuning]
    by_cases hpins : e.Pins
    · rw [if_pos hpins]
      simp [Checked.rem_isSome, hpins]
    · rw [if_neg hpins]
      simp [hpins]
  constructor
  · rintro ⟨hfits, hall⟩
    -- the first worker has a first block
    have hpos : ∀ x : UInt64, x ≠ 0 → 0 < x.toNat := fun x hx =>
      Nat.pos_of_ne_zero fun h0 => hx (UInt64.toNat_inj.mp h0)
    have hw := hpos _ s.config.workers_ne
    have hb := hpos _ s.config.blocksPerWorker_ne
    obtain ⟨-, hsome⟩ := hall 0 0 (UInt64.lt_iff_toNat_lt.mpr hw) (Nat.mul_pos hw hb)
    exact ⟨(hcore 0).mp hsome, htotal.mp hfits⟩
  · rintro ⟨hpin, hfits⟩
    refine ⟨htotal.mpr hfits, fun worker block _ _ => ⟨?_, (hcore worker).mpr hpin⟩⟩
    rw [s.range_eq block]
    rfl

/-- The bucket and its address as the drivers set them, with a mode and a `PIN_CORES`. -/
def driverEnv (mode : String) (cores : Option String) : Env := fun k =>
  if k = "AWS_BUCKET" then some "bench"
  else if k = "AWS_REGION" then some "eu-north-1"
  else if k = "AWS_TARGET_IP" then some "52.95.171.1"
  else if k = "MODE" then some mode
  else if k = "PIN_CORES" then cores
  else none

/-- The driver's capped mode, with a worker for each of its eight cores. -/
theorem sound_iff_capped :
    ∃ s : Settings, (driverEnv "capped" (some "8")).load String.quote = .ok s ∧ s.Sound := by
  have hload : ((driverEnv "capped" (some "8")).load String.quote).isOk = true := by
    decide
  cases h : (driverEnv "capped" (some "8")).load String.quote with
  | error err =>
    rw [h] at hload
    cases hload
  | ok s => exact ⟨s, rfl, (sound_iff h).mpr (by decide)⟩

/-- `worker % cores` of no cores: the first connection stops the program. -/
theorem trapped_capped :
    ∃ s : Settings, (driverEnv "capped" (some "0")).load String.quote = .ok s ∧
      s.core 0 = none ∧ ¬ s.Sound := by
  have hload : ((driverEnv "capped" (some "0")).load String.quote).isOk = true := by
    decide
  cases h : (driverEnv "capped" (some "0")).load String.quote with
  | error err =>
    rw [h] at hload
    cases hload
  | ok s =>
    have hcore : s.core 0 = none := by
      rw [Settings.core, (load_spec h).1]
      decide
    refine ⟨s, rfl, hcore, fun hsound => ?_⟩
    have hzero : (driverEnv "capped" (some "0")).pin = 0 := by decide
    exact ((sound_iff h).mp hsound).1 (by decide) hzero

end LinuxS3
