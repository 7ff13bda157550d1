import Mathlib.Data.List.Pairwise
import MiniosvCtrl.Infra.Lists
import MiniosvCtrl.Queue.Checks

/-!
# Two builds in one tree

`checks` compares the bench strings of a group. What is built into which tree is decided by the
driver that the last component of the string names, so that two strings can stand for one tree.

* `writes_iff` — the trees of a bench, by its driver
* `shares_iff` — when two benches build into one tree
* `apart_iff` — an accepted group builds into trees of its own exactly when it has one miniOSv arm
  at most, and no two paths of one of the static binaries
-/

namespace Checks

open Infra

variable {w : World} {a : Args} {xs g : List Experiment} {b b' : String} {t : Tree}

/-! ## The trees of a bench -/

/-- A miniOSv arm. -/
def Miniosv (b : String) : Prop := (driverOf b).map Driver.osName = some "miniosv"

instance : DecidablePred Miniosv := fun b =>
  inferInstanceAs (Decidable ((driverOf b).map Driver.osName = some "miniosv"))

/-- A driver that builds a static binary in its own directory. -/
def Static (d : Option Driver) : Prop := d = some .linuxS3 ∨ d = some .anyblob

instance : DecidablePred Static := fun d =>
  inferInstanceAs (Decidable (d = some .linuxS3 ∨ d = some .anyblob))

/-- The two benches build into one tree. -/
def Shares (b b' : String) : Prop := ∃ t, Writes b t ∧ Writes b' t

theorem miniosv_iff : Miniosv b ↔ driverOf b = some .smoltcpS3 ∨ driverOf b = some .duckdbTpch := by
  unfold Miniosv
  cases driverOf b with
  | none => simp
  | some d => cases d <;> simp [Driver.osName]

theorem ensureBinary_trees {server uploaded : Bool} {cmd : Command}
    (h : cmd ∈ Driver.ensureBinary server uploaded) : cmd.trees = [] := by
  unfold Driver.ensureBinary at h
  split at h
  · obtain rfl : cmd = .temporary := by simpa [justSetup] using h
    rfl
  · cases h

/-- The tree of the repository that the driver builds into. -/
def Driver.tree : Driver → Option Tree
  | .smoltcpS3 | .duckdbTpch => some "miniosv"
  | .linuxS3 => some "competitors/linux-s3"
  | .anyblob => some "competitors/anyblob"
  | .linuxHttp | .duckdbLinux => none

theorem mem_build {d : Driver} {server uploaded : Bool} :
    (∃ cmd ∈ d.build server uploaded, t ∈ cmd.trees) ↔ d.tree = some t := by
  -- a server of its own adds nothing
  have hskip : ∀ {l : List Command}, (∃ cmd ∈ l ++ Driver.ensureBinary server uploaded,
      t ∈ cmd.trees) ↔ ∃ cmd ∈ l, t ∈ cmd.trees := by
    intro l
    constructor
    · rintro ⟨cmd, hcmd, ht⟩
      rcases List.mem_append.mp hcmd with hcmd | hcmd
      · exact ⟨cmd, hcmd, ht⟩
      · rw [ensureBinary_trees hcmd] at ht
        cases ht
    · rintro ⟨cmd, hcmd, ht⟩
      exact ⟨cmd, List.mem_append_left _ hcmd, ht⟩
  cases d with
  | smoltcpS3 =>
    have hcomm : ∀ cmd, cmd ∈ Driver.build .smoltcpS3 server uploaded ↔
        cmd ∈ justBuild "apps/bench/smoltcp-s3" ++ Driver.ensureBinary server uploaded := by
      intro cmd
      rw [List.mem_append, or_comm, ← List.mem_append]
      rfl
    simp only [hcomm, hskip]
    simp [justBuild, Command.trees, Driver.tree, eq_comm]
  | duckdbTpch | linuxS3 | duckdbLinux =>
    simp [Driver.build, justSetup, Command.trees, Driver.tree, eq_comm]
  | anyblob | linuxHttp =>
    simp only [Driver.build, hskip]
    simp [justSetup, Command.trees, Driver.tree, eq_comm]

theorem writes_iff : Writes b t ↔ (driverOf b).bind Driver.tree = some t := by
  simp only [Writes, mem_build, exists_const, Option.bind_eq_some_iff]

/-- Both are miniOSv arms, or the paths name one driver that builds in its own directory. -/
theorem shares_iff : Shares b b' ↔
    (Miniosv b ∧ Miniosv b') ∨ (driverOf b = driverOf b' ∧ Static (driverOf b)) := by
  simp only [Shares, writes_iff, miniosv_iff, Static]
  cases driverOf b with
  | none => simp
  | some d =>
    cases driverOf b' with
    | none => cases d <;> simp [Driver.tree]
    | some d' => cases d <;> cases d' <;> simp [Driver.tree]

/-! ## What is accepted -/

theorem checkGroups_of_checks (h : checks w a xs = .ok ()) : w.checkGroups a xs = .ok () := by
  obtain ⟨-, -, h⟩ := ok_of_bind h
  obtain ⟨-, -, h⟩ := ok_of_bind h
  obtain ⟨-, -, h⟩ := ok_of_bind h
  obtain ⟨-, -, h⟩ := ok_of_bind h
  obtain ⟨-, -, h⟩ := ok_of_bind h
  obtain ⟨-, -, h⟩ := ok_of_bind h
  obtain ⟨-, -, h⟩ := ok_of_bind h
  exact h

/-- The bench strings of an accepted group differ. -/
theorem nodup_of_checks (h : checks w a xs = .ok ()) (hc : a.concurrent = true)
    (hg : g ∈ groups xs) : (g.map Experiment.bench).Nodup := by
  have hok := checkGroups_of_checks h
  unfold World.checkGroups at hok
  rw [if_neg (by rw [hc]; nofun)] at hok
  split at hok
  · cases hok
  · rename_i hall
    have hlen := not_not.mp fun hne => hall ⟨g, hg, hne⟩
    rw [← List.Sublist.eq_of_length (List.dedup_sublist _) hlen]
    exact List.nodup_dedup _

/-! ## Trees of their own -/

/-- No two experiments of the group build into one tree. -/
def Apart (g : List Experiment) : Prop := g.Pairwise fun x y => ¬ Shares x.bench y.bench

/-- The group has one miniOSv arm at most. -/
def OneMiniosv (g : List Experiment) : Prop := (g.filter fun x => Miniosv x.bench).length ≤ 1

/-- Where the group names a static binary twice, it does so by the same path. -/
def SamePaths (g : List Experiment) : Prop :=
  ∀ x ∈ g, ∀ y ∈ g, driverOf x.bench = driverOf y.bench → Static (driverOf x.bench) →
    x.bench = y.bench

theorem shares_comm : Shares b b' ↔ Shares b' b := by
  unfold Shares
  simp only [and_comm]

theorem length_le_one_of_pairwise {α : Type} {l : List α} (h : l.Pairwise fun _ _ => False) :
    l.length ≤ 1 := by
  match l, h with
  | [], _ | [_], _ => simp
  | x :: y :: l, h => exact ((List.pairwise_cons.mp h).1 y List.mem_cons_self).elim

theorem oneMiniosv_of_apart (h : Apart g) : OneMiniosv g := by
  refine length_le_one_of_pairwise ?_
  refine (h.sublist List.filter_sublist).imp_of_mem fun {x y} hx hy hnot => hnot ?_
  exact shares_iff.mpr (Or.inl ⟨of_decide_eq_true (List.mem_filter.mp hx).2,
    of_decide_eq_true (List.mem_filter.mp hy).2⟩)

theorem eq_of_length_le_one {α : Type} {l : List α} {x y : α} (h : l.length ≤ 1) (hx : x ∈ l)
    (hy : y ∈ l) : x = y := by
  match l, h with
  | [z], _ => rw [List.mem_singleton.mp hx, List.mem_singleton.mp hy]

theorem apart_iff_of_nodup (hn : (g.map Experiment.bench).Nodup) :
    Apart g ↔ OneMiniosv g ∧ SamePaths g := by
  constructor
  · intro h
    refine ⟨oneMiniosv_of_apart h, fun x hx y hy hd hs => ?_⟩
    by_contra hne
    have hsymm : Std.Symm fun x y : Experiment => ¬ Shares x.bench y.bench :=
      ⟨fun _ _ => mt shares_comm.mp⟩
    exact List.Pairwise.forall h hx hy (fun he => hne (he ▸ rfl))
      (shares_iff.mpr (Or.inr ⟨hd, hs⟩))
  · rintro ⟨hone, hpaths⟩
    refine (List.pairwise_map.mp hn).imp_of_mem fun {x y} hx hy hne hshares => hne ?_
    rcases shares_iff.mp hshares with ⟨hmx, hmy⟩ | ⟨hd, hs⟩
    · rw [eq_of_length_le_one hone (List.mem_filter.mpr ⟨hx, decide_eq_true hmx⟩)
        (List.mem_filter.mpr ⟨hy, decide_eq_true hmy⟩)]
    · exact hpaths x hx y hy hd hs

/--
The experiments of every group that is accepted with `--concurrent` build into trees of their own
exactly when each group has one miniOSv arm at most, and names each static binary by one path.
-/
theorem apart_iff (h : checks w a xs = .ok ()) (hc : a.concurrent = true) :
    (∀ g ∈ groups xs, Apart g) ↔ ∀ g ∈ groups xs, OneMiniosv g ∧ SamePaths g :=
  forall₂_congr fun _ hg => apart_iff_of_nodup (nodup_of_checks h hc hg)

/-! ## Groups that are accepted -/

/-- Nothing stands in the way. -/
def clear : World :=
  { tables := Builtins.exact
    environ := fun _ => some "eu-north-1"
    identity := .ok "arn:aws:iam::1:user/bench"
    location := .ok (some "eu-north-1")
    subnet := .ok "vpc-1"
    endpoints := ["vpce-1"]
    blob := true
    dryRun := fun _ _ => ⟨0, "", ""⟩
    running := none
    up := [] }

def sideBySide : Args := { concurrent := true, reps := none, ttl := 3600 }

/-- A sweep of the first group. -/
def sweep (name bench : String) : Experiment :=
  { name, bench, inst := "c6in.8xlarge", group := 0, deploy := false, prep := false }

/-- miniOSv beside Linux. -/
def systems : List Experiment :=
  [sweep "s3/miniosv" "apps/bench/smoltcp-s3", sweep "s3/linux" "competitors/linux-s3"]

theorem apart_iff_systems :
    checks clear sideBySide systems = .ok () ∧ ∀ g ∈ groups systems, Apart g := by
  have hok : checks clear sideBySide systems = .ok () := by decide
  refine ⟨hok, (apart_iff hok rfl).mpr fun g hg => ?_⟩
  obtain rfl : g = systems := by
    have hone : groups systems = [systems] := by decide
    rw [hone] at hg
    exact List.mem_singleton.mp hg
  exact ⟨by unfold OneMiniosv; decide, by unfold SamePaths; decide⟩

/-- Two drivers that run `make` in miniosv are accepted side by side. -/
theorem shared_miniosv :
    ∃ (w : World) (a : Args) (x y : Experiment), checks w a [x, y] = .ok () ∧
      a.concurrent = true ∧ [x, y] ∈ groups [x, y] ∧ x.bench = "apps/bench/smoltcp-s3" ∧
      y.bench = "apps/bench/duckdb-tpch" ∧ Writes x.bench "miniosv" ∧ Writes y.bench "miniosv" :=
  ⟨clear, sideBySide, sweep "s3/miniosv" "apps/bench/smoltcp-s3",
    sweep "tpch/miniosv" "apps/bench/duckdb-tpch", by decide, rfl, by decide, rfl,
    rfl, writes_iff.mpr (by decide), writes_iff.mpr (by decide)⟩

end Checks
