import Mathlib.Data.List.Induction
import MiniosvCtrl.Experiment.Main

/-!
# Which runs the drivers of an experiment plan

Alone or grouped with others, every point that `--only` keeps has a driver, and the drivers plan
the runs of these points and no others.

* `SameKnobs` — two tables that differ in the axis only
* `exists_driver` — a kept point's runs are in some driver's plan
* `runOf_of_mem_plan` — a driver plans runs of kept points
-/

namespace Experiment

open Infra Runner

namespace File

variable {x : File} {p g : Dict} {run : Run}

/-! ## Tables that differ in the axis only -/

/-- Every key but the axis has the same value. -/
def SameKnobs (x : File) (g p : Dict) : Prop := ∀ k, k ≠ x.axis → g.lookup k = p.lookup k

theorem SameKnobs.refl (x : File) (p : Dict) : x.SameKnobs p p := fun _ _ => rfl

theorem lookup_merge (a b : Dict) (k : Name) :
    (merge a b).lookup k = (b.lookup k).or (a.lookup k) := by
  rw [merge, List.lookup_append, lookup_filter_fst (fun n => decide (n ∉ a.map Prod.fst))]
  have hfirst : ∀ a : Dict, (a.map fun kv => (kv.1, (b.lookup kv.1).getD kv.2)).lookup k =
      (a.lookup k).map fun v => (b.lookup k).getD v := by
    intro a
    induction a with
    | nil => rfl
    | cons e a ih =>
      rw [List.map_cons, List.lookup_cons, List.lookup_cons]
      by_cases hk : k = e.1
      · subst hk
        rw [beq_self_eq_true]
        rfl
      · rw [beq_false_of_ne hk]
        exact ih
  rw [hfirst]
  cases ha : a.lookup k with
  | none =>
    have hmem : k ∉ a.map Prod.fst := by
      intro hk
      obtain ⟨kv, hkv, rfl⟩ := List.mem_map.mp hk
      have hsome : (a.lookup kv.1).isSome = true :=
        List.lookup_isSome_iff.mpr ⟨kv, hkv, beq_self_eq_true _⟩
      rw [ha] at hsome
      cases hsome
    simp [hmem]
  | some v =>
    cases hb : b.lookup k <;> simp

/-- What `--knob value` gives, whichever point it is for. -/
theorem lookup_held (x : File) (reps : Nat) (p : Dict) (k : Name) :
    (x.argv reps p).held.lookup k =
      if k = x.axis ∨ (x.axis ≠ instanceAxis ∧ k = instanceAxis) then none
      else ((p.lookup k).or (x.fixed.lookup k)).map Value.text := by
  show (((x.cfg p).filter fun kv => kv.1 ≠ x.axis).map fun kv => (kv.1, kv.2.text)).lookup k = _
  rw [lookup_map_snd, lookup_filter_fst (fun n => decide (n ≠ x.axis))]
  by_cases hk : k = x.axis
  · simp [hk]
  · rw [if_pos (by simpa using hk)]
    by_cases haxis : x.axis = instanceAxis
    · rw [cfg, if_pos haxis, lookup_merge, if_neg (by simp [hk, haxis ▸ hk])]
    · rw [cfg, if_neg haxis, lookup_filter_fst (fun n => decide (n ≠ instanceAxis)), lookup_merge]
      by_cases hi : k = instanceAxis
      · simp [hi, haxis]
      · simp [hi, hk]

theorem instanceOf_congr (h : x.SameKnobs g p) : x.instanceOf g = x.instanceOf p := by
  unfold instanceOf
  split
  · rfl
  · rename_i haxis
    rw [lookup_merge, lookup_merge, h instanceAxis (Ne.symm haxis)]

theorem base_congr (h : x.SameKnobs g p) (reps rep : Nat) :
    x.bench.base (x.argv reps g).held = x.bench.base (x.argv rep p).held := by
  have hlookup : ∀ k, (x.argv reps g).held.lookup k = (x.argv rep p).held.lookup k := by
    intro k
    rw [lookup_held, lookup_held]
    by_cases hk : k = x.axis
    · simp [hk]
    · rw [h k hk]
  have hvalue : ∀ knob, Bench.baseValue (x.argv reps g).held knob =
      Bench.baseValue (x.argv rep p).held knob := by
    intro knob
    rw [Bench.baseValue, Bench.baseValue, hlookup]
  unfold Bench.base
  simp only [hvalue]

/-- Two sweeps over tables that differ in the axis only give a value and a rep one run. -/
theorem run_eq_of_reads {s t : Sweep} {reps rep : Nat} (h : x.SameKnobs g p)
    (hs : Sweep.Reads x.bench (x.argv reps g) s) (ht : Sweep.Reads x.bench (x.argv rep p) t)
    (v : Value) (n : Nat) : s.run v n = t.run v n := by
  refine Sweep.run_congr (hs.axis.trans ht.axis.symm) ?_ ?_ v n
  · have hbase := hs.base
    rw [base_congr h reps rep, ht.base] at hbase
    exact (Option.some_inj.mp hbase).symm
  · rw [hs.inst, ht.inst]
    exact instanceOf_congr h

/-! ## The values of an axis -/

theorem values_of_subset {b : Bench} {axis : Name} {raw raw' : String}
    (h : split raw' ⊆ split raw) {vs : List Value} (hvs : b.values axis raw = some vs) :
    ∃ vs', b.values axis raw' = some vs' ∧ vs' ⊆ vs := by
  unfold Bench.values at hvs ⊢
  split at hvs
  · rename_i haxis
    rw [if_pos haxis]
    obtain rfl := Option.some_inj.mp hvs
    refine ⟨_, rfl, List.map_subset _ fun t ht => ?_⟩
    obtain ⟨hmem, hne⟩ := List.mem_filter.mp ht
    exact List.mem_filter.mpr ⟨List.map_subset _ h hmem, hne⟩
  · rename_i haxis
    rw [if_neg haxis]
    cases hknob : b.knobs.find? (·.name = axis) with
    | none =>
      rw [hknob] at hvs
      cases hvs
    | some knob =>
      rw [hknob] at hvs
      exact mapM_eq_some_of_subset h hvs

/-- A value that is read comes from one of the parts. -/
theorem exists_part {b : Bench} {axis : Name} {raw : String} {vs : List Value}
    (hvs : b.values axis raw = some vs) {v : Value} (hv : v ∈ vs) :
    ∃ t ∈ split raw, ∀ raw' vs', t ∈ split raw' → b.values axis raw' = some vs' → v ∈ vs' := by
  unfold Bench.values at hvs ⊢
  split at hvs
  · rename_i haxis
    obtain rfl := Option.some_inj.mp hvs
    obtain ⟨u, hu, rfl⟩ := List.mem_map.mp hv
    obtain ⟨hmem, hne⟩ := List.mem_filter.mp hu
    obtain ⟨t, ht, rfl⟩ := List.mem_map.mp hmem
    refine ⟨t, ht, fun raw' vs' ht' hvs' => ?_⟩
    rw [if_pos haxis] at hvs'
    obtain rfl := Option.some_inj.mp hvs'
    exact List.mem_map_of_mem (List.mem_filter.mpr ⟨List.mem_map_of_mem ht', hne⟩)
  · rename_i haxis
    cases hknob : b.knobs.find? (·.name = axis) with
    | none =>
      rw [hknob] at hvs
      cases hvs
    | some knob =>
      rw [hknob] at hvs
      obtain ⟨t, ht, hparse⟩ := exists_mem_of_mapM hvs hv
      refine ⟨t, ht, fun raw' vs' ht' hvs' => ?_⟩
      rw [if_neg haxis] at hvs'
      have hone : [t] ⊆ split raw' := List.cons_subset.mpr ⟨ht', List.nil_subset _⟩
      obtain ⟨m, hm, hsub⟩ := mapM_eq_some_of_subset (f := knob.parser) hone hvs'
      obtain rfl : [v] = m := by simpa [List.mapM_cons, hparse] using hm
      exact hsub List.mem_cons_self

theorem split_ne_nil (raw : String) : split raw ≠ [] := by
  simp [split, List.splitOn_ne_nil]

theorem split_join {vs : List Value} (h : vs ≠ []) :
    split (join vs) = vs.flatMap fun v => split v.text := by
  have hlists : ∀ ts : List (List Char), ts ≠ [] →
      ([','].intercalate ts).splitOn ',' = ts.flatMap fun t => t.splitOn ',' := by
    intro ts hts
    induction ts with
    | nil => exact absurd rfl hts
    | cons t ts ih =>
      cases ts with
      | nil => simp [List.intercalate_singleton]
      | cons u ts =>
        rw [List.intercalate_cons_cons, List.append_assoc, List.singleton_append,
          List.splitOn_append_cons_self, ih (List.cons_ne_nil _ _)]
        rfl
  have hne : (vs.map Value.text).map String.toList ≠ [] := by simpa using h
  rw [split, join, String.toList_intercalate]
  show List.map String.ofList (([','].intercalate _).splitOn ',') = _
  rw [hlists _ hne, List.map_flatMap, List.flatMap_map, List.flatMap_map]
  rfl

/-! ## The groups of an interleaved experiment -/

theorem mem_append_self (key : Dict) (v : Value) (groups : List (Dict × List Value)) :
    ∃ g ∈ append key v groups, g.1 = key ∧ v ∈ g.2 := by
  induction groups with
  | nil => exact ⟨(key, [v]), List.mem_cons_self, rfl, List.mem_cons_self⟩
  | cons e groups ih =>
    rw [append]
    by_cases he : e.1 = key
    · rw [if_pos he]
      exact ⟨_, List.mem_cons_self, he, List.mem_append_right _ List.mem_cons_self⟩
    · rw [if_neg he]
      obtain ⟨g, hg, hkey⟩ := ih
      exact ⟨g, List.mem_cons_of_mem _ hg, hkey⟩

theorem mem_append_of_mem {key : Dict} {v : Value} {groups : List (Dict × List Value)}
    {k : Dict} {w : Value} (h : ∃ g ∈ groups, g.1 = k ∧ w ∈ g.2) :
    ∃ g ∈ append key v groups, g.1 = k ∧ w ∈ g.2 := by
  induction groups with
  | nil => exact absurd h (by simp)
  | cons e groups ih =>
    obtain ⟨g, hg, hk, hw⟩ := h
    rw [append]
    by_cases he : e.1 = key
    · rw [if_pos he]
      rcases List.mem_cons.mp hg with rfl | hg
      · exact ⟨_, List.mem_cons_self, hk, List.mem_append_left _ hw⟩
      · exact ⟨g, List.mem_cons_of_mem _ hg, hk, hw⟩
    · rw [if_neg he]
      rcases List.mem_cons.mp hg with rfl | hg
      · exact ⟨_, List.mem_cons_self, hk, hw⟩
      · obtain ⟨g', hg', h'⟩ := ih ⟨g, hg, hk, hw⟩
        exact ⟨g', List.mem_cons_of_mem _ hg', h'⟩

/-- A group is of the points with its key, and of nothing else. -/
theorem of_mem_append {key : Dict} {v : Value} {groups : List (Dict × List Value)}
    {g : Dict × List Value} (h : g ∈ append key v groups) {w : Value} (hw : w ∈ g.2) :
    (g.1 = key ∧ w = v) ∨ ∃ g' ∈ groups, g'.1 = g.1 ∧ w ∈ g'.2 := by
  induction groups with
  | nil =>
    obtain rfl := List.mem_singleton.mp h
    exact Or.inl ⟨rfl, List.mem_singleton.mp hw⟩
  | cons e groups ih =>
    rw [append] at h
    by_cases he : e.1 = key
    · rw [if_pos he] at h
      rcases List.mem_cons.mp h with rfl | h
      · rcases List.mem_append.mp hw with hw | hw
        · exact Or.inr ⟨e, List.mem_cons_self, rfl, hw⟩
        · exact Or.inl ⟨he, List.mem_singleton.mp hw⟩
      · exact Or.inr ⟨g, List.mem_cons_of_mem _ h, rfl, hw⟩
    · rw [if_neg he] at h
      rcases List.mem_cons.mp h with rfl | h
      · exact Or.inr ⟨_, List.mem_cons_self, rfl, hw⟩
      · rcases ih h with h' | ⟨g', hg', h'⟩
        · exact Or.inl h'
        · exact Or.inr ⟨g', List.mem_cons_of_mem _ hg', h'⟩

theorem append_ne_nil {key : Dict} {v : Value} {groups : List (Dict × List Value)}
    (h : ∀ g ∈ groups, g.2 ≠ []) : ∀ g ∈ append key v groups, g.2 ≠ [] := by
  induction groups with
  | nil =>
    intro g hg
    obtain rfl := List.mem_singleton.mp hg
    exact List.cons_ne_nil _ _
  | cons e groups ih =>
    intro g hg
    rw [append] at hg
    by_cases he : e.1 = key
    · rw [if_pos he] at hg
      rcases List.mem_cons.mp hg with rfl | hg
      · simp
      · exact h g (List.mem_cons_of_mem _ hg)
    · rw [if_neg he] at hg
      rcases List.mem_cons.mp hg with rfl | hg
      · exact h _ List.mem_cons_self
      · exact ih (fun g' hg' => h g' (List.mem_cons_of_mem _ hg')) g hg

/-- `groups`, once every point is in one. -/
def groupsOf (x : File) (points : List Dict) : List (Dict × List Value) :=
  points.foldl (fun groups p => append (x.groupKey p) (x.axisValue p) groups) []

/-- The groups are of the points: of each one, and of nothing else. -/
theorem groupsOf_spec (x : File) (points : List Dict) :
    (∀ p ∈ points, ∃ g ∈ x.groupsOf points, g.1 = x.groupKey p ∧ x.axisValue p ∈ g.2) ∧
    (∀ g ∈ x.groupsOf points, g.2 ≠ []) ∧
    ∀ g ∈ x.groupsOf points, ∀ w ∈ g.2, ∃ p ∈ points, g.1 = x.groupKey p ∧ w = x.axisValue p := by
  induction points using List.reverseRecOn with
  | nil =>
    exact ⟨fun p hp => absurd hp List.not_mem_nil, fun g hg => absurd hg List.not_mem_nil,
      fun g hg => absurd hg List.not_mem_nil⟩
  | append_singleton points p ih =>
    obtain ⟨heach, hne, honly⟩ := ih
    have hfold : x.groupsOf (points ++ [p]) =
        append (x.groupKey p) (x.axisValue p) (x.groupsOf points) := by
      rw [groupsOf, List.foldl_append]
      rfl
    rw [hfold]
    refine ⟨fun p' hp' => ?_, append_ne_nil hne, fun g hg w hw => ?_⟩
    · rcases List.mem_append.mp hp' with hp' | hp'
      · exact mem_append_of_mem (heach p' hp')
      · obtain rfl := List.mem_singleton.mp hp'
        exact mem_append_self _ _ _
    · rcases of_mem_append hg hw with ⟨hkey, rfl⟩ | ⟨g', hg', hkey, hw'⟩
      · exact ⟨p, List.mem_append_right _ List.mem_cons_self, hkey, rfl⟩
      · obtain ⟨p', hp', hk, rfl⟩ := honly g' hg' w hw'
        exact ⟨p', List.mem_append_left _ hp', hkey ▸ hk, rfl⟩

theorem lookup_groupKey (hn : (p.map Prod.fst).Nodup) (k : Name) :
    (x.groupKey p).lookup k = if k = x.axis then none else p.lookup k := by
  have hfilter : ((p.filter fun kv => kv.1 ≠ x.axis).map Prod.fst).Nodup :=
    hn.sublist (List.filter_sublist.map Prod.fst)
  rw [groupKey, ← lookup_perm (List.mergeSort_perm _ _).symm hfilter,
    lookup_filter_fst (fun n => decide (n ≠ x.axis))]
  by_cases hk : k = x.axis
  · simp [hk]
  · simp [hk]

/-- The table of a group differs from its points' in the axis only. -/
theorem sameKnobs_group (hn : (p.map Prod.fst).Nodup) (v : Value) :
    x.SameKnobs (x.groupKey p ++ [(x.axis, v)]) p := by
  intro k hk
  rw [List.lookup_append, lookup_groupKey hn, if_neg hk, List.lookup_cons, beq_false_of_ne hk]
  simp

theorem axisValue_group (hn : (p.map Prod.fst).Nodup) (v : Value) :
    x.axisValue (x.groupKey p ++ [(x.axis, v)]) = v := by
  rw [axisValue, List.lookup_append, lookup_groupKey hn, if_pos rfl, List.lookup_cons,
    beq_self_eq_true]
  rfl

/-! ## The drivers of the kept points -/

theorem mem_points_of_only {o : Option (Name × String)} (h : p ∈ x.only o) : p ∈ x.points := by
  cases o with
  | none => exact h
  | some o =>
    have hfilter : p ∈ x.points.filter fun q => x.shown o.1 q = o.2 := h
    exact List.mem_of_mem_filter hfilter

theorem main_eq_some {o : Option (Name × String)} {reps : Nat} {argvs : List Argv}
    (h : x.main o reps = some argvs) : argvs = (x.tables o).map (x.argv reps) := by
  unfold main at h
  split at h
  · cases h
  · exact (Option.some_inj.mp h).symm

/-- Every kept point has a table that differs from it in the axis only, its values among them. -/
theorem exists_table {o : Option (Name × String)} (hp : p ∈ x.only o) :
    ∃ g ∈ x.tables o, x.SameKnobs g p ∧
      split (x.axisValue p).text ⊆ split (x.axisValue g).text := by
  unfold tables
  split
  · obtain ⟨heach, hne, honly⟩ := x.groupsOf_spec (x.only o)
    obtain ⟨g, hg, hkey, hmem⟩ := heach p hp
    have hn := x.nodup p (mem_points_of_only hp)
    refine ⟨g.1 ++ [(x.axis, .str (join g.2))], List.mem_map_of_mem hg, ?_, ?_⟩
    · rw [hkey]
      exact sameKnobs_group hn _
    · rw [hkey, axisValue_group hn]
      show _ ⊆ split (join g.2)
      rw [split_join (hne g hg)]
      exact fun t ht => List.mem_flatMap.mpr ⟨_, hmem, ht⟩
  · exact ⟨p, hp, SameKnobs.refl x p, fun _ ht => ht⟩

/-- Every part of a table's axis value is one of a kept point that differs in the axis only. -/
theorem exists_point {o : Option (Name × String)} (hg : g ∈ x.tables o) {t : String}
    (ht : t ∈ split (x.axisValue g).text) :
    ∃ p ∈ x.only o, x.SameKnobs g p ∧ t ∈ split (x.axisValue p).text ∧
      split (x.axisValue p).text ⊆ split (x.axisValue g).text := by
  unfold tables at hg
  split at hg
  · obtain ⟨gr, hgr, rfl⟩ := List.mem_map.mp hg
    obtain ⟨-, hne, honly⟩ := x.groupsOf_spec (x.only o)
    obtain ⟨w, hw⟩ := List.exists_mem_of_ne_nil _ (hne gr hgr)
    obtain ⟨p₀, hp₀, hkey, -⟩ := honly gr hgr w hw
    rw [hkey, axisValue_group (x.nodup p₀ (mem_points_of_only hp₀))] at ht
    have hsplit : t ∈ split (join gr.2) := ht
    rw [split_join (hne gr hgr)] at hsplit
    obtain ⟨w', hw', ht'⟩ := List.mem_flatMap.mp hsplit
    obtain ⟨p, hp, hkey', rfl⟩ := honly gr hgr w' hw'
    refine ⟨p, hp, ?_, ht', ?_⟩
    · rw [hkey']
      exact sameKnobs_group (x.nodup p (mem_points_of_only hp)) _
    · rw [hkey, axisValue_group (x.nodup p₀ (mem_points_of_only hp₀))]
      show _ ⊆ split (join gr.2)
      rw [split_join (hne gr hgr)]
      exact fun u hu => List.mem_flatMap.mpr ⟨_, hw', hu⟩
  · exact ⟨g, hg, SameKnobs.refl x g, ht, fun _ hu => hu⟩

/-- The sweep of a table is one of a point that differs in the axis only, with other values. -/
theorem reads_of_sameKnobs {s : Sweep} {reps rep : Nat} (h : x.SameKnobs g p)
    (hs : Sweep.Reads x.bench (x.argv reps g) s) {vs : List Value}
    (hvs : x.bench.values x.axis (x.axisValue p).text = some vs) :
    Sweep.Reads x.bench (x.argv rep p) { s with values := vs } :=
  { axis := hs.axis
    values := hvs
    base := by
      rw [← base_congr h reps rep]
      exact hs.base
    inst := hs.inst.trans (instanceOf_congr h) }

/-- **The runs of a kept point are in the plan of one of the drivers.** -/
theorem exists_driver {o : Option (Name × String)} {reps rep : Nat} {argvs : List Argv}
    (hmain : x.main o reps = some argvs) (hp : p ∈ x.only o) (hpos : 1 ≤ rep) (hle : rep ≤ reps) :
    ∃ a ∈ argvs, ∀ s, Sweep.parse x.bench a = some s →
      (∃ s', Sweep.Reads x.bench (x.argv rep p) s') ∧ ∀ run, x.RunOf p rep run → run ∈ s.plan := by
  obtain ⟨g, hg, hsame, hsplit⟩ := exists_table hp
  rw [main_eq_some hmain]
  refine ⟨x.argv reps g, List.mem_map_of_mem hg, fun s hs => ?_⟩
  have hparsed := Sweep.parsed_of_parse hs
  obtain ⟨vs', hvs', hsub⟩ := values_of_subset hsplit hparsed.values
  refine ⟨⟨_, reads_of_sameKnobs hsame hparsed.toReads hvs'⟩, ?_⟩
  rintro run ⟨s', hs', v, hv, rfl⟩
  have hvalues : s'.values = vs' := by
    have h : some s'.values = some vs' := hs'.values.symm.trans hvs'
    exact Option.some_inj.mp h
  refine Sweep.mem_plan.mpr ⟨v, hsub (hvalues ▸ hv), rep, hpos, ?_, ?_⟩
  · rw [hparsed.reps]
    exact hle
  · exact (run_eq_of_reads hsame hparsed.toReads hs' v rep).symm

/-- **A driver plans runs of kept points only.** -/
theorem runOf_of_mem_plan {o : Option (Name × String)} {reps : Nat} {argvs : List Argv}
    (hmain : x.main o reps = some argvs) {a : Argv} (ha : a ∈ argvs) {s : Sweep}
    (hs : Sweep.parse x.bench a = some s) (hrun : run ∈ s.plan) :
    1 ≤ run.rep ∧ run.rep ≤ reps ∧ ∃ p ∈ x.only o, x.RunOf p run.rep run := by
  rw [main_eq_some hmain] at ha
  obtain ⟨g, hg, rfl⟩ := List.mem_map.mp ha
  have hparsed := Sweep.parsed_of_parse hs
  obtain ⟨v, hv, rep, hpos, hle, rfl⟩ := Sweep.mem_plan.mp hrun
  rw [hparsed.reps] at hle
  obtain ⟨t, ht, hread⟩ := exists_part hparsed.values hv
  obtain ⟨p, hp, hsame, ht', hsplit⟩ := exists_point hg ht
  obtain ⟨vs', hvs', -⟩ := values_of_subset hsplit hparsed.values
  have hreads : Sweep.Reads x.bench (x.argv rep p) { s with values := vs' } :=
    reads_of_sameKnobs hsame hparsed.toReads hvs'
  exact ⟨hpos, hle, p, hp, _, hreads, v, hread _ _ ht' hvs',
    run_eq_of_reads hsame hparsed.toReads hreads v rep⟩

end File

end Experiment
