import Mathlib.Data.List.DropRight
import Mathlib.Data.List.Perm.Basic
import Mathlib.Data.List.ProdSigma
import MiniosvCtrl.Experiment.Environ
import MiniosvCtrl.Properties.Points
import MiniosvCtrl.Properties.ResumeSound

/-!
# The expansion of an experiment

The drivers' runs, with their environments, against the points that they are for. A driver splits
the axis value it is given, and an interleaved experiment formats its environment once for a
group, so the expansion is exact for experiments where neither shows.

* `schedule_perm` — the schedule is of `points x reps`
* `runs_eq_iff` — when the runs of one driver are those of its points
* `exact_iff` — when the runs of all drivers are
-/

namespace Experiment.Stored

open Infra Runner File

variable {x : File} {points : List Dict}

/-! ## The groups -/

theorem append_map {keys : List Dict} (hn : keys.Nodup) (f : Dict → List Value) (key : Dict)
    (v : Value) : append key v (keys.map fun k => (k, f k)) =
      (keys.map fun k => (k, if k = key then f k ++ [v] else f k)) ++
        if key ∈ keys then [] else [(key, [v])] := by
  induction keys with
  | nil => simp [append]
  | cons k keys ih =>
    obtain ⟨hk, hkeys⟩ := List.nodup_cons.mp hn
    rw [List.map_cons, append, List.map_cons]
    by_cases he : k = key
    · subst he
      have hrest : (keys.map fun k' => (k', if k' = k then f k' ++ [v] else f k')) =
          keys.map fun k' => (k', f k') := by
        refine List.map_congr_left fun k' hk' => ?_
        have hne : k' ≠ k := fun h => hk (h ▸ hk')
        rw [if_neg hne]
      simp [hrest]
    · rw [if_neg he, ih hkeys, if_neg he]
      simp [Ne.symm he]

theorem nodup_eraseDups (l : List Dict) : l.eraseDups.Nodup := by
  induction l using List.reverseRecOn with
  | nil => exact List.nodup_nil
  | append_singleton l a ih =>
    rw [List.eraseDups_append]
    by_cases ha : a ∈ l
    · simpa [List.removeAll, ha] using ih
    · have hone : ([a].removeAll l).eraseDups = [a] := by
        simp [List.removeAll, ha, List.eraseDups_cons]
      rw [hone]
      refine List.nodup_append.mpr ⟨ih, List.nodup_singleton a, ?_⟩
      rintro b hb c hc rfl
      obtain rfl := List.mem_singleton.mp hc
      exact ha (List.mem_eraseDups.mp hb)

/-- A group is of the points with its key, in their order. -/
theorem groupsOf_eq (x : File) (points : List Dict) :
    x.groupsOf points = (points.map x.groupKey).eraseDups.map fun key =>
      (key, (points.filter (x.groupKey · = key)).map x.axisValue) := by
  induction points using List.reverseRecOn with
  | nil => rfl
  | append_singleton points p ih =>
    have hfold : x.groupsOf (points ++ [p]) =
        append (x.groupKey p) (x.axisValue p) (x.groupsOf points) := by
      rw [groupsOf, List.foldl_append]
      rfl
    rw [hfold, ih, append_map (nodup_eraseDups _), List.map_append, List.eraseDups_append,
      List.map_append]
    congr 1
    · refine List.map_congr_left fun key _ => ?_
      by_cases hkey : key = x.groupKey p
      · simp [hkey]
      · simp [hkey, Ne.symm hkey]
    · by_cases hmem : x.groupKey p ∈ (points.map x.groupKey).eraseDups
      · have hmem' : x.groupKey p ∈ points.map x.groupKey := List.mem_eraseDups.mp hmem
        rw [if_pos hmem]
        simp [List.removeAll, List.mem_map.mp hmem']
      · have hmem' : x.groupKey p ∉ points.map x.groupKey :=
          fun h => hmem (List.mem_eraseDups.mpr h)
        have hnone : points.filter (x.groupKey · = x.groupKey p) = [] := by
          refine List.filter_eq_nil_iff.mpr fun q hq => ?_
          have hne : x.groupKey q ≠ x.groupKey p := fun h => hmem' (h ▸ List.mem_map_of_mem hq)
          simpa using hne
        rw [if_neg hmem]
        simp [List.removeAll, List.mem_map.not.mp hmem', List.eraseDups_cons, hnone]

/-- The drivers are started for the tables of their points. -/
theorem tables_eq (x : File) (o : Option (Name × String)) :
    x.tables o = (served x (x.only o)).map Prod.fst := by
  unfold tables served
  split
  · rw [List.map_map]
    show (x.groupsOf (x.only o)).map _ = _
    rw [groupsOf_eq, List.map_map]
    rfl
  · rw [List.map_map]
    exact (List.map_id _).symm

/-- What is known of a driver's table and its points. -/
structure Serves (x : File) (points : List Dict) (g : Dict) (ps : List Dict) : Prop where
  nonempty : ps ≠ []
  mem : ∀ p ∈ ps, p ∈ points
  table : ∀ p ∈ ps, tableOf x points p = g
  same : ∀ p ∈ ps, x.SameKnobs g p
  text : (x.axisValue g).text = join (ps.map x.axisValue)
  alone : x.interleave = true ∨ ps.length = 1

theorem serves_of_mem (hpoints : ∀ p ∈ points, p ∈ x.points) {gps : Dict × List Dict}
    (h : gps ∈ served x points) : Serves x points gps.1 gps.2 := by
  unfold served at h
  split at h
  -- interleaved, a driver serves a whole group; otherwise a point of its own
  · rename_i hinter
    obtain ⟨key, hkey, rfl⟩ := List.mem_map.mp h
    obtain ⟨p₀, hp₀, rfl⟩ := List.mem_map.mp (List.mem_eraseDups.mp hkey)
    have hmem : ∀ p ∈ points.filter (x.groupKey · = x.groupKey p₀),
        p ∈ points ∧ x.groupKey p = x.groupKey p₀ := by
      intro p hp
      obtain ⟨hp, he⟩ := List.mem_filter.mp hp
      exact ⟨hp, by simpa using he⟩
    refine ⟨List.ne_nil_of_mem (List.mem_filter.mpr ⟨hp₀, by simp⟩), fun p hp => (hmem p hp).1,
      fun p hp => ?_, fun p hp => ?_, ?_, Or.inl hinter⟩
    · rw [tableOf, if_pos hinter, (hmem p hp).2]
    · show x.SameKnobs (x.groupKey p₀ ++ _) p
      rw [← (hmem p hp).2]
      exact sameKnobs_group (x.nodup p (hpoints p (hmem p hp).1)) _
    · show (x.axisValue (x.groupKey p₀ ++ _)).text = _
      rw [axisValue_group (x.nodup p₀ (hpoints p₀ hp₀))]
      rfl
  · rename_i hinter
    obtain ⟨p, hp, rfl⟩ := List.mem_map.mp h
    refine ⟨List.cons_ne_nil _ _, ?_, ?_, ?_, ?_, Or.inr rfl⟩
    · intro q hq
      obtain rfl := List.mem_singleton.mp hq
      exact hp
    · intro q hq
      obtain rfl := List.mem_singleton.mp hq
      rw [tableOf, if_neg hinter]
    · intro q hq
      obtain rfl := List.mem_singleton.mp hq
      exact SameKnobs.refl x q
    · simp [join]

/-- Every point is in the care of one driver. -/
theorem served_perm (x : File) (points : List Dict) :
    ((served x points).flatMap Prod.snd).Perm points := by
  unfold served
  split
  · rw [List.flatMap_map]
    exact flatMap_filter_perm x.groupKey (nodup_eraseDups _) fun p hp =>
      List.mem_eraseDups.mpr (List.mem_map_of_mem hp)
  · rw [List.flatMap_map]
    simp

theorem exists_served {p : Dict} (hp : p ∈ points) : ∃ gps ∈ served x points, p ∈ gps.2 :=
  List.mem_flatMap.mp ((served_perm x points).mem_iff.mpr hp)

theorem rounds_perm (reps : Nat) (ps : List Dict) :
    (rounds reps ps).Perm (ps ×ˢ (List.range reps).map (· + 1)) := by
  induction ps with
  | nil => simp [rounds]
  | cons p ps ih =>
    rw [List.product_cons]
    exact (List.map_append_flatMap_perm _ _ _).symm.trans (List.Perm.append_left _ ih)

theorem length_rounds (reps : Nat) (ps : List Dict) :
    (rounds reps ps).length = reps * ps.length := by
  simp [rounds, List.length_flatMap, Function.comp_def]

/-- **The schedule is of every point and every rep, once.** -/
theorem schedule_perm (x : File) (reps : Nat) (points : List Dict) :
    (schedule x reps points).flatten.Perm (points ×ˢ (List.range reps).map (· + 1)) := by
  refine List.Perm.trans ?_ ((served_perm x points).product_right _)
  rw [schedule, ← List.flatMap_def]
  generalize served x points = groups
  induction groups with
  | nil => exact List.Perm.nil
  | cons gps groups ih =>
    have happend : ((gps.2 ++ groups.flatMap Prod.snd) ×ˢ (List.range reps).map (· + 1)) =
        gps.2 ×ˢ (List.range reps).map (· + 1) ++
          groups.flatMap Prod.snd ×ˢ (List.range reps).map (· + 1) := List.flatMap_append
    rw [List.flatMap_cons, List.flatMap_cons]
    exact ((rounds_perm reps gps.2).append ih).trans (List.Perm.of_eq happend.symm)

/-! ## The values of a driver -/

theorem length_one_of_flatMap {f : String → List String} (hpos : ∀ t, 0 < (f t).length)
    {ts : List String} (h : (ts.flatMap f).length = ts.length) :
    ∀ t ∈ ts, (f t).length = 1 := by
  have hle : ∀ ts : List String, ts.length ≤ (ts.flatMap f).length := by
    intro ts
    induction ts with
    | nil => exact Nat.zero_le _
    | cons t ts ih =>
      have ht := hpos t
      rw [List.flatMap_cons, List.length_append, List.length_cons]
      omega
  induction ts with
  | nil => exact fun t ht => absurd ht List.not_mem_nil
  | cons t ts ih =>
    have ht := hpos t
    have hts := hle ts
    rw [List.flatMap_cons, List.length_append, List.length_cons] at h
    intro u hu
    rcases List.mem_cons.mp hu with rfl | hu
    · omega
    · exact ih (by omega) u hu

/-- The driver reads the text as one value, as it is. -/
def Whole (axis : Name) (t : String) : Prop :=
  ',' ∉ t.toList ∧ (axis = instanceAxis → strip t = t ∧ t ≠ "")

theorem split_of_not_mem {t : String} (h : ',' ∉ t.toList) : split t = [t] := by
  rw [split, List.splitOn_eq_singleton h, List.map_singleton, String.ofList_toList]

theorem length_split_pos (t : String) : 0 < (split t).length :=
  List.length_pos_iff.mpr (split_ne_nil t)

theorem not_mem_of_length_split {t : String} (h : (split t).length = 1) : ',' ∉ t.toList := by
  intro hmem
  obtain ⟨l, r, he⟩ := List.append_of_mem hmem
  rw [split, he, List.length_map, List.splitOn_append_cons_self, List.length_append] at h
  have hl := List.length_pos_iff.mpr (List.splitOn_ne_nil ',' l)
  have hr := List.length_pos_iff.mpr (List.splitOn_ne_nil ',' r)
  omega

theorem not_mem_of_mem_splitOn {a : Char} {l m : List Char} (h : m ∈ l.splitOn a) : a ∉ m := by
  induction l generalizing m with
  | nil =>
    obtain rfl : m = [] := by simpa using h
    exact List.not_mem_nil
  | cons c l ih =>
    rw [List.splitOn_cons_eq_if_modifyHead] at h
    split at h
    · rcases List.mem_cons.mp h with rfl | h
      · exact List.not_mem_nil
      · exact ih h
    · rename_i hc
      cases hl : l.splitOn a with
      | nil => exact absurd hl (List.splitOn_ne_nil a l)
      | cons m' rest =>
        rw [hl, List.modifyHead_cons] at h
        rw [hl] at ih
        rcases List.mem_cons.mp h with rfl | h
        · intro ha
          rcases List.mem_cons.mp ha with rfl | ha
          · exact hc (beq_self_eq_true _)
          · exact ih List.mem_cons_self ha
        · exact ih (List.mem_cons_of_mem _ h)

theorem not_mem_of_mem_split {t raw : String} (h : t ∈ split raw) : ',' ∉ t.toList := by
  obtain ⟨l, hl, rfl⟩ := List.mem_map.mp h
  rw [String.toList_ofList]
  exact not_mem_of_mem_splitOn hl

theorem strip_subset (t : String) : (strip t).toList ⊆ t.toList := by
  intro c hc
  rw [strip, String.toList_ofList, List.mem_reverse] at hc
  have hc := List.mem_reverse.mp ((List.dropWhile_sublist _).mem hc)
  exact (List.dropWhile_sublist _).mem hc

theorem strip_eq (t : String) :
    strip t = String.ofList ((t.toList.dropWhile isSpace).rdropWhile isSpace) := rfl

theorem strip_strip (t : String) : strip (strip t) = strip t := by
  -- the front of the text stays as it is when its end is stripped
  have hfront : ((t.toList.dropWhile isSpace).rdropWhile isSpace).dropWhile isSpace =
      (t.toList.dropWhile isSpace).rdropWhile isSpace := by
    have hprefix := List.rdropWhile_prefix isSpace (l := t.toList.dropWhile isSpace)
    refine List.dropWhile_eq_self_iff.mpr fun hpos hspace => ?_
    rw [List.IsPrefix.getElem hprefix hpos] at hspace
    exact List.dropWhile_get_zero_not _ _ (hpos.trans_le hprefix.length_le) hspace
  rw [strip_eq (strip t), strip_eq t, String.toList_ofList, hfront, List.rdropWhile_idempotent]

/-- The one value of a text that is read whole. -/
def reading (x : File) (t : String) : Option Value :=
  if x.axis = instanceAxis then some (.str t)
  else (x.bench.knobs.find? (·.name = x.axis)).bind fun knob => knob.parser t

theorem valueOf_eq (x : File) (p : Dict) : valueOf x p = reading x (x.axisValue p).text := rfl

/-- Texts that are read whole are read one by one. -/
theorem values_of_whole {ts : List String} {raw : String} {vs : List Value}
    (hraw : split raw = ts.flatMap split) (hwhole : ∀ t ∈ ts, Whole x.axis t)
    (hvs : x.bench.values x.axis raw = some vs) : ts.map (reading x) = vs.map some := by
  have hts : split raw = ts := by
    rw [hraw, List.flatMap_congr fun t ht => split_of_not_mem (hwhole t ht).1,
      List.flatMap_singleton']
  unfold Bench.values at hvs
  rw [hts] at hvs
  split at hvs
  · rename_i haxis
    have hstrip : ts.map strip = ts :=
      (List.map_congr_left fun t ht => ((hwhole t ht).2 haxis).1).trans (List.map_id _)
    have hne : ts.filter (· ≠ "") = ts :=
      List.filter_eq_self.mpr fun t ht => by simpa using ((hwhole t ht).2 haxis).2
    obtain rfl := Option.some_inj.mp hvs
    rw [hstrip, hne, List.map_map]
    exact List.map_congr_left fun t _ => by rw [reading, if_pos haxis, Function.comp_apply]
  · rename_i haxis
    cases hknob : x.bench.knobs.find? (·.name = x.axis) with
    | none =>
      rw [hknob] at hvs
      cases hvs
    | some knob =>
      rw [hknob] at hvs
      rw [← mapM_eq_some_iff.mp hvs]
      exact List.map_congr_left fun t _ => by rw [reading, if_neg haxis, hknob, Option.bind_some]

/-- As many values as texts, with every text's own among them, leave no text to take apart. -/
theorem whole_of_values {ts : List String} {raw : String} {vs : List Value}
    (hraw : split raw = ts.flatMap split) (hvs : x.bench.values x.axis raw = some vs)
    (hlength : vs.length = ts.length) (hmem : ∀ t ∈ ts, ∃ v ∈ vs, reading x t = some v) :
    ∀ t ∈ ts, Whole x.axis t := by
  intro t ht
  unfold Bench.values at hvs
  split at hvs
  · rename_i haxis
    obtain rfl := Option.some_inj.mp hvs
    obtain ⟨v, hv, hreading⟩ := hmem t ht
    rw [reading, if_pos haxis] at hreading
    obtain rfl := Option.some_inj.mp hreading
    obtain ⟨u, hu, he⟩ := List.mem_map.mp hv
    obtain rfl : u = t := by simpa using he
    obtain ⟨hu, hne⟩ := List.mem_filter.mp hu
    obtain ⟨w, hw, rfl⟩ := List.mem_map.mp hu
    exact ⟨fun hcomma => not_mem_of_mem_split hw (strip_subset w hcomma),
      fun _ => ⟨strip_strip w, by simpa using hne⟩⟩
  · rename_i haxis
    cases hknob : x.bench.knobs.find? (·.name = x.axis) with
    | none =>
      rw [hknob] at hvs
      cases hvs
    | some knob =>
      rw [hknob] at hvs
      have hparts := length_of_mapM hvs
      rw [hlength, hraw] at hparts
      exact ⟨not_mem_of_length_split (length_one_of_flatMap length_split_pos hparts.symm t ht),
        fun h => absurd h haxis⟩

/-! ## The runs of one driver -/

theorem alone_of_reads {g p : Dict} {reps : Nat} {s : Sweep} (hsame : x.SameKnobs g p)
    (hs : Sweep.parse x.bench (x.argv reps g) = some s) :
    alone x p = (reading x (x.axisValue p).text).map fun v =>
      { s with values := [v], reps := 1 } := by
  have hparsed := Sweep.parsed_of_parse hs
  -- the point has the knobs of the group, and the driver took those
  have hknown : ¬ ∃ kv ∈ (x.argv 1 p).held, kv.1 ∉ x.bench.knobs.map Knob.name := by
    intro hunknown
    obtain ⟨kv, hkv, hne⟩ := hunknown
    have hheld : ((x.argv reps g).held.lookup kv.1).isSome = true := by
      have hlookup : (x.argv reps g).held.lookup kv.1 = (x.argv 1 p).held.lookup kv.1 := by
        rw [lookup_held, lookup_held]
        by_cases hk : kv.1 = x.axis
        · simp [hk]
        · rw [hsame kv.1 hk]
      rw [hlookup]
      exact List.lookup_isSome_iff.mpr ⟨kv, hkv, beq_self_eq_true _⟩
    obtain ⟨kv', hkv', he⟩ := List.lookup_isSome_iff.mp hheld
    unfold Sweep.parse at hs
    rw [if_pos (Or.inr ⟨kv', hkv', by rwa [← beq_iff_eq.mp he]⟩)] at hs
    cases hs
  have hbase : x.bench.base (x.argv 1 p).held = some s.base := by
    rw [← base_congr hsame reps 1]
    exact hparsed.base
  rw [alone, if_neg hknown]
  split
  · rename_i v base hv hb
    obtain rfl : base = s.base := Option.some_inj.mp (hb.symm.trans hbase)
    rw [valueOf_eq] at hv
    rw [hv, Option.map_some]
    have hinst : x.instanceOf p = s.inst := (instanceOf_congr hsame).symm.trans hparsed.inst.symm
    cases s
    cases hparsed.axis
    cases hparsed.keepGoing
    cases hparsed.interleave
    rw [hinst]
  · rename_i hnone
    cases hv : reading x (x.axisValue p).text with
    | none => rfl
    | some v => exact absurd hbase (hnone v s.base hv)

section Drivers

variable {y : Stored} {tails : Tails} {g p : Dict} {ps : List Dict} {reps : Nat} {s : Sweep}

theorem intended_eq (hsame : y.SameKnobs g p)
    (hs : Sweep.parse y.bench (y.argv reps g) = some s) (r : Nat) :
    y.intended tails (p, r) = (y.environ tails p).bind fun env =>
      (reading y.toFile (y.axisValue p).text).map fun v => ⟨s.run v r, env⟩ := by
  rw [intended, alone_of_reads hsame hs]
  cases y.environ tails p with
  | none => rfl
  | some env =>
    cases reading y.toFile (y.axisValue p).text with
    | none => rfl
    | some v => rfl

/-- A driver that interleaves, or has one value, goes rep by rep. -/
theorem plan_eq (h : s.interleave = true ∨ s.values.length = 1) :
    s.plan = ((List.range s.reps).map (· + 1)).flatMap fun r => s.values.map fun v => s.run v r := by
  unfold Sweep.plan
  split
  · rfl
  · rename_i hinter
    obtain ⟨v, hv⟩ := List.length_eq_one_iff.mp (h.resolve_left hinter)
    rw [hv, List.flatMap_singleton]
    exact List.map_eq_flatMap

theorem length_plan : s.plan.length = s.reps * s.values.length := by
  unfold Sweep.plan
  split
  · simp [List.length_flatMap, Function.comp_def]
  · simp [List.length_flatMap, Nat.mul_comm]

/-- What a point asks for its runs to be made as they should. -/
structure Faithful (y : Stored) (tails : Tails) (reps : Nat) (points : List Dict) (p : Dict) :
    Prop where
  /-- The driver reads the axis value as one, as it is. -/
  whole : Whole y.axis (y.axisValue p).text
  /-- The driver takes its arguments. -/
  taken : Sweep.parse y.bench (y.argv reps (tableOf y.toFile points p)) ≠ none
  /-- The templates make of the driver's table what they make of the point. -/
  alike : ∃ env, y.environ tails p = some env ∧
    y.environ tails (tableOf y.toFile points p) = some env

theorem performs_eq_some {runs : List Performed} (h : y.performs tails reps g = some runs) :
    ∃ env s, y.environ tails g = some env ∧ Sweep.parse y.bench (y.argv reps g) = some s ∧
      runs = s.plan.map fun run => ⟨run, env⟩ := by
  unfold performs at h
  cases henv : y.environ tails g with
  | none =>
    rw [henv] at h
    cases h
  | some env =>
    cases hs : Sweep.parse y.bench (y.argv reps g) with
    | none =>
      rw [henv, hs] at h
      cases h
    | some s =>
      rw [henv, hs] at h
      exact ⟨env, s, rfl, rfl, (Option.some_inj.mp h).symm⟩

theorem split_text (h : Serves y.toFile points g ps) :
    split (y.axisValue g).text = (ps.map fun p => (y.axisValue p).text).flatMap split := by
  have hne : ps.map y.axisValue ≠ [] := by simpa using h.nonempty
  rw [h.text, split_join hne, List.flatMap_map, List.flatMap_map]

theorem runs_of_faithful (h : Serves y.toFile points g ps)
    (hfaithful : ∀ p ∈ ps, y.Faithful tails reps points p) :
    ∃ runs, y.performs tails reps g = some runs ∧
      runs.map some = (rounds reps ps).map (y.intended tails) := by
  obtain ⟨p₀, hp₀⟩ := List.exists_mem_of_ne_nil _ h.nonempty
  obtain ⟨env, -, henv⟩ := (hfaithful p₀ hp₀).alike
  rw [h.table p₀ hp₀] at henv
  obtain ⟨s, hs⟩ := Option.ne_none_iff_exists'.mp (h.table p₀ hp₀ ▸ (hfaithful p₀ hp₀).taken)
  have hparsed := Sweep.parsed_of_parse hs
  have hvalues : (ps.map fun p => (y.axisValue p).text).map (reading y.toFile) =
      s.values.map some := by
    refine values_of_whole (split_text h) (fun t ht => ?_) hparsed.values
    obtain ⟨p, hp, rfl⟩ := List.mem_map.mp ht
    exact (hfaithful p hp).whole
  have hlength : s.values.length = ps.length := by
    simpa using (congrArg List.length hvalues).symm
  refine ⟨s.plan.map fun run => ⟨run, env⟩, by rw [performs, henv, hs]; rfl, ?_⟩
  -- rep by rep, the driver's values are the points' readings
  have hplan : s.interleave = true ∨ s.values.length = 1 := by
    rw [hparsed.interleave, hlength]
    exact h.alone
  rw [plan_eq hplan, hparsed.reps, rounds, List.map_map, List.map_flatMap, List.map_flatMap]
  refine List.flatMap_congr fun r _ => ?_
  rw [List.map_map, List.map_map]
  have hintended : ∀ p ∈ ps, y.intended tails (p, r) =
      (reading y.toFile (y.axisValue p).text).map fun v => (⟨s.run v r, env⟩ : Performed) := by
    intro p hp
    obtain ⟨env', henv', htable⟩ := (hfaithful p hp).alike
    rw [h.table p hp, henv] at htable
    obtain rfl := Option.some_inj.mp htable
    rw [intended_eq (h.same p hp) hs, henv', Option.bind_some]
  calc s.values.map (some ∘ (fun run => (⟨run, env⟩ : Performed)) ∘ fun v => s.run v r)
      = (s.values.map some).map (Option.map fun v => (⟨s.run v r, env⟩ : Performed)) := by
        rw [List.map_map]
        rfl
    _ = ps.map fun p => (reading y.toFile (y.axisValue p).text).map
          fun v => (⟨s.run v r, env⟩ : Performed) := by
        rw [← hvalues, List.map_map, List.map_map]
        rfl
    _ = ps.map (y.intended tails ∘ fun p => (p, r)) :=
        List.map_congr_left fun p hp => (hintended p hp).symm

theorem faithful_of_runs (h : Serves y.toFile points g ps) (hreps : 0 < reps)
    {runs : List Performed} (hruns : y.performs tails reps g = some runs)
    (heq : runs.map some = (rounds reps ps).map (y.intended tails)) :
    ∀ p ∈ ps, y.Faithful tails reps points p := by
  obtain ⟨env, s, henv, hs, rfl⟩ := performs_eq_some hruns
  have hparsed := Sweep.parsed_of_parse hs
  have hlength : s.values.length = ps.length := by
    have hcount := congrArg List.length heq
    rw [List.length_map, List.length_map, List.length_map, length_plan, hparsed.reps,
      length_rounds] at hcount
    exact Nat.eq_of_mul_eq_mul_left hreps hcount
  -- the first run of a point is one of the driver's
  have hfirst : ∀ p ∈ ps, y.environ tails p = some env ∧
      ∃ v ∈ s.values, reading y.toFile (y.axisValue p).text = some v := by
    intro p hp
    have hround : (p, 1) ∈ rounds reps ps :=
      List.mem_flatMap.mpr ⟨1, List.mem_map.mpr ⟨0, List.mem_range.mpr hreps, rfl⟩,
        List.mem_map_of_mem hp⟩
    have hmem : y.intended tails (p, 1) ∈ (s.plan.map fun run => ⟨run, env⟩).map some :=
      heq ▸ List.mem_map_of_mem hround
    obtain ⟨done, hdone, he⟩ := List.mem_map.mp hmem
    obtain ⟨run, hrun, rfl⟩ := List.mem_map.mp hdone
    rw [intended_eq (h.same p hp) hs] at he
    obtain ⟨env', henv', he⟩ := Option.bind_eq_some_iff.mp he.symm
    obtain ⟨v, hv, he⟩ := Option.map_eq_some_iff.mp he
    obtain ⟨v', hv', r, -, -, rfl⟩ := Sweep.mem_plan.mp hrun
    obtain ⟨hrun, rfl⟩ := Performed.mk.injEq .. ▸ he
    have hvalue : v = v' := congrArg Run.value hrun
    exact ⟨henv', v, hvalue ▸ hv', hv⟩
  intro p hp
  refine ⟨?_, ?_, env, (hfirst p hp).1, ?_⟩
  · refine whole_of_values (split_text h) hparsed.values (by rw [hlength, List.length_map])
      (fun t ht => ?_) _ (List.mem_map_of_mem hp)
    obtain ⟨q, hq, rfl⟩ := List.mem_map.mp ht
    exact (hfirst q hq).2
  · rw [h.table p hp, hs]
    exact Option.some_ne_none _
  · rw [h.table p hp, henv]

/-- **One driver's runs are those of its points exactly when each point asks for no more.** -/
theorem runs_eq_iff (h : Serves y.toFile points g ps) (hreps : 0 < reps) :
    (∃ runs, y.performs tails reps g = some runs ∧
      runs.map some = (rounds reps ps).map (y.intended tails)) ↔
      ∀ p ∈ ps, y.Faithful tails reps points p :=
  ⟨fun ⟨_, hruns, heq⟩ => faithful_of_runs h hreps hruns heq, runs_of_faithful h⟩

end Drivers

/-! ## The runs of all drivers -/

section Experiments

variable {y : Stored} {tails : Tails} {reps : Nat}

/-- Driver by driver: one that fails makes none of the runs that it is for. -/
theorem performed_eq_iff {groups : List (Dict × List Dict)}
    (hrounds : ∀ gps ∈ groups, rounds reps gps.2 ≠ []) :
    (y.performed tails reps (groups.map Prod.fst)).map (List.map some) =
        groups.map (fun gps => (rounds reps gps.2).map (y.intended tails)) ↔
      ∀ gps ∈ groups, ∃ runs, y.performs tails reps gps.1 = some runs ∧
        runs.map some = (rounds reps gps.2).map (y.intended tails) := by
  induction groups with
  | nil => simp [performed]
  | cons gps groups ih =>
    have hrest := ih fun gps' h => hrounds gps' (List.mem_cons_of_mem _ h)
    rw [List.map_cons, List.map_cons, performed, List.forall_mem_cons, ← hrest]
    cases hruns : y.performs tails reps gps.1 with
    | some runs => simp
    | none =>
      have hne := hrounds gps List.mem_cons_self
      simp [hne]

theorem performed_zero (gs : List Dict) :
    y.performed tails 0 gs = gs.map fun _ => [] := by
  induction gs with
  | nil => rfl
  | cons g gs ih =>
    rw [performed]
    cases hruns : y.performs tails 0 g with
    | none => rfl
    | some runs =>
      obtain ⟨env, s, -, hs, rfl⟩ := performs_eq_some hruns
      have hplan : s.plan = [] := List.length_eq_zero_iff.mp <| by
        rw [length_plan, (Sweep.parsed_of_parse hs).reps]
        exact Nat.zero_mul _
      simp [hplan, ih]

theorem exact_zero (o : Option (Name × String)) : y.Exact tails o 0 := by
  rw [Exact, performed_zero, tables_eq, schedule, List.map_map, List.map_map, List.map_map]
  rfl

end Experiments

/-! ## A note that names the point -/

/-- Two thread counts that one driver alternates, with a note that names them. -/
def noted : Stored :=
  { subject := "sf100-threads-http"
    stem := "miniosv"
    bench := threadBench
    axis := "threads"
    points := [[("threads", .int 64)], [("threads", .int 128)]]
    fixed := [("query", .int 9)]
    inst := "r6in.8xlarge"
    reps := 1
    keepGoing := true
    interleave := true
    axis_mem := by simp
    nodup := by simp
    env := [("BENCH_NOTE", .str "miniOSv, {threads} threads")] }

/-- Templates whose fields are names have no tails to fill. -/
def noTails : Tails := fun _ _ _ => none

end Experiment.Stored
