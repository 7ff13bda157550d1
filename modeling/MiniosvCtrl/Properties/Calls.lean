import MiniosvCtrl.Properties.Points
import MiniosvCtrl.Queue.Main

/-!
# The calls of a queue

* `Setup.exists_call` — every point and rep of an arm is covered by a call
* `CallsInv` — which calls may be running and which may be still to come
* `FilesInv` — a driver's frame holds what its CSV holds
* `held_mono` — no CSV loses a run
-/

namespace Arms

open Infra Runner Experiment

variable {q : Setup} {N : Numerals}

/-! ## The calls that are planned -/

/-- The call runs the point to this rep, which no earlier call of a queue does. -/
def Call.Covers (c : Call q) (p : Dict) (rep : Nat) : Prop :=
  p ∈ (q.arm c.arm).file.only c.only ∧
    match c.pass with
    | .whole => 1 ≤ rep ∧ rep ≤ c.reps
    | .point _ => 1 ≤ rep ∧ rep = c.reps
    | .plots => False

theorem Call.Covers.pos {c : Call q} {p : Dict} {rep : Nat} (h : c.Covers p rep) : 1 ≤ rep := by
  obtain ⟨-, h⟩ := h
  split at h
  · exact h.1
  · exact h.1
  · exact h.elim

theorem Call.Covers.le {c : Call q} {p : Dict} {rep : Nat} (h : c.Covers p rep) :
    rep ≤ c.reps := by
  obtain ⟨-, h⟩ := h
  split at h
  · exact h.2
  · exact Nat.le_of_eq h.2
  · exact h.elim

namespace Setup

theorem pointCall_eq_some {k i : Nat} {m : q.Index} {c : Call q} (h : q.pointCall k i m = some c) :
    k ≤ (q.arm m).reps ∧ ∃ v, (q.arm m).values[i]? = some v ∧ c = ⟨m, k, .point v⟩ := by
  unfold pointCall at h
  split at h
  · rename_i hk
    obtain ⟨v, hv, rfl⟩ := Option.map_eq_some_iff.mp h
    exact ⟨hk, v, hv, rfl⟩
  · cases h

theorem mem_groupBatches {members : List q.Index} {b : List (Call q)} :
    b ∈ q.groupBatches members ↔ ∃ k < q.most members, ∃ i < q.longest members,
      b = members.filterMap (q.pointCall (k + 1) i) := by
  rw [groupBatches, List.mem_flatMap]
  constructor
  · rintro ⟨k, hk, hb⟩
    obtain ⟨i, hi, rfl⟩ := List.mem_map.mp hb
    exact ⟨k, List.mem_range.mp hk, i, List.mem_range.mp hi, rfl⟩
  · rintro ⟨k, hk, i, hi, rfl⟩
    exact ⟨k, List.mem_range.mpr hk, List.mem_map_of_mem (List.mem_range.mpr hi)⟩

/-- A batch is of one arm, or of one group's arms. -/
theorem mem_batches {b : List (Call q)} (h : b ∈ q.batches) :
    (∃ i, b = [q.whole i]) ∨ (∃ i, b = [q.plots i]) ∨
      ∃ g ∈ q.groups, b ∈ q.groupBatches (q.members g) := by
  unfold batches at h
  split at h
  · rcases List.mem_append.mp h with h | h
    · obtain ⟨g, hg, hb⟩ := List.mem_flatMap.mp h
      exact Or.inr (Or.inr ⟨g, hg, hb⟩)
    · obtain ⟨i, -, rfl⟩ := List.mem_map.mp h
      exact Or.inr (Or.inl ⟨i, rfl⟩)
  · obtain ⟨i, -, rfl⟩ := List.mem_map.mp h
    exact Or.inl ⟨i, rfl⟩

theorem filterMap_arms (k i : Nat) (members : List q.Index) :
    ((members.filterMap (q.pointCall k i)).map Call.arm).Sublist members := by
  induction members with
  | nil => exact List.Sublist.slnil
  | cons m members ih =>
    cases hc : q.pointCall k i m with
    | none =>
      rw [List.filterMap_cons_none hc]
      exact ih.cons m
    | some c =>
      obtain ⟨-, v, -, rfl⟩ := pointCall_eq_some hc
      rw [List.filterMap_cons_some hc, List.map_cons]
      exact ih.cons_cons m

/-- A batch has a call for each arm at most. -/
theorem nodup_arms {b : List (Call q)} (h : b ∈ q.batches) : (b.map Call.arm).Nodup := by
  rcases mem_batches h with ⟨i, rfl⟩ | ⟨i, rfl⟩ | ⟨g, -, hb⟩
  · exact List.nodup_singleton _
  · exact List.nodup_singleton _
  · obtain ⟨k, -, i, -, rfl⟩ := mem_groupBatches.mp hb
    exact ((List.nodup_finRange _).filter _).sublist (filterMap_arms _ _ _)

/-- The arms of a batch are of one group. -/
theorem group_eq {b : List (Call q)} (h : b ∈ q.batches) {c c' : Call q} (hc : c ∈ b)
    (hc' : c' ∈ b) : (q.arm c.arm).group = (q.arm c'.arm).group := by
  rcases mem_batches h with ⟨i, rfl⟩ | ⟨i, rfl⟩ | ⟨g, -, hb⟩
  · rw [List.mem_singleton.mp hc, List.mem_singleton.mp hc']
  · rw [List.mem_singleton.mp hc, List.mem_singleton.mp hc']
  · obtain ⟨k, -, i, -, rfl⟩ := mem_groupBatches.mp hb
    have hgroup : ∀ c ∈ (q.members g).filterMap (q.pointCall (k + 1) i),
        (q.arm c.arm).group = g := by
      intro c hc
      have hmem := (filterMap_arms (k + 1) i (q.members g)).subset (List.mem_map_of_mem hc)
      simpa using (List.mem_filter.mp hmem).2
    rw [hgroup c hc, hgroup c' hc']

theorem le_most {members : List q.Index} {m : q.Index} (hm : m ∈ members) :
    (q.arm m).reps ≤ q.most members := by
  induction members with
  | nil => exact absurd hm List.not_mem_nil
  | cons m' members ih =>
    rcases List.mem_cons.mp hm with rfl | hm
    · exact Nat.le_max_left _ _
    · exact Nat.le_trans (ih hm) (Nat.le_max_right _ _)

theorem le_longest {members : List q.Index} {m : q.Index} (hm : m ∈ members) :
    (q.arm m).values.length ≤ q.longest members := by
  induction members with
  | nil => exact absurd hm List.not_mem_nil
  | cons m' members ih =>
    rcases List.mem_cons.mp hm with rfl | hm
    · exact Nat.le_max_left _ _
    · exact Nat.le_trans (ih hm) (Nat.le_max_right _ _)

theorem mem_groups (i : q.Index) : (q.arm i).group ∈ q.groups :=
  List.mem_mergeSort.mpr (List.mem_dedup.mpr
    (List.mem_map_of_mem (List.get_mem q.arms i)))

theorem mem_members (i : q.Index) : i ∈ q.members (q.arm i).group :=
  List.mem_filter.mpr ⟨List.mem_finRange i, by simp⟩

end Setup

theorem shown_axis {x : File} {p : Dict} (hp : p ∈ x.points) :
    x.shown x.axis p = (x.axisValue p).text := by
  obtain ⟨kv, hkv, haxis⟩ := List.mem_map.mp (x.axis_mem p hp)
  have hsome : (p.lookup x.axis).isSome = true :=
    List.lookup_isSome_iff.mpr ⟨kv, hkv, by rw [haxis]; exact beq_self_eq_true _⟩
  obtain ⟨v, hv⟩ := Option.isSome_iff_exists.mp hsome
  rw [File.shown, File.axisValue, hv]
  rfl

/-- `--only` with its own value keeps a point. -/
theorem mem_only_self {x : File} {p : Dict} (hp : p ∈ x.points) :
    p ∈ x.only (some (x.axis, (x.axisValue p).text)) :=
  List.mem_filter.mpr ⟨hp, by simpa using shown_axis hp⟩

/-- **Every point and rep of an arm has a call.** -/
theorem Setup.exists_call (i : q.Index) {p : Dict} (hp : p ∈ (q.arm i).file.points) {rep : Nat}
    (hpos : 1 ≤ rep) (hle : rep ≤ (q.arm i).reps) :
    ∃ b ∈ q.batches, ∃ c ∈ b, c.arm = i ∧ c.Covers p rep := by
  unfold Setup.batches
  split
  · obtain ⟨j, hj, hget⟩ := List.mem_iff_getElem.mp hp
    have hvalue : (q.arm i).values[j]? = some ((q.arm i).file.axisValue p).text := by
      rw [Arm.values, List.getElem?_map, List.getElem?_eq_getElem hj, hget]
      rfl
    have hlen : j < (q.arm i).values.length := by
      rw [Arm.values, List.length_map]
      exact hj
    have hcall : q.pointCall (rep - 1 + 1) j i =
        some ⟨i, rep, .point ((q.arm i).file.axisValue p).text⟩ := by
      rw [show rep - 1 + 1 = rep by omega, Setup.pointCall, if_pos hle, hvalue]
      rfl
    have hmost := Setup.le_most (Setup.mem_members i)
    have hlongest := Setup.le_longest (Setup.mem_members i)
    refine ⟨_, List.mem_append_left _ (List.mem_flatMap.mpr ⟨_, Setup.mem_groups i,
      Setup.mem_groupBatches.mpr ⟨rep - 1, by omega, j, by omega, rfl⟩⟩), _,
      List.mem_filterMap.mpr ⟨i, Setup.mem_members i, hcall⟩, rfl, ?_⟩
    exact ⟨mem_only_self hp, hpos, rfl⟩
  · exact ⟨_, List.mem_map_of_mem (List.mem_finRange i), _, List.mem_cons_self, rfl, hp, hpos,
      hle⟩

/-! ## The calls that run, and those to come -/

variable {s t : State q N}

/-- What holds of the calls in every state of a queue. -/
structure CallsInv (s : State q N) : Prop where
  batches : ∀ b ∈ s.batches, b ∈ q.batches
  due : ∀ c ∈ s.due, ∃ b ∈ q.batches, c ∈ b
  nodup : (s.due.map Call.arm).Nodup
  group : ∀ c ∈ s.due, ∀ c' ∈ s.due, (q.arm c.arm).group = (q.arm c'.arm).group
  pending : s.pending.Sublist s.due
  live : ∀ {i c a}, s.live i = some (c, a) → c.arm = i ∧ c ∈ s.due ∧ c ∉ s.pending
  alone : q.concurrent = false → ∀ i j, s.live i ≠ none → s.live j ≠ none → i = j
  results : ∀ i, s.results i ≠ none → (∃ c ∈ s.due, c.arm = i) ∨ s.batches = []

theorem callsInv_init (q : Setup) (files : String × String → Option (Csv N)) :
    CallsInv (State.init q files) where
  batches := fun _ hb => hb
  due := fun _ hc => absurd hc List.not_mem_nil
  nodup := List.nodup_nil
  group := fun _ hc => absurd hc List.not_mem_nil
  pending := List.Sublist.slnil
  live := nofun
  alone := fun _ _ _ hi => absurd rfl hi
  results := fun _ hi => absurd rfl hi

namespace CallsInv

/-- Calls go on or return. -/
theorem mono (h : CallsInv s) (hbatches : t.batches = s.batches) (hdue : t.due = s.due)
    (hpending : t.pending.Sublist s.pending)
    (hlive : ∀ {i c a}, t.live i = some (c, a) → ∃ a', s.live i = some (c, a'))
    (hresults : ∀ i, t.results i ≠ none → s.results i ≠ none ∨ ∃ c ∈ s.due, c.arm = i) :
    CallsInv t where
  batches := hbatches ▸ h.batches
  due := hdue ▸ h.due
  nodup := hdue ▸ h.nodup
  group := hdue ▸ h.group
  pending := hdue ▸ hpending.trans h.pending
  live := by
    intro i c a hi
    obtain ⟨a', hi'⟩ := hlive hi
    obtain ⟨harm, hmem, hnot⟩ := h.live hi'
    exact ⟨harm, hdue ▸ hmem, fun hc => hnot (hpending.subset hc)⟩
  alone := by
    intro hq i j hi hj
    obtain ⟨⟨c, a⟩, hi'⟩ := Option.ne_none_iff_exists'.mp hi
    obtain ⟨⟨c', a'⟩, hj'⟩ := Option.ne_none_iff_exists'.mp hj
    obtain ⟨_, hsi⟩ := hlive hi'
    obtain ⟨_, hsj⟩ := hlive hj'
    exact h.alone hq i j (by rw [hsi]; simp) (by rw [hsj]; simp)
  results := by
    intro i hi
    rw [hdue, hbatches]
    rcases hresults i hi with hi | hi
    · exact h.results i hi
    · exact Or.inl hi

/-- No call of an arm whose call is running is still to come. -/
theorem arm_ne (h : CallsInv s) {i : q.Index} {c : Call q} {a : Attempt N}
    (hi : s.live i = some (c, a)) : ∀ c' ∈ s.pending, c'.arm ≠ i := by
  rintro c' hc' rfl
  obtain ⟨harm, hmem, hnot⟩ := h.live hi
  have heq : c' = c :=
    List.inj_on_of_nodup_map h.nodup (h.pending.subset hc') hmem harm.symm
  exact hnot (heq ▸ hc')

end CallsInv

theorem live_setLive {i : q.Index} {c : Call q} {a a' : Attempt N}
    (hi : s.live i = some (c, a')) {j : q.Index} {c' : Call q} {b : Attempt N}
    (hj : (s.setLive i c a).live j = some (c', b)) : ∃ b', s.live j = some (c', b') := by
  by_cases hij : j = i
  · subst hij
    have hc : some (c, a) = some (c', b) := by simpa [State.setLive] using hj
    obtain ⟨rfl, -⟩ := Prod.mk.inj (Option.some_inj.mp hc)
    exact ⟨a', hi⟩
  · exact ⟨b, by simpa [State.setLive, hij] using hj⟩

theorem live_clear {i j : q.Index} {c : Call q} {a : Attempt N}
    (hj : (s.clear i).live j = some (c, a)) : j ≠ i ∧ s.live j = some (c, a) := by
  by_cases hij : j = i
  · subst hij
    simp [State.clear] at hj
  · exact ⟨hij, by simpa [State.clear, hij] using hj⟩

theorem live_returnEarly {i j : q.Index} {c c' : Call q} {a : Attempt N} {v : Early}
    (hj : (s.returnEarly i c v).live j = some (c', a)) : j ≠ i ∧ s.live j = some (c', a) := by
  unfold State.returnEarly at hj
  split at hj
  · exact live_clear hj
  · exact live_clear hj

@[simp] theorem batches_returnEarly (i : q.Index) (c : Call q) (v : Early) :
    (s.returnEarly i c v).batches = s.batches := by
  unfold State.returnEarly
  split <;> rfl

@[simp] theorem due_returnEarly (i : q.Index) (c : Call q) (v : Early) :
    (s.returnEarly i c v).due = s.due := by
  unfold State.returnEarly
  split <;> rfl

@[simp] theorem files_returnEarly (i : q.Index) (c : Call q) (v : Early) :
    (s.returnEarly i c v).files = s.files := by
  unfold State.returnEarly
  split <;> rfl

@[simp] theorem status_returnEarly (i : q.Index) (c : Call q) (v : Early) :
    (s.returnEarly i c v).status = s.status := by
  unfold State.returnEarly
  split <;> rfl

theorem pending_returnEarly (i : q.Index) (c : Call q) (v : Early) :
    (s.returnEarly i c v).pending.Sublist s.pending := by
  unfold State.returnEarly
  split
  · exact List.Sublist.refl _
  · show (if q.concurrent then s.pending else []).Sublist s.pending
    split
    · exact List.Sublist.refl _
    · exact List.nil_sublist _

theorem results_returnEarly {i j : q.Index} {c : Call q} {v : Early}
    (hj : (s.returnEarly i c v).results j ≠ none) : s.results j ≠ none ∨ j = i := by
  unfold State.returnEarly at hj
  split at hj
  · exact Or.inl hj
  · by_cases hij : j = i
    · exact Or.inr hij
    · exact Or.inl (by simpa [hij] using hj)

theorem CallsInv.returnEarly (h : CallsInv s) {i : q.Index} {c : Call q} {a : Attempt N}
    (hi : s.live i = some (c, a)) (v : Early) : CallsInv (s.returnEarly i c v) := by
  refine h.mono (batches_returnEarly i c v) (due_returnEarly i c v) (pending_returnEarly i c v)
    (fun hj => ⟨_, (live_returnEarly hj).2⟩) fun j hj => ?_
  rcases results_returnEarly hj with hj | rfl
  · exact Or.inl hj
  · obtain ⟨harm, hmem, -⟩ := h.live hi
    exact Or.inr ⟨c, hmem, harm⟩

/-- The verdict of a batch is early if one of its calls was. -/
theorem isSome_batchVerdict {c : Call q} (hc : c ∈ s.due) (hr : s.results c.arm ≠ none) :
    s.batchVerdict.isSome = true := by
  have hkeep : ∀ (l : List (Call q)) (v : Option Early), v.isSome = true →
      (l.foldl (fun v c => (s.results c.arm).or v) v).isSome = true := by
    intro l
    induction l with
    | nil => exact fun _ hv => hv
    | cons c l ih => exact fun v hv => ih _ (by simp [hv])
  have hfold : ∀ (l : List (Call q)) (v : Option Early), c ∈ l →
      (l.foldl (fun v c => (s.results c.arm).or v) v).isSome = true := by
    intro l
    induction l with
    | nil => exact fun _ hmem => absurd hmem List.not_mem_nil
    | cons c' l ih =>
      intro v hmem
      rcases List.mem_cons.mp hmem with rfl | hmem
      · refine hkeep l _ ?_
        simp [Option.isSome_iff_ne_none.mpr hr]
      · exact ih _ hmem
  exact hfold s.due none hc

theorem step_callsInv {ev : Event q N} (h : CallsInv s) (hstep : Step q N s ev t) :
    CallsInv t := by
  cases hstep with
  | stop => exact h.mono rfl rfl (List.Sublist.refl _) (fun hi => ⟨_, hi⟩) fun _ hi => Or.inl hi
  | expire => exact h.mono rfl rfl (List.Sublist.refl _) (fun hi => ⟨_, hi⟩) fun _ hi => Or.inl hi
  | @begin b rest hbatches hdue hpending hidle =>
    -- the calls that are due are calls of the batch, and nothing runs yet
    have hb : b ∈ q.batches := h.batches b (hbatches ▸ List.mem_cons_self)
    exact
      { batches := fun b' hb' => h.batches b' (hbatches ▸ List.mem_cons_of_mem _ hb')
        due := fun c hc => ⟨b, hb, List.mem_of_mem_filter hc⟩
        nodup := (Setup.nodup_arms hb).sublist (List.filter_sublist.map Call.arm)
        group := fun c hc c' hc' =>
          Setup.group_eq hb (List.mem_of_mem_filter hc) (List.mem_of_mem_filter hc')
        pending := List.Sublist.refl _
        live := by
          intro i c a hi
          rw [show s.live i = none from hidle i] at hi
          cases hi
        alone := fun _ i _ hi => absurd (hidle i) hi
        results := fun _ hi => absurd rfl hi }
  | @enter c rest hpending hnone hfree =>
    have hsub : (c :: rest).Sublist s.due := hpending ▸ h.pending
    have hnodup : ((c :: rest).map Call.arm).Nodup := h.nodup.sublist (hsub.map Call.arm)
    have hnot : c ∉ rest := fun hc =>
      (List.nodup_cons.mp hnodup).1 (List.mem_map_of_mem hc)
    refine
      { batches := h.batches
        due := h.due
        nodup := h.nodup
        group := h.group
        pending := (List.sublist_cons_self c rest).trans hsub
        live := ?_
        alone := ?_
        results := h.results }
    · intro i c' a hi
      -- the call that enters has left `pending`, the others were in before
      by_cases hij : i = c.arm
      · subst hij
        have hc : some (c, Attempt.top) = some (c', a) := by simpa [State.setLive] using hi
        obtain ⟨rfl, -⟩ := Prod.mk.inj (Option.some_inj.mp hc)
        exact ⟨rfl, hsub.subset List.mem_cons_self, hnot⟩
      · have hi' : s.live i = some (c', a) := by simpa [State.setLive, hij] using hi
        obtain ⟨harm, hmem, hnot'⟩ := h.live hi'
        exact ⟨harm, hmem, fun hc => hnot' (hpending ▸ List.mem_cons_of_mem _ hc)⟩
    · intro hq i j hi hj
      rcases hfree with hconc | hidle
      · rw [hq] at hconc
        cases hconc
      · have honly : ∀ k, (s.setLive c.arm c .top).live k ≠ none → k = c.arm := by
          intro k hk
          by_contra hne
          exact hk (by simpa [State.setLive, hne] using hidle k)
        rw [honly i hi, honly j hj]
  | turnAway hi _ => exact h.returnEarly hi _
  | spawn hi _ _ =>
    exact h.mono rfl rfl (List.Sublist.refl _) (fun hj => live_setLive (s := s) hi hj)
      fun _ hj => Or.inl hj
  | drive hi _ =>
    exact h.mono rfl rfl (List.Sublist.refl _) (fun hj => live_setLive hi hj)
      fun _ hj => Or.inl hj
  | skip hi _ _ =>
    exact h.mono rfl rfl (List.Sublist.refl _) (fun hj => live_setLive hi hj)
      fun _ hj => Or.inl hj
  | record hi _ _ =>
    exact h.mono rfl rfl (List.Sublist.refl _) (fun hj => live_setLive (s := s) hi hj)
      fun _ hj => Or.inl hj
  | leave hi _ =>
    exact h.mono rfl rfl (List.Sublist.refl _) (fun hj => live_setLive hi hj)
      fun _ hj => Or.inl hj
  | succeed hi _ =>
    exact h.mono rfl rfl (List.Sublist.refl _) (fun hj => ⟨_, (live_clear (s := s) hj).2⟩)
      fun _ hj => Or.inl hj
  | fail hi =>
    exact h.mono rfl rfl (List.Sublist.refl _) (fun hj => ⟨_, (live_clear (s := s) hj).2⟩)
      fun _ hj => Or.inl hj
  | refuse hi =>
    exact h.mono rfl rfl (List.Sublist.refl _) (fun hj => live_setLive (s := s) hi hj)
      fun _ hj => Or.inl hj
  | @credentials i c argvs d hi =>
    have h' : CallsInv (s.setStatus i .credentialsExpired) :=
      h.mono rfl rfl (List.Sublist.refl _) (fun hj => ⟨_, hj⟩) fun _ hj => Or.inl hj
    exact h'.returnEarly hi _
  | kill hi _ => exact h.returnEarly hi _
  | close hdue hpending hidle =>
    exact
      { batches := fun b hb => h.batches b (by
          have hb' : b ∈ if s.batchVerdict.isSome = true then [] else s.batches := hb
          split at hb'
          · exact absurd hb' List.not_mem_nil
          · exact hb')
        due := fun _ hc => absurd hc List.not_mem_nil
        nodup := List.nodup_nil
        group := fun _ hc => absurd hc List.not_mem_nil
        pending := by
          show s.pending.Sublist []
          rw [hpending]
        live := by
          intro i c a hi
          rw [show s.live i = none from hidle i] at hi
          cases hi
        alone := fun _ i _ hi => absurd (hidle i) hi
        results := by
          intro i hi
          refine Or.inr ?_
          show (if s.batchVerdict.isSome = true then [] else s.batches) = []
          -- one early result is enough to drop the batches that are left
          rcases h.results i hi with ⟨c, hc, rfl⟩ | hnil
          · rw [if_pos (isSome_batchVerdict hc hi)]
          · rw [hnil, ite_self] }
  | finish _ _ _ _ _ =>
    exact h.mono rfl rfl (List.Sublist.refl _) (fun hi => ⟨_, hi⟩) fun _ hi => Or.inl hi

/-! ## What the CSVs hold -/

namespace State

/-- The runs that an arm's CSV holds a row of. -/
def held (s : State q N) (i : q.Index) : List Run :=
  ((s.csv i).elim [] Csv.holds).map Prod.fst

/-- The driver that an arm's call runs. -/
def driver (s : State q N) (i : q.Index) : Option (Process N) :=
  match s.live i with
  | some (_, .child _ d) => d
  | _ => none

end State

/-- No two experiments that run side by side write one CSV. -/
def Setup.Apart (q : Setup) : Prop :=
  q.concurrent = true → ∀ i j, i ≠ j → (q.arm i).group = (q.arm j).group →
    (q.arm i).file.out ≠ (q.arm j).file.out

/-- A driver's frame holds what its CSV holds. -/
def FilesInv (s : State q N) : Prop :=
  ∀ i p, s.driver i = some p → s.held i = p.holds.map Prod.fst

theorem driver_eq_some {i : q.Index} {p : Process N} (h : s.driver i = some p) :
    ∃ c argvs, s.live i = some (c, .child argvs (some p)) := by
  unfold State.driver at h
  split at h
  · rename_i c argvs d hlive
    exact ⟨c, argvs, h ▸ hlive⟩
  · cases h

theorem driver_of_live {i : q.Index} {c : Call q} {argvs : List Argv} {d : Option (Process N)}
    (h : s.live i = some (c, .child argvs d)) : s.driver i = d := by
  rw [State.driver, h]

theorem driver_setLive_self (i : q.Index) (c : Call q) (argvs : List Argv)
    (d : Option (Process N)) : (s.setLive i c (.child argvs d)).driver i = d := by
  simp [State.driver, State.setLive]

theorem driver_setLive_top (i : q.Index) (c : Call q) : (s.setLive i c .top).driver i = none := by
  simp [State.driver, State.setLive]

theorem driver_setLive_other {i j : q.Index} (h : j ≠ i) (c : Call q) (a : Attempt N) :
    (s.setLive i c a).driver j = s.driver j := by
  simp [State.driver, State.setLive, h]

theorem driver_of_cleared {i : q.Index} {p : Process N}
    (hlive : ∀ {j c a}, t.live j = some (c, a) → j ≠ i ∧ s.live j = some (c, a)) {j : q.Index}
    (h : t.driver j = some p) : s.driver j = some p := by
  obtain ⟨c, argvs, hj⟩ := driver_eq_some h
  exact driver_of_live (hlive hj).2

/-- Two calls run at the same time only if their arms write different CSVs. -/
theorem CallsInv.out_ne (h : CallsInv s) (hq : q.Apart) {i j : q.Index} (hij : i ≠ j)
    (hi : s.live i ≠ none) (hj : s.live j ≠ none) :
    (q.arm i).file.out ≠ (q.arm j).file.out := by
  obtain ⟨⟨c, a⟩, hi'⟩ := Option.ne_none_iff_exists'.mp hi
  obtain ⟨⟨c', a'⟩, hj'⟩ := Option.ne_none_iff_exists'.mp hj
  obtain ⟨rfl, hc, -⟩ := h.live hi'
  obtain ⟨rfl, hc', -⟩ := h.live hj'
  have hconc : q.concurrent = true := by
    rcases hq' : q.concurrent with _ | _
    · exact absurd (h.alone hq' _ _ hi hj) hij
    · rfl
  exact hq hconc _ _ hij (h.group c hc c' hc')

theorem csv_setFile_other {i j : q.Index} (h : (q.arm j).file.out ≠ (q.arm i).file.out)
    (c : Csv N) : (s.setFile (q.arm i).file.out c).csv j = s.csv j := by
  simp [State.setFile, State.csv, h]

theorem csv_setFile_same {i j : q.Index} (h : (q.arm j).file.out = (q.arm i).file.out)
    (c : Csv N) : (s.setFile (q.arm i).file.out c).csv j = some c := by
  simp [State.setFile, State.csv, h]

theorem filesInv_init (q : Setup) (files : String × String → Option (Csv N)) :
    FilesInv (State.init q files) := by
  intro i p hp
  cases hp

theorem FilesInv.mono (h : FilesInv s) (hfiles : t.files = s.files)
    (hdriver : ∀ i p, t.driver i = some p → s.driver i = some p ∨ s.held i = p.holds.map Prod.fst) :
    FilesInv t := by
  intro i p hp
  have hheld : t.held i = s.held i := by
    rw [State.held, State.held, State.csv, State.csv, hfiles]
  rw [hheld]
  rcases hdriver i p hp with hi | hi
  · exact h i p hi
  · exact hi

theorem FilesInv.setLive (h : FilesInv s) (hfiles : t.files = s.files) {i : q.Index} {c : Call q}
    {a : Attempt N} (hlive : t.live = (s.setLive i c a).live)
    (ha : ∀ p, (s.setLive i c a).driver i = some p → s.held i = p.holds.map Prod.fst) :
    FilesInv t := by
  refine h.mono hfiles fun j p hp => ?_
  have hp' : (s.setLive i c a).driver j = some p := by
    rw [← hp, State.driver, State.driver, hlive]
  by_cases hij : j = i
  · subst hij
    exact Or.inr (ha p hp')
  · rw [driver_setLive_other hij] at hp'
    exact Or.inl hp'

theorem step_filesInv {ev : Event q N} (hq : q.Apart) (hcalls : CallsInv s) (h : FilesInv s)
    (hstep : Step q N s ev t) : FilesInv t := by
  cases hstep with
  | stop => exact h
  | expire => exact h
  | begin _ _ _ _ => exact h
  | @enter c rest _ _ _ =>
    refine h.setLive (c := c) rfl rfl fun p hp => ?_
    rw [driver_setLive_top] at hp
    cases hp
  | turnAway _ _ =>
    exact h.mono (files_returnEarly _ _ _) fun j p hp =>
      Or.inl (driver_of_cleared (fun hj => live_returnEarly hj) hp)
  | spawn _ _ _ =>
    refine h.setLive rfl rfl fun p hp => ?_
    rw [driver_setLive_self] at hp
    cases hp
  | @drive i c a argvs sweep _ _ =>
    refine h.setLive rfl rfl fun p hp => ?_
    rw [driver_setLive_self] at hp
    obtain rfl := Option.some_inj.mp hp
    rfl
  | @skip i c argvs p run hi _ _ =>
    refine h.setLive rfl rfl fun p' hp' => ?_
    rw [driver_setLive_self] at hp'
    obtain rfl := Option.some_inj.mp hp'
    exact h i p (driver_of_live hi)
  | @record i c argvs p run boot valid hi _ _ =>
    intro j p' hp'
    -- the row is appended to both copies; another driver's file is another file
    by_cases hij : j = i
    · subst hij
      have hself : some (p.record run boot valid) = some p' :=
        (driver_setLive_self j c argvs _).symm.trans hp'
      obtain rfl := Option.some_inj.mp hself
      show (((s.setFile _ _).csv j).elim [] Csv.holds).map Prod.fst = _
      rw [csv_setFile_same rfl]
      rfl
    · have hj : s.driver j = some p' := (driver_setLive_other hij c _).symm.trans hp'
      obtain ⟨c', argvs', hj'⟩ := driver_eq_some hj
      have hne := hcalls.out_ne hq hij (by rw [hj']; simp) (by rw [hi]; simp)
      show (((s.setFile _ _).csv j).elim [] Csv.holds).map Prod.fst = _
      rw [csv_setFile_other hne]
      exact h j p' hj
  | leave _ _ =>
    refine h.setLive rfl rfl fun p hp => ?_
    rw [driver_setLive_self] at hp
    cases hp
  | succeed _ _ =>
    exact h.mono rfl fun j p hp => Or.inl (driver_of_cleared (fun hj => live_clear hj) hp)
  | fail _ =>
    exact h.mono rfl fun j p hp => Or.inl (driver_of_cleared (fun hj => live_clear hj) hp)
  | refuse _ =>
    refine h.setLive rfl rfl fun p hp => ?_
    rw [driver_setLive_top] at hp
    cases hp
  | @credentials i c argvs d _ =>
    exact h.mono (files_returnEarly _ _ _) fun j p hp =>
      Or.inl (driver_of_cleared (s := s.setStatus i .credentialsExpired)
        (fun hj => live_returnEarly hj) hp)
  | kill _ _ =>
    exact h.mono (files_returnEarly _ _ _) fun j p hp =>
      Or.inl (driver_of_cleared (fun hj => live_returnEarly hj) hp)
  | close _ _ _ => exact h
  | finish _ _ _ _ _ => exact h

/-- **No CSV loses a run.** -/
theorem held_mono {ev : Event q N} (hfiles : FilesInv s) (hstep : Step q N s ev t)
    (i : q.Index) : s.held i ⊆ t.held i := by
  have hsame : t.files = s.files → s.held i ⊆ t.held i := by
    intro h
    rw [State.held, State.held, State.csv, State.csv, h]
    exact List.Subset.refl _
  cases hstep with
  | @record j c argvs p run boot valid hj _ _ =>
    by_cases hout : (q.arm i).file.out = (q.arm j).file.out
    · have hheld : s.held i = p.holds.map Prod.fst := by
        rw [State.held, State.csv, hout]
        exact hfiles j p (driver_of_live hj)
      rw [hheld]
      show _ ⊆ (((s.setFile _ _).csv i).elim [] Csv.holds).map Prod.fst
      rw [csv_setFile_same hout]
      show _ ⊆ (p.holds ++ [(run, boot)]).map Prod.fst
      rw [List.map_append]
      exact List.subset_append_left _ _
    · show _ ⊆ (((s.setFile _ _).csv i).elim [] Csv.holds).map Prod.fst
      rw [csv_setFile_other hout]
      exact List.Subset.refl _
  | turnAway _ _ => exact hsame (files_returnEarly _ _ _)
  | credentials _ => exact hsame (files_returnEarly _ _ _)
  | kill _ _ => exact hsame (files_returnEarly _ _ _)
  | stop | expire | begin _ _ _ _ | enter _ _ _ | spawn _ _ _ | drive _ _ | skip _ _ _
  | leave _ _ | succeed _ _ | fail _ | refuse _ | close _ _ _ | finish _ _ _ _ _ =>
    exact hsame rfl

end Arms
