import MiniosvCtrl.Properties.Earned
import MiniosvCtrl.Properties.Sessions

/-!
# The order of an interleaved queue

The batches of an interleaved queue stand in the order of the comparison. While its children
succeed, a call runs what the calls before it have not, so the launches are in that order too.

* `Call.At` — the call of a place among the points and a rep
* `batches_pairwise` — the order of the batches
* `recorded_before` — what stands before a call that is due is recorded
* `in_turn` — a driver launches runs of its call's own point and rep
* `launched_once_in_order` — every point and rep is launched once, and in turn
* `launched_out_of_turn` — two points that share their axis value
-/

namespace Arms

open Infra Runner Experiment

variable {q : Setup} {N : Numerals} {s t : State q N} {ev : Event q N}

/-! ## The order of the calls -/

/-- The call is for the `n`-th point and rep `k`. -/
def Call.At (c : Call q) (k n : Nat) : Prop :=
  c.reps = k ∧ ∃ v, c.pass = .point v ∧ (q.arm c.arm).values[n]? = some v

/-- Rep by rep, and within a rep point by point. -/
def Earlier (k n k' n' : Nat) : Prop := k < k' ∨ k = k' ∧ n < n'

/-- The calls of `b` come before those of `b'`, and the pass that only plots comes last. -/
def Comes (b b' : List (Call q)) : Prop :=
  ∀ c ∈ b, ∀ c' ∈ b', c'.pass ≠ .plots →
    c.pass ≠ .plots ∧ ((q.arm c.arm).group = (q.arm c'.arm).group →
      ∀ k n k' n', c.At k n → c'.At k' n' → Earlier k n k' n')

/--
No two experiments write one CSV, and no two points of one share the text that `--only` looks for,
or a run.
-/
structure Setup.Told (q : Setup) : Prop where
  files : q.OwnFiles
  values : ∀ i, (q.arm i).values.Nodup
  runs : ∀ (i : q.Index) (n n' : Nat) p p' rep run, (q.arm i).file.points[n]? = some p →
    (q.arm i).file.points[n']? = some p' → (q.arm i).file.RunOf p rep run →
    (q.arm i).file.RunOf p' rep run → n = n'

theorem Call.At.unique (hq : q.Told) {c : Call q} {k n k' n' : Nat} (h : c.At k n)
    (h' : c.At k' n') : k = k' ∧ n = n' := by
  obtain ⟨hk, v, hv, hn⟩ := h
  obtain ⟨hk', v', hv', hn'⟩ := h'
  obtain rfl : v = v' := Pass.point.inj (hv.symm.trans hv')
  refine ⟨hk.symm.trans hk', ?_⟩
  have hlt : n < (q.arm c.arm).values.length := (List.getElem?_eq_some_iff.mp hn).1
  exact (List.getElem?_inj hlt (hq.values c.arm)).mp (hn.trans hn'.symm)

theorem at_of_mem_groupCalls {members : List q.Index} {k n : Nat} {c : Call q}
    (h : c ∈ members.filterMap (q.pointCall (k + 1) n)) :
    c.At (k + 1) n ∧ c.arm ∈ members ∧ k + 1 ≤ (q.arm c.arm).reps := by
  obtain ⟨m, hm, hc⟩ := List.mem_filterMap.mp h
  obtain ⟨hk, v, hv, rfl⟩ := Setup.pointCall_eq_some hc
  exact ⟨⟨rfl, v, rfl, hv⟩, hm, hk⟩

theorem Call.At.pass_ne {c : Call q} {k n : Nat} (h : c.At k n) : c.pass ≠ .plots := by
  obtain ⟨-, v, hv, -⟩ := h
  rw [hv]
  exact nofun

/-- Calls for an earlier place come before calls for a later one. -/
theorem comes_of_earlier (hq : q.Told) {members : List q.Index} {k n k' n' : Nat}
    (h : Earlier (k + 1) n (k' + 1) n') :
    Comes (members.filterMap (q.pointCall (k + 1) n))
      (members.filterMap (q.pointCall (k' + 1) n')) := by
  intro c hc c' hc' _
  have hat := (at_of_mem_groupCalls hc).1
  have hat' := (at_of_mem_groupCalls hc').1
  refine ⟨hat.pass_ne, fun _ j m j' m' hj hj' => ?_⟩
  obtain ⟨rfl, rfl⟩ := hat.unique hq hj
  obtain ⟨rfl, rfl⟩ := hat'.unique hq hj'
  exact h

theorem groupBatches_pairwise (hq : q.Told) (members : List q.Index) :
    (q.groupBatches members).Pairwise Comes := by
  rw [Setup.groupBatches, List.pairwise_flatMap]
  constructor
  · intro k _
    rw [List.pairwise_map]
    exact List.pairwise_lt_range.imp fun h => comes_of_earlier hq (Or.inr ⟨rfl, h⟩)
  · refine List.pairwise_lt_range.imp fun {k k'} h b hb b' hb' => ?_
    obtain ⟨n, -, rfl⟩ := List.mem_map.mp hb
    obtain ⟨n', -, rfl⟩ := List.mem_map.mp hb'
    exact comes_of_earlier hq (Or.inl (Nat.succ_lt_succ h))

theorem Setup.groups_nodup (q : Setup) : q.groups.Nodup :=
  (List.mergeSort_perm _ _).nodup_iff.mpr (List.nodup_dedup _)

theorem group_of_mem_groupBatches {g : Nat} {b : List (Call q)}
    (hb : b ∈ q.groupBatches (q.members g)) {c : Call q} (hc : c ∈ b) :
    (q.arm c.arm).group = g ∧ c.pass ≠ .plots := by
  obtain ⟨k, -, n, -, rfl⟩ := Setup.mem_groupBatches.mp hb
  obtain ⟨hat, hmem, -⟩ := at_of_mem_groupCalls hc
  exact ⟨by simpa using (List.mem_filter.mp hmem).2, hat.pass_ne⟩

/-- **The batches of an interleaved queue stand in the order of the comparison.** -/
theorem batches_pairwise (hq : q.Told) (hinter : q.interleave = true) :
    q.batches.Pairwise Comes := by
  rw [Setup.batches, if_pos hinter, List.pairwise_append, List.pairwise_flatMap]
  refine ⟨⟨fun g _ => groupBatches_pairwise hq _, ?_⟩, ?_, ?_⟩
  · refine q.groups_nodup.imp fun {g g'} hne b hb b' hb' c hc c' hc' _ => ?_
    obtain ⟨rfl, hpass⟩ := group_of_mem_groupBatches hb hc
    obtain ⟨rfl, -⟩ := group_of_mem_groupBatches hb' hc'
    exact ⟨hpass, fun heq => absurd heq hne⟩
  · rw [List.pairwise_map]
    refine List.pairwise_of_forall fun i j c hc c' hc' hpass => ?_
    obtain rfl := List.mem_singleton.mp hc'
    exact absurd rfl hpass
  · intro b _ b' hb' c _ c' hc' hpass
    obtain ⟨i, -, rfl⟩ := List.mem_map.mp hb'
    obtain rfl := List.mem_singleton.mp hc'
    exact absurd rfl hpass

/-- The calls of one batch are all for one place, or only plot. -/
theorem same_place (hinter : q.interleave = true) {b : List (Call q)}
    (hb : b ∈ q.batches) :
    (∀ c ∈ b, c.pass = .plots ∧ c.reps = (q.arm c.arm).reps) ∨
      ∃ k n, ∀ c ∈ b, c.At k n ∧ k ≤ (q.arm c.arm).reps := by
  rw [Setup.batches, if_pos hinter] at hb
  rcases List.mem_append.mp hb with hb | hb
  · obtain ⟨g, -, hb⟩ := List.mem_flatMap.mp hb
    obtain ⟨k, -, n, -, rfl⟩ := Setup.mem_groupBatches.mp hb
    refine Or.inr ⟨k + 1, n, fun c hc => ?_⟩
    obtain ⟨hat, -, hk⟩ := at_of_mem_groupCalls hc
    exact ⟨hat, hk⟩
  · obtain ⟨i, -, rfl⟩ := List.mem_map.mp hb
    refine Or.inl fun c hc => ?_
    obtain rfl := List.mem_singleton.mp hc
    exact ⟨rfl, rfl⟩

/-! ## Where a queue stands -/

/-- The calls due are of the batch before those to come. -/
def OrderInv (s : State q N) : Prop :=
  ∃ b, s.due ⊆ b ∧ (b :: s.batches <:+ q.batches ∨ s.due = [] ∧ s.batches <:+ q.batches)

theorem orderInv_init (q : Setup) (files : String × String → Option (Csv N)) :
    OrderInv (State.init q files) :=
  ⟨[], List.Subset.refl _, Or.inr ⟨rfl, List.suffix_rfl⟩⟩

theorem OrderInv.suffix (h : OrderInv s) : s.batches <:+ q.batches := by
  obtain ⟨b, -, h | ⟨-, h⟩⟩ := h
  · exact (List.suffix_cons b s.batches).trans h
  · exact h

theorem OrderInv.mono (h : OrderInv s) (hdue : t.due = s.due) (hbatches : t.batches = s.batches) :
    OrderInv t := by
  obtain ⟨b, hb, h⟩ := h
  exact ⟨b, hdue ▸ hb, by rwa [hdue, hbatches]⟩

theorem step_orderInv (hunbroken : Unbroken s) (hev : ev.Succeeds) (h : OrderInv s)
    (hstep : Step q N s ev t) : OrderInv t := by
  cases hstep with
  | @begin b rest hbatches _ _ _ =>
    exact ⟨b, List.filter_subset_self b, Or.inl (hbatches ▸ h.suffix)⟩
  | close _ _ _ =>
    refine ⟨[], List.Subset.refl _, Or.inr ⟨rfl, ?_⟩⟩
    show (if s.batchVerdict.isSome = true then [] else s.batches) <:+ q.batches
    rw [hunbroken.batchVerdict]
    exact h.suffix
  | enter _ _ _ => exact h.mono rfl rfl
  | spawn _ _ _ => exact h.mono rfl rfl
  | drive _ _ => exact h.mono rfl rfl
  | skip _ _ _ => exact h.mono rfl rfl
  | record _ _ _ => exact h.mono rfl rfl
  | leave _ _ => exact h.mono rfl rfl
  | succeed _ _ => exact h.mono rfl rfl
  | finish _ _ _ _ _ => exact h.mono rfl rfl
  | stop | expire | turnAway _ _ | fail _ | refuse _ | credentials _ | kill _ _ => exact hev.elim

/-- What holds in every state of a clean queue. -/
structure CleanInv (s : State q N) : Prop where
  calls : CallsInv s
  files : FilesInv s
  child : ChildInv s
  unbroken : Unbroken s
  plan : PlanInv s
  sessions : SessionInv s
  order : OrderInv s
  returned : OverInv s
  owes : ∀ i, ∀ p ∈ (q.arm i).file.points, ∀ rep, 1 ≤ rep → rep ≤ (q.arm i).reps → Owed s i p rep
  nodup : ∀ i, (s.held i).Nodup

theorem cleanInv_init (q : Setup) : CleanInv (State.init q fun _ => none : State q N) where
  calls := callsInv_init q _
  files := filesInv_init q _
  child := childInv_init q _
  unbroken := unbroken_init q _
  plan := planInv_init q _
  sessions := sessionInv_init q
  order := orderInv_init q _
  returned := nofun
  owes := by
    intro i p hp rep hpos hle
    obtain ⟨b, hb, c, hc, harm, hcovers⟩ := Setup.exists_call i hp hpos hle
    exact Or.inr ⟨c, Or.inr (Or.inr ⟨b, hb, hc⟩), harm, hcovers⟩
  nodup := fun _ => List.nodup_nil

/-- A record adds its run to what its own arm's CSV holds, and nothing else does. -/
theorem held_step (hout : q.OwnFiles) (hfiles : FilesInv s) (hstep : Step q N s ev t)
    (i : q.Index) : t.held i = s.held i ++
      ((launches [ev]).filter fun x => x.1 = i).map Prod.snd := by
  have hsame : t.files = s.files → launches [ev] = [] →
      t.held i = s.held i ++ ((launches [ev]).filter fun x => x.1 = i).map Prod.snd := by
    intro hf hl
    rw [State.held, State.held, State.csv, State.csv, hf, hl]
    simp
  cases hstep with
  | @record j c argvs p run boot valid hj _ _ =>
    by_cases hij : j = i
    · subst hij
      show (((s.setFile _ _).csv j).elim [] Csv.holds).map Prod.fst = _
      rw [csv_setFile_same rfl, hfiles j p (driver_of_live hj)]
      show (p.holds ++ [(run, boot)]).map Prod.fst = _
      simp [launches]
    · show (((s.setFile _ _).csv i).elim [] Csv.holds).map Prod.fst = _
      rw [csv_setFile_other (hout i j (Ne.symm hij))]
      simp [launches, hij, State.held]
  | turnAway _ _ => exact hsame (files_returnEarly _ _ _) rfl
  | credentials _ => exact hsame (files_returnEarly _ _ _) rfl
  | kill _ _ => exact hsame (files_returnEarly _ _ _) rfl
  | stop | expire | begin _ _ _ _ | enter _ _ _ | spawn _ _ _ | drive _ _ | skip _ _ _
  | leave _ _ | succeed _ _ | fail _ | refuse _ | close _ _ _ | finish _ _ _ _ _ =>
    exact hsame rfl rfl

/-- A driver launches no run that its CSV holds. -/
theorem not_held_of_launched (hfiles : FilesInv s) (hsessions : SessionInv s) {i : q.Index}
    {run : Run} {boot : Boot N} {valid : Bool} (hstep : Step q N s (.record i run boot valid) t) :
    run ∉ s.held i := by
  intro hmem
  cases hstep with
  | @record _ c argvs p _ _ _ hi hhead hnew =>
    rw [hsessions.done_of_held hfiles (driver_of_live hi) hmem] at hnew
    cases hnew

theorem step_cleanInv (hq : q.Told) (hblank : q.NotBlank) (h : CleanInv s) (hclean : Clean s ev)
    (hstep : Step q N s ev t) : CleanInv t := by
  have hsmooth := hclean.smooth h.calls h.files h.plan h.sessions hstep
  exact
    { calls := step_callsInv h.calls hstep
      files := step_filesInv hq.files.apart h.calls h.files hstep
      child := step_childInv hq.files.apart h.calls h.files h.child (h.unbroken.careful hsmooth)
        hstep
      unbroken := step_unbroken h.unbroken hclean.1 hstep
      plan := step_planInv h.calls h.plan hstep
      sessions := step_sessionInv hq.files h.calls h.plan h.sessions hclean hstep
      order := step_orderInv h.unbroken hclean.1 h.order hstep
      returned := step_overInv h.returned hstep
      owes := fun i p hp rep hpos hle =>
        owed_step hblank h.calls h.files h.child hstep (h.owes i p hp rep hpos hle)
          fun c hlost _ hcovers =>
            absurd hcovers (h.unbroken.not_covers_of_lost hclean.1 hlost p rep)
      nodup := by
        intro i
        rw [held_step hq.files h.files hstep, List.nodup_append]
        cases ev with
        | record j run boot valid =>
          -- what is launched is not held yet
          by_cases hij : j = i
          · subst hij
            refine ⟨h.nodup j, by simp [launches], fun r hr r' hr' => ?_⟩
            obtain rfl : r' = run := by simpa [launches] using hr'
            exact fun heq => not_held_of_launched h.files h.sessions hstep (heq ▸ hr)
          · exact ⟨h.nodup i, by simp [launches, hij], fun _ _ _ hr' => by
              simp [launches, hij] at hr'⟩
        | stop | expire | begin | enter _ | turnAway _ _ | spawn _ | drive _ _ | skip _ _ | leave _
        | succeed _ | fail _ | refuse _ | credentials _ | kill _ _ | close | finish =>
          exact ⟨h.nodup i, List.nodup_nil, nofun⟩ }

theorem run_cleanInv (hq : q.Told) (hblank : q.NotBlank) {l : List (Event q N)}
    (h : Infra.Run (Guarded (Step q N) Clean) (.init q fun _ => none) l s) :
    CleanInv s ∧ ∀ i, s.held i = ((launches l).filter fun x => x.1 = i).map Prod.snd := by
  induction h with
  | nil => exact ⟨cleanInv_init q, fun _ => rfl⟩
  | snoc _ hstep ih =>
    obtain ⟨hclean, hstep⟩ := hstep
    obtain ⟨hinv, hheld⟩ := ih
    refine ⟨step_cleanInv hq hblank hinv hclean hstep, fun i => ?_⟩
    rw [held_step hq.files hinv.files hstep, hheld, launches_append, List.filter_append,
      List.map_append]

/-! ## What is launched, and when -/

/-- No call that is to come is for an earlier place than one that is due. -/
theorem OrderInv.not_earlier (hq : q.Told) (hinter : q.interleave = true) (hcalls : CallsInv s)
    (h : OrderInv s) {c c' : Call q} (hc : c ∈ s.due) (hout : Out s c')
    (hpass : c'.pass ≠ .plots) :
    c.pass ≠ .plots ∧ ((q.arm c.arm).group = (q.arm c'.arm).group →
      ∀ k n k' n', c.At k n → c'.At k' n' → ¬ Earlier k' n' k n) := by
  obtain ⟨b, hb, hsuffix | ⟨hnil, -⟩⟩ := h
  · have hbatch : b ∈ q.batches := hsuffix.subset List.mem_cons_self
    have hlater : c' ∈ b ∨ ∃ b' ∈ s.batches, c' ∈ b' := by
      rcases hout with ⟨a, ha⟩ | hp | hb'
      · exact Or.inl (hb (hcalls.live ha).2.1)
      · exact Or.inl (hb (hcalls.pending.subset hp))
      · exact Or.inr hb'
    rcases hlater with hmem | ⟨b', hb', hmem⟩
    · rcases same_place hinter hbatch with hplots | ⟨k₀, n₀, hplace⟩
      · exact absurd (hplots c' hmem).1 hpass
      · refine ⟨(hplace c (hb hc)).1.pass_ne, fun _ k n k' n' hat hat' => ?_⟩
        obtain ⟨rfl, rfl⟩ := (hplace c (hb hc)).1.unique hq hat
        obtain ⟨rfl, rfl⟩ := (hplace c' hmem).1.unique hq hat'
        unfold Earlier
        omega
    · have hpairs := (batches_pairwise hq hinter).sublist hsuffix.sublist
      obtain ⟨hne, horder⟩ := (List.pairwise_cons.mp hpairs).1 b' hb' c (hb hc) c' hmem hpass
      refine ⟨hne, fun hgroup k n k' n' hat hat' => ?_⟩
      have hlt := horder hgroup k n k' n' hat hat'
      unfold Earlier at hlt ⊢
      omega
  · rw [hnil] at hc
    exact absurd hc List.not_mem_nil

/-- In an interleaved queue a call that covers a point's rep is for its place. -/
theorem at_of_covers (hinter : q.interleave = true) {b : List (Call q)} (hb : b ∈ q.batches)
    {c : Call q} (hc : c ∈ b) {p : Dict} {rep n : Nat} (hcovers : c.Covers p rep)
    (hn : (q.arm c.arm).file.points[n]? = some p) : c.At rep n := by
  obtain ⟨hp, hpass⟩ := hcovers
  rcases same_place hinter hb with hplots | ⟨k₀, n₀, hplace⟩
  · rw [(hplots c hc).1] at hpass
    exact hpass.elim
  · obtain ⟨-, v, hv, -⟩ := (hplace c hc).1
    rw [hv] at hpass
    refine ⟨hpass.2.symm, v, hv, ?_⟩
    rw [Call.only, hv] at hp
    obtain ⟨hmem, hshown⟩ := List.mem_filter.mp hp
    rw [Arm.values, List.getElem?_map, hn, Option.map_some, ← shown_axis hmem]
    simpa using hshown

/-- **What stands before a call that is due is recorded.** -/
theorem CleanInv.recorded_before (hq : q.Told) (hinter : q.interleave = true) (h : CleanInv s)
    {c : Call q} (hc : c ∈ s.due) {j : q.Index} {p : Dict} {n rep : Nat}
    (hgroup : (q.arm c.arm).group = (q.arm j).group)
    (hn : (q.arm j).file.points[n]? = some p) (hpos : 1 ≤ rep) (hle : rep ≤ (q.arm j).reps)
    (hbefore : c.pass = .plots ∨ ∃ k' n', c.At k' n' ∧ Earlier rep n k' n') :
    Recorded s j p rep := by
  rcases h.owes j p (List.mem_of_getElem? hn) rep hpos hle with hrec | ⟨c', hout, rfl, hcovers⟩
  · exact hrec
  · exfalso
    obtain ⟨b, hb, hmem⟩ := exists_batch_of_out h.calls hout
    have hat := at_of_covers hinter hb hmem hcovers hn
    obtain ⟨hpass, hnot⟩ := h.order.not_earlier hq hinter h.calls hc hout hat.pass_ne
    rcases hbefore with hplots | ⟨k', n', hat', hlt⟩
    · exact hpass hplots
    · exact hnot hgroup k' n' rep n hat' hat hlt

/-- **A driver launches runs of the point and rep that its call is for.** -/
theorem CleanInv.in_turn (hq : q.Told) (hinter : q.interleave = true) (h : CleanInv s)
    {i : q.Index} {run : Run} {boot : Boot N} {valid : Bool}
    (hstep : Step q N s (.record i run boot valid) t) :
    ∃ c ∈ s.due, c.arm = i ∧ ∃ n p, c.At run.rep n ∧ (q.arm i).file.points[n]? = some p ∧
      1 ≤ run.rep ∧ run.rep ≤ (q.arm i).reps ∧ (q.arm i).file.RunOf p run.rep run := by
  have hnot := not_held_of_launched h.files h.sessions hstep
  cases hstep with
  | @record _ c argvs pr _ _ _ hi hhead hnew =>
    obtain ⟨rfl, hdue, -⟩ := h.calls.live hi
    obtain ⟨⟨hpos, hle, p, hp, hrun⟩, -⟩ := (h.plan _ _ _ hi).2 pr rfl run
      (List.mem_of_mem_head? hhead)
    obtain ⟨n, hn⟩ := List.mem_iff_getElem?.mp (File.mem_points_of_only hp)
    obtain ⟨b, hb, hc⟩ := h.calls.due c hdue
    -- a run that stands before the call would be held
    have hturn : ∀ hle' : run.rep ≤ (q.arm c.arm).reps,
        ¬ (c.pass = .plots ∨ ∃ k' n', c.At k' n' ∧ Earlier run.rep n k' n') := fun hle' hbefore =>
      hnot ((h.recorded_before hq hinter hdue rfl hn hpos hle' hbefore).2 run hrun)
    rcases same_place hinter hb with hplots | ⟨k, m, hplace⟩
    · obtain ⟨hpass, hreps⟩ := hplots c hc
      exact absurd (Or.inl hpass) (hturn (hreps ▸ hle))
    · obtain ⟨hat, hk⟩ := hplace c hc
      obtain ⟨rfl, v, hv, hm⟩ := hat
      have hvn : (q.arm c.arm).values[n]? = some v := by
        rw [Call.only, hv] at hp
        obtain ⟨hmem, hshown⟩ := List.mem_filter.mp hp
        rw [Arm.values, List.getElem?_map, hn, Option.map_some, ← shown_axis hmem]
        simpa using hshown
      have hat : c.At c.reps n := ⟨rfl, v, hv, hvn⟩
      have hrep : run.rep = c.reps := by
        by_contra hne
        exact hturn (hle.trans hk) (Or.inr ⟨c.reps, n, hat, Or.inl (by omega)⟩)
      exact ⟨c, hdue, rfl, n, p, hrep ▸ hat, hn, hpos, hle.trans hk, hrun⟩

/-- Every point and rep of the group that stands before the run's is launched before it. -/
def InTurn (q : Setup) (launched : List (q.Index × Run)) (i : q.Index) (run : Run) (n : Nat) :
    Prop :=
  ∀ (j : q.Index) (m rep : Nat) (p : Dict), (q.arm i).group = (q.arm j).group →
    (q.arm j).file.points[m]? = some p → 1 ≤ rep → rep ≤ (q.arm j).reps →
    Earlier rep m run.rep n → ∀ r, (q.arm j).file.RunOf p rep r → (j, r) ∈ launched

theorem mem_launched {launched : List (q.Index × Run)} {i : q.Index} {run : Run} :
    run ∈ (launched.filter fun x => x.1 = i).map Prod.snd ↔ (i, run) ∈ launched := by
  constructor
  · intro h
    obtain ⟨x, hx, rfl⟩ := List.mem_map.mp h
    obtain ⟨hmem, hi⟩ := List.mem_filter.mp hx
    obtain rfl : x.1 = i := by simpa using hi
    exact hmem
  · exact fun h => List.mem_map.mpr ⟨(i, run), List.mem_filter.mpr ⟨h, by simp⟩, rfl⟩

theorem count_launched (launched : List (q.Index × Run)) (i : q.Index) (run : Run) :
    launched.count (i, run) = ((launched.filter fun x => x.1 = i).map Prod.snd).count run := by
  induction launched with
  | nil => rfl
  | cons x launched ih =>
    obtain ⟨j, r⟩ := x
    by_cases hj : j = i
    · subst hj
      rw [List.filter_cons_of_pos (by simp), List.map_cons, List.count_cons, List.count_cons, ih]
      simp
    · rw [List.filter_cons_of_neg (by simpa using hj), ← ih, List.count_cons_of_ne]
      simp [hj]

/--
**An interleaved queue whose children succeed launches every point and rep of every experiment
once, and rep by rep, point by point within a group: as long as no two points of an experiment
share a text for `--only` or a run, and every recorded run can be told from every other.**
-/
theorem launched_once_in_order (hinter : q.interleave = true) (hq : q.Told) (hblank : q.NotBlank)
    {l : List (Event q N)} (h : Infra.Run (Guarded (Step q N) Clean) (.init q fun _ => none) l s) :
    (s.returned = true → ∀ i, ∀ p ∈ (q.arm i).file.points, ∀ rep, 1 ≤ rep → rep ≤ (q.arm i).reps →
      (∃ run, (q.arm i).file.RunOf p rep run) ∧
        ∀ run, (q.arm i).file.RunOf p rep run → (launches l).count (i, run) = 1) ∧
    ∀ l₁ l₂ i run, launches l = l₁ ++ (i, run) :: l₂ →
      (∃ p ∈ (q.arm i).file.points, 1 ≤ run.rep ∧ run.rep ≤ (q.arm i).reps ∧
        (q.arm i).file.RunOf p run.rep run) ∧
      ∀ n p, (q.arm i).file.points[n]? = some p → (q.arm i).file.RunOf p run.rep run →
        InTurn q l₁ i run n := by
  constructor
  · intro hover i p hp rep hpos hle
    obtain ⟨hinv, hheld⟩ := run_cleanInv hq hblank h
    obtain ⟨hbatches, -, hpending, hidle⟩ := hinv.returned hover
    -- nothing is out any more that could still owe the run
    have hrec : Recorded s i p rep := by
      rcases hinv.owes i p hp rep hpos hle with hrec | ⟨c, hout, -, -⟩
      · exact hrec
      · exfalso
        rcases hout with ⟨a, ha⟩ | hc | ⟨b, hb, -⟩
        · rw [hidle c.arm] at ha
          cases ha
        · rw [hpending] at hc
          exact absurd hc List.not_mem_nil
        · rw [hbatches] at hb
          exact absurd hb List.not_mem_nil
    refine ⟨hrec.1, fun run hrun => ?_⟩
    rw [count_launched, ← hheld]
    exact List.count_eq_one_of_mem (hinv.nodup i) (hrec.2 run hrun)
  · induction h with
    | nil =>
      intro l₁ l₂ i run hl
      exact absurd hl.symm (by simp [launches])
    | @snoc l s ev t hrun hstep ih =>
      obtain ⟨hinv, hheld⟩ := run_cleanInv hq hblank hrun
      intro l₁ l₂ i run hl
      rw [launches_append] at hl
      obtain ⟨-, hstep⟩ := hstep
      cases ev with
      | record j r boot valid =>
        -- the launch is the last one, or stands in the run before this step
        rcases List.eq_nil_or_concat l₂ with rfl | ⟨l₃, x, rfl⟩
        · obtain ⟨rfl, hlast⟩ := List.append_inj' hl rfl
          obtain ⟨rfl, rfl⟩ := Prod.mk.inj
            (List.singleton_inj.mp (show [(j, r)] = [(i, run)] from hlast))
          obtain ⟨c, hc, rfl, n, p, hat, hn, hpos, hle, hrunOf⟩ := hinv.in_turn hq hinter hstep
          refine ⟨⟨p, List.mem_of_getElem? hn, hpos, hle, hrunOf⟩, fun n' p' hn' hrunOf' => ?_⟩
          obtain rfl := hq.runs _ n n' p p' _ _ hn hn' hrunOf hrunOf'
          intro k m rep p₀ hgroup hm hpos₀ hle₀ hlt r hr
          have hrec := hinv.recorded_before hq hinter hc hgroup hm hpos₀ hle₀
            (Or.inr ⟨_, _, hat, hlt⟩)
          rw [← mem_launched, ← hheld]
          exact hrec.2 r hr
        · have hsplit : launches l ++ [(j, r)] = l₁ ++ (i, run) :: l₃ ++ [x] :=
            hl.trans (by simp)
          exact ih l₁ l₃ i run (List.append_inj' hsplit rfl).1
      | stop | expire | begin | enter _ | turnAway _ _ | spawn _ | drive _ _ | skip _ _ | leave _
      | succeed _ | fail _ | refuse _ | credentials _ | kill _ _ | close | finish =>
        exact ih l₁ l₂ i run ((List.append_nil _).symm.trans hl)

/-! ## A queue of one experiment, and one of two -/

theorem clean_of_plain (ev : Event q N) (h : ev.Plain) : Clean s ev := by
  cases ev with
  | begin | enter _ | spawn _ | drive _ _ | leave _ | succeed _ | close | finish =>
    exact ⟨trivial, nofun⟩
  | stop | expire | turnAway _ _ | skip _ _ | record _ _ _ _ | fail _ | refuse _ | credentials _
  | kill _ _ => exact h.elim

theorem clean_skip (i : q.Index) (run : Run) : Clean s (.skip i run) := ⟨trivial, nofun⟩

/-- The first rep's record keeps its texts, and resembles no other run. -/
theorem clean_firstRun {reps : Nat} {interleave : Bool}
    {s : State (soloQueue reps interleave) Numerals.whole} (hcsv : s.csv solo = none)
    (hdriver : s.driver solo = some (Process.start (pointSweep "r6in.8xlarge" 1) none)) :
    Clean s (.record solo firstRun oneRow true) := by
  let df : Frame Numerals.whole := Frame.empty _
  have hkept : Kept (record df firstRun oneRow) firstRun oneRow :=
    ⟨fun _ => .missing, List.mem_cons_self, by decide⟩
  have hfound : Found (record df firstRun oneRow) firstRun :=
    ⟨by decide, by decide⟩
  refine ⟨rfl, fun i run boot valid hev => ?_⟩
  cases hev
  refine ⟨?_, distinct_onePoint _⟩
  rw [State.session, hcsv, hdriver]
  exact ⟨hkept, hfound, fun rb hrb => absurd hrb List.not_mem_nil⟩

/-- One experiment and one rep, to its end: the run is launched once. -/
theorem launched_once_in_order_solo :
    ∃ (l : List (Event (soloQueue 1 true) Numerals.whole)) (s : State _ _),
      Infra.Run (Guarded (Step _ _) Clean) (.init _ fun _ => none) l s ∧ s.returned = true ∧
      launches l = [(solo, firstRun)] ∧
      ∀ run, (threadFile [[]]).RunOf [("threads", .int 64)] 1 run →
        (launches l).count (solo, run) = 1 := by
  have hbatches : (soloQueue 1 true).batches = [[⟨solo, 1, .point "64"⟩], [⟨solo, 1, .plots⟩]] := by
    decide +kernel
  obtain ⟨l₁, s₁, h₁, hl₁, hs₁, hstatus, hcsv⟩ := exists_firstCall Clean hbatches (Or.inr rfl)
    (fun _ => clean_of_plain) fun _ => clean_firstRun
  -- the pass that only plots finds the run
  have hmain : (threadFile [[]]).main none 1 =
      some [(threadFile [[]]).argv 1 [("threads", .int 64)]] := by decide
  obtain ⟨l₂, s₂, h₂, hl₂, hs₂, -, -⟩ := hs₁.drive (fun _ => clean_of_plain)
    (by simp [State.isDue, hstatus]) hmain
    (show Sweep.parse threadBench _ = some (pointSweep "r6in.8xlarge" 1) by decide)
  rw [hcsv] at hs₂
  obtain ⟨s₃, h₃, hs₃, -, -⟩ := hs₂.skip Clean (show _ = some firstRun from rfl)
    (by decide) (clean_skip _ _)
  obtain ⟨l₄, s₄, h₄, hl₄, hs₄, -, -⟩ := hs₃.close (fun _ => clean_of_plain) rfl ⟨_, hmain⟩
  obtain ⟨s₅, h₅, hover, -, -⟩ := hs₄.finish (clean_of_plain _ trivial)
  have hrun := (((h₁.append h₂).append h₃).append h₄).append h₅
  refine ⟨_, s₅, hrun, hover, ?_, fun run hr => ?_⟩
  · simp only [launches_append, hl₁, hl₂, hl₄]
    rfl
  · have htold : (soloQueue 1 true).Told :=
      { files := fun i j hij => absurd ((eq_solo i).trans (eq_solo j).symm) hij
        values := fun i => eq_solo i ▸ List.nodup_singleton _
        runs := by
          intro i n n' p p' rep run hn hn' _ _
          rw [eq_solo i] at hn hn'
          have hlt := (List.getElem?_eq_some_iff.mp hn).1
          have hlt' := (List.getElem?_eq_some_iff.mp hn').1
          have hlen : ((soloQueue 1 true).arm solo).file.points.length = 1 := rfl
          omega }
    have hblank : (soloQueue 1 true).NotBlank := by
      intro i haxis
      rw [eq_solo i] at haxis
      exact absurd haxis (by decide)
    exact ((launched_once_in_order rfl htold hblank hrun).1 hover solo _ List.mem_cons_self 1
      (le_refl 1) (le_refl 1)).2 run hr

/-- Two points that share the number of threads, and differ in their query. -/
def queryPoints : File := threadFile [[], [("query", .int 13)]]

/-- The same points in two experiments. -/
def pairQueue : Setup :=
  { arms := [⟨queryPoints, 0, 1⟩, ⟨{ queryPoints with stem := "linux" }, 0, 1⟩]
    interleave := true
    concurrent := false
    interleave_of_concurrent := nofun }

def querySweep (query : Int) : Sweep :=
  { pointSweep "r6in.8xlarge" 1 with
    base := [("query", .int query), ("threads", .int 0)]
    nodup := by simp
    not_main := by simp [mainColumns] }

theorem runOf_queryPoints :
    queryPoints.RunOf [("threads", .int 64)] 1 ((querySweep 9).run (.int 64) 1) ∧
      queryPoints.RunOf [("threads", .int 64), ("query", .int 13)] 1
        ((querySweep 13).run (.int 64) 1) :=
  ⟨⟨querySweep 9, ⟨rfl, by decide, by decide, rfl⟩, _, List.mem_singleton.mpr rfl,
    rfl⟩, ⟨querySweep 13, ⟨rfl, by decide, by decide, rfl⟩, _,
    List.mem_singleton.mpr rfl, rfl⟩⟩

/--
The first call, for the first point of the first experiment, runs its second point too: before the
first point of the second experiment.
-/
theorem launched_out_of_turn :
    ∃ (l : List (Event pairQueue Numerals.whole)) (s : State _ _) (i j : pairQueue.Index)
      (run₁ run₂ : Run),
      Infra.Run (Guarded (Step _ _) fun _ ev => ev.Succeeds) (.init _ fun _ => none) l s ∧
      launches l = [(i, run₁), (i, run₂)] ∧ i ≠ j ∧
      (∃ p, (pairQueue.arm i).file.points[1]? = some p ∧ (pairQueue.arm i).file.RunOf p 1 run₂) ∧
      ∃ p run, (pairQueue.arm j).file.points[0]? = some p ∧ (pairQueue.arm j).file.RunOf p 1 run ∧
        (j, run) ∉ launches l := by
  let i : pairQueue.Index := ⟨0, by decide⟩
  let j : pairQueue.Index := ⟨1, by decide⟩
  have hbatches : pairQueue.batches = [⟨i, 1, .point "64"⟩, ⟨j, 1, .point "64"⟩] ::
      [[⟨i, 1, .point "64"⟩, ⟨j, 1, .point "64"⟩], [⟨i, 1, .plots⟩], [⟨j, 1, .plots⟩]] := by
    decide +kernel
  have hmain : queryPoints.main (some ("threads", "64")) 1 =
      some [queryPoints.argv 1 [("threads", .int 64)],
        queryPoints.argv 1 [("threads", .int 64), ("query", .int 13)]] := by decide
  have hok : ∀ (s : State pairQueue Numerals.whole) (ev : Event _ _), ev.Plain → ev.Succeeds :=
    fun s ev h => (clean_of_plain (s := s) ev h).1
  have hstart : Between (State.init (N := Numerals.whole) pairQueue fun _ => none) _ :=
    hbatches ▸ between_init _ _
  have hdue : ∀ c ∈ [(⟨i, 1, .point "64"⟩ : Call pairQueue), ⟨j, 1, .point "64"⟩],
      (State.init (N := Numerals.whole) pairQueue fun _ => none).isDue c = true := by
    intro c hc
    rcases List.mem_cons.mp hc with rfl | hc
    · rfl
    · obtain rfl := List.mem_singleton.mp hc
      rfl
  obtain ⟨l₁, s₁, h₁, hl₁, hs₁, hfiles, -⟩ := hstart.drive hok hdue hmain
    (show Sweep.parse threadBench _ = some (querySweep 9) by decide)
  obtain ⟨s₂, h₂, hs₂, hcsv, -⟩ := hs₁.record (fun _ ev => ev.Succeeds) oneRow
    (show _ = some ((querySweep 9).run (.int 64) 1) from rfl) rfl rfl
  obtain ⟨l₃, s₃, h₃, hl₃, hs₃, -, -⟩ := hs₂.next hok rfl
    (show Sweep.parse threadBench _ = some (querySweep 13) by decide)
  rw [hcsv] at hs₃
  obtain ⟨s₄, h₄, -, -, -⟩ := hs₃.record (fun _ ev => ev.Succeeds) oneRow
    (show _ = some ((querySweep 13).run (.int 64) 1) from rfl) (by decide) rfl
  have hl : launches (l₁ ++ [.record i ((querySweep 9).run (.int 64) 1) oneRow true] ++ l₃ ++
      [.record i ((querySweep 13).run (.int 64) 1) oneRow true]) =
        [(i, (querySweep 9).run (.int 64) 1), (i, (querySweep 13).run (.int 64) 1)] := by
    simp only [launches_append, hl₁, hl₃]
    rfl
  refine ⟨_, s₄, i, j, _, _, ((h₁.append h₂).append h₃).append h₄, hl, by decide,
    ⟨_, rfl, runOf_queryPoints.2⟩, _, _, rfl, runOf_queryPoints.1, ?_⟩
  rw [hl]
  decide

end Arms
