import MiniosvCtrl.Properties.ResumeSound
import MiniosvCtrl.Properties.Smooth

/-!
# When an experiment that is `done` has all its rows

* `Earned` — every point of an experiment has a recorded row for every rep
* `Hopeful` — what an arm that is `done` at the end has been all along
* `done_is_earned` — in a queue whose steps are careful, what is `done` at the end is earned
* `done_unearned` — an interleaved queue that expires between two reps
-/

namespace Arms

open Infra Runner Experiment

variable {q : Setup} {N : Numerals} {s t : State q N} {ev : Event q N}

/-! ## Which arms may be `done` at the end -/

/-- Every point of the arm has a recorded row for every rep. -/
def Earned (s : State q N) (i : q.Index) : Prop :=
  ∀ p ∈ (q.arm i).file.points, ∀ rep, 1 ≤ rep → rep ≤ (q.arm i).reps → Recorded s i p rep

/-- A call of this batch did not go on. -/
def EndsEarly (s : State q N) : Prop := ∃ i, s.results i ≠ none

/-- The arm is `done`, or a call of it may yet be. -/
def Hopeful (s : State q N) (i : q.Index) : Prop :=
  s.status i = .done ∨ s.live i ≠ none ∨ (∃ c ∈ s.pending, c.arm = i) ∨
    (s.status i ≠ .failed ∧ ¬ EndsEarly s ∧ ∃ b ∈ s.batches, ∃ c ∈ b, c.arm = i)

/-- A call for the whole experiment is running or still to come. -/
def WholeOut (s : State q N) (i : q.Index) : Prop := ∃ c, Out s c ∧ c.arm = i ∧ c.pass = .whole

theorem Hopeful.mono {i : q.Index} (h : Hopeful t i) (hstatus : t.status i = s.status i)
    (hlive : t.live i ≠ none → s.live i ≠ none) (hpending : t.pending ⊆ s.pending)
    (hbatches : t.batches ⊆ s.batches) (hearly : EndsEarly s → EndsEarly t) : Hopeful s i := by
  rcases h with hdone | hl | ⟨c, hc, harm⟩ | ⟨hfailed, hnot, b, hb, hc⟩
  · exact Or.inl (hstatus ▸ hdone)
  · exact Or.inr (Or.inl (hlive hl))
  · exact Or.inr (Or.inr (Or.inl ⟨c, hpending hc, harm⟩))
  · exact Or.inr (Or.inr (Or.inr ⟨hstatus ▸ hfailed, fun he => hnot (hearly he), b, hbatches hb,
      hc⟩))

theorem live_of_setLive {i j : q.Index} {c c₀ : Call q} {a a₀ : Attempt N}
    (hi : s.live i = some (c₀, a₀)) (h : (s.setLive i c a).live j ≠ none) : s.live j ≠ none := by
  by_cases hij : j = i
  · rw [hij, hi]
    simp
  · simpa [State.setLive, hij] using h

theorem live_of_clear {i j : q.Index} (h : (s.clear i).live j ≠ none) : s.live j ≠ none := by
  obtain ⟨⟨c, a⟩, hj⟩ := Option.ne_none_iff_exists'.mp h
  rw [(live_clear hj).2]
  simp

theorem endsEarly_returnEarly {i : q.Index} {c : Call q} {v : Early} (h : EndsEarly s) :
    EndsEarly (s.returnEarly i c v) := by
  unfold State.returnEarly
  split
  · exact h
  · exact ⟨i, by simp⟩

theorem Hopeful.of_returnEarly {i j : q.Index} {c : Call q} {v : Early}
    (h : Hopeful (s.returnEarly i c v) j) : Hopeful s j := by
  refine h.mono (by rw [status_returnEarly]) (fun hl => ?_) (pending_returnEarly i c v).subset
    (by rw [batches_returnEarly]; exact List.Subset.refl _) endsEarly_returnEarly
  obtain ⟨⟨c', a⟩, hj⟩ := Option.ne_none_iff_exists'.mp hl
  rw [(live_returnEarly hj).2]
  simp

/-- Nothing gives an arm new hope. -/
theorem hopeful_step (hcalls : CallsInv s) (hstep : Step q N s ev t) {j : q.Index}
    (h : Hopeful t j) : Hopeful s j ∨ WholeOut t j := by
  -- a step of the arm's own call, or one that leaves the arm's status
  have hown : ∀ {i : q.Index} {c : Call q} {a : Attempt N} {st : Status},
      s.live i = some (c, a) → t.status = (s.setStatus i st).status →
      (t.live j ≠ none → s.live j ≠ none) → t.pending ⊆ s.pending → t.batches = s.batches →
      (EndsEarly s → EndsEarly t) → Hopeful s j := by
    intro i c a st hi hstatus hlive hpending hbatches hearly
    by_cases hij : j = i
    · exact Or.inr (Or.inl (by rw [hij, hi]; simp))
    · refine h.mono ?_ hlive hpending (hbatches ▸ List.Subset.refl _) hearly
      rw [hstatus]
      simp [State.setStatus, hij]
  cases hstep with
  | stop => exact Or.inl h
  | expire => exact Or.inl h
  | @begin b rest hbatches hdue hpending hidle =>
    have hnot : ¬ EndsEarly s := by
      rintro ⟨i, hi⟩
      rcases hcalls.results i hi with ⟨c, hc, -⟩ | hnil
      · rw [hdue] at hc
        exact absurd hc List.not_mem_nil
      · rw [hbatches] at hnil
        cases hnil
    have hb : b ∈ s.batches := hbatches ▸ List.mem_cons_self
    rcases h with hdone | hl | ⟨c, hc, rfl⟩ | ⟨hfailed, -, b', hb', hc⟩
    · exact Or.inl (Or.inl hdone)
    · exact absurd (hidle j) hl
    · obtain ⟨hcb, hisDue⟩ := List.mem_filter.mp hc
      unfold State.isDue at hisDue
      split at hisDue
      · rename_i hpass
        exact Or.inr ⟨c, Or.inr (Or.inl hc), rfl, hpass⟩
      · have hfailed : s.status c.arm ≠ .failed := by simpa using hisDue
        exact Or.inl (Or.inr (Or.inr (Or.inr ⟨hfailed, hnot, b, hb, c, hcb, rfl⟩)))
      · exact Or.inl (Or.inl (by simpa using hisDue))
    · exact Or.inl (Or.inr (Or.inr (Or.inr ⟨hfailed, hnot, b',
        hbatches ▸ List.mem_cons_of_mem _ hb', hc⟩)))
  | @enter c rest hpending hnone _ =>
    by_cases hij : j = c.arm
    · exact Or.inl (Or.inr (Or.inr (Or.inl ⟨c, hpending ▸ List.mem_cons_self, hij.symm⟩)))
    · refine Or.inl (h.mono rfl (fun hl => ?_) ?_ (List.Subset.refl _) fun he => he)
      · simpa [State.setLive, hij] using hl
      · rw [hpending]
        exact List.subset_cons_self _ _
  | turnAway _ _ => exact Or.inl h.of_returnEarly
  | @spawn i c hi _ _ =>
    exact Or.inl (hown hi rfl (live_of_setLive (s := s) hi) (List.Subset.refl _) rfl fun he => he)
  | drive hi _ =>
    exact Or.inl (h.mono rfl (live_of_setLive hi) (List.Subset.refl _) (List.Subset.refl _)
      fun he => he)
  | skip hi _ _ =>
    exact Or.inl (h.mono rfl (live_of_setLive hi) (List.Subset.refl _) (List.Subset.refl _)
      fun he => he)
  | record hi _ _ =>
    exact Or.inl (h.mono rfl (live_of_setLive (s := s) hi) (List.Subset.refl _)
      (List.Subset.refl _) fun he => he)
  | leave hi _ =>
    exact Or.inl (h.mono rfl (live_of_setLive hi) (List.Subset.refl _) (List.Subset.refl _)
      fun he => he)
  | succeed hi _ =>
    exact Or.inl (hown hi rfl (live_of_clear (s := s)) (List.Subset.refl _) rfl fun he => he)
  | fail hi =>
    exact Or.inl (hown hi rfl (live_of_clear (s := s)) (List.Subset.refl _) rfl fun he => he)
  | refuse hi =>
    exact Or.inl (hown hi rfl (live_of_setLive (s := s) hi) (List.Subset.refl _) rfl fun he => he)
  | @credentials i c argvs d hi =>
    by_cases hij : j = i
    · exact Or.inl (Or.inr (Or.inl (by rw [hij, hi]; simp)))
    · refine Or.inl (Hopeful.mono (s := s) h.of_returnEarly ?_ (fun hl => hl)
        (List.Subset.refl _) (List.Subset.refl _) fun he => he)
      simp [State.setStatus, hij]
  | kill _ _ => exact Or.inl h.of_returnEarly
  | close _ _ _ =>
    refine Or.inl (h.mono rfl (fun hl => hl) (List.Subset.refl _) ?_ fun he => he)
    show (if s.batchVerdict.isSome = true then [] else s.batches) ⊆ s.batches
    split
    · exact List.nil_subset _
    · exact List.Subset.refl _
  | finish _ _ _ _ _ =>
    rcases h with hdone | hl | hp | ⟨hfailed, hnot, hb⟩
    · exact Or.inl (Or.inl ((Status.final_eq_iff (Or.inl rfl)).mp hdone))
    · exact Or.inl (Or.inr (Or.inl hl))
    · exact Or.inl (Or.inr (Or.inr (Or.inl hp)))
    · have hfailed' : s.status j ≠ .failed := fun hf =>
        hfailed ((Status.final_eq_iff (Or.inr rfl)).mpr hf)
      exact Or.inl (Or.inr (Or.inr (Or.inr ⟨hfailed', hnot, hb⟩)))

/-- After a call that did not go on, only an arm that is `done` or has another call has hope. -/
theorem done_of_returnEarly (hcalls : CallsInv s) {i : q.Index} {c₀ : Call q} {a : Attempt N}
    {v : Early} (hi : s.live i = some (c₀, a)) {c : Call q} (hplots : c.pass ≠ .plots)
    (hc : c = c₀ ∨ c₀.pass ≠ .plots ∧ q.concurrent = false ∧ c ∈ s.pending)
    (h : Hopeful (s.returnEarly i c₀ v) c.arm) : s.status c.arm = .done := by
  have hpass : c₀.pass ≠ .plots := by
    rcases hc with rfl | ⟨hne, -, -⟩
    · exact hplots
    · exact hne
  have hearly : EndsEarly (s.returnEarly i c₀ v) := by
    rw [State.returnEarly, if_neg hpass]
    exact ⟨i, by simp⟩
  rcases h with hdone | hl | ⟨c', hc', harm⟩ | ⟨-, hnot, -⟩
  · rwa [status_returnEarly] at hdone
  · exfalso
    obtain ⟨⟨c', a'⟩, hj⟩ := Option.ne_none_iff_exists'.mp hl
    obtain ⟨hne, hj'⟩ := live_returnEarly hj
    rcases hc with rfl | ⟨-, hseq, -⟩
    · exact hne (hcalls.live hi).1
    · exact hne (hcalls.alone hseq _ _ (by rw [hj']; simp) (by rw [hi]; simp))
  · exfalso
    rcases hc with rfl | ⟨-, hseq, -⟩
    · have hmem := (pending_returnEarly i c v).subset hc'
      exact hcalls.arm_ne hi c' hmem (harm.trans (hcalls.live hi).1)
    · rw [State.returnEarly, if_neg hpass] at hc'
      have hnil : c' ∈ if q.concurrent = true then s.pending else [] := hc'
      rw [hseq] at hnil
      exact absurd hnil List.not_mem_nil
  · exact absurd hearly hnot

/-- A call that is given up is of an arm that is `done`, or of one without hope. -/
theorem done_of_lost (hcalls : CallsInv s) (hstep : Step q N s ev t) {c : Call q}
    (hlost : Lost s ev c) {p : Dict} {rep : Nat} (hcovers : c.Covers p rep)
    (h : Hopeful t c.arm) : s.status c.arm = .done := by
  have hplots : c.pass ≠ .plots := by
    intro hpass
    obtain ⟨-, hcov⟩ := hcovers
    rw [hpass] at hcov
    exact hcov
  cases hstep with
  | @begin b rest hbatches hdue hpending hidle =>
    obtain ⟨b', rest', hb', hmem, hnot⟩ := hlost
    rw [hbatches] at hb'
    obtain ⟨rfl, rfl⟩ := List.cons.inj hb'
    -- a call of a batch is not due only when its arm has failed
    have hfailed : s.status c.arm = .failed := by
      unfold State.isDue at hnot
      split at hnot
      · cases hnot
      · simpa using hnot
      · rename_i hpass
        exact absurd hpass hplots
    rcases h with hdone | hl | ⟨c', hc', harm⟩ | ⟨hne, -, -⟩
    · exact hdone
    · exact absurd (hidle c.arm) hl
    · obtain ⟨hcb, hisDue⟩ := List.mem_filter.mp hc'
      have hb : b ∈ q.batches := hcalls.batches b (hbatches ▸ List.mem_cons_self)
      obtain rfl := List.inj_on_of_nodup_map (Setup.nodup_arms hb) hcb hmem harm
      rw [hnot] at hisDue
      cases hisDue
    · exact absurd hfailed hne
  | @turnAway i c₀ v hi _ =>
    obtain ⟨c₁, a, hi', hc⟩ := hlost
    obtain ⟨rfl, -⟩ := Prod.mk.inj (Option.some_inj.mp (hi.symm.trans hi'))
    exact done_of_returnEarly hcalls hi hplots hc h
  | @fail i c₀ argvs d hi =>
    obtain ⟨a, ha⟩ := hlost
    obtain ⟨rfl, -, -⟩ := hcalls.live ha
    rcases h with hdone | hl | ⟨c', hc', harm⟩ | ⟨hne, -, -⟩
    · simp [State.setStatus, State.clear] at hdone
    · simp [State.clear] at hl
    · exact absurd harm (hcalls.arm_ne ha c' hc')
    · simp [State.setStatus, State.clear] at hne
  | @credentials i c₀ argvs d hi =>
    obtain ⟨c₁, a, hi', hc⟩ := hlost
    obtain ⟨rfl, -⟩ := Prod.mk.inj (Option.some_inj.mp (hi.symm.trans hi'))
    have hcalls' : CallsInv (s.setStatus i .credentialsExpired) :=
      hcalls.mono rfl rfl (List.Sublist.refl _) (fun hj => ⟨_, hj⟩) fun _ hj => Or.inl hj
    have hdone := done_of_returnEarly hcalls' hi hplots hc h
    by_cases hij : c.arm = i
    · simp [State.setStatus, hij] at hdone
    · simpa [State.setStatus, hij] using hdone
  | @kill i c₀ argvs d v hi _ =>
    obtain ⟨c₁, a, hi', hc⟩ := hlost
    obtain ⟨rfl, -⟩ := Prod.mk.inj (Option.some_inj.mp (hi.symm.trans hi'))
    exact done_of_returnEarly hcalls hi hplots hc h
  | close hdue hpending hidle =>
    -- the batches were dropped, and no call of them can give hope
    obtain ⟨hsome, -⟩ := hlost
    rcases h with hdone | hl | ⟨c', hc', -⟩ | ⟨-, -, b, hb, -⟩
    · exact hdone
    · exact absurd (hidle c.arm) hl
    · have hmem : c' ∈ s.pending := hc'
      rw [hpending] at hmem
      exact absurd hmem List.not_mem_nil
    · have hnil : b ∈ if s.batchVerdict.isSome = true then [] else s.batches := hb
      rw [if_pos hsome] at hnil
      exact absurd hnil List.not_mem_nil
  | stop | expire | enter _ _ _ | spawn _ _ _ | drive _ _ | skip _ _ _ | record _ _ _
  | leave _ _ | succeed _ _ | refuse _ | finish _ _ _ _ _ => exact hlost.elim

/-! ## Over a queue -/

/-- What holds of every arm that may be `done` at the end. -/
def OwesInv (s : State q N) : Prop :=
  ∀ i, Hopeful s i → ∀ p ∈ (q.arm i).file.points, ∀ rep, 1 ≤ rep → rep ≤ (q.arm i).reps →
    Owed s i p rep

theorem owesInv_init (q : Setup) (files : String × String → Option (Csv N)) :
    OwesInv (State.init q files) := by
  intro i _ p hp rep hpos hle
  obtain ⟨b, hb, c, hc, harm, hcovers⟩ := Setup.exists_call i hp hpos hle
  exact Or.inr ⟨c, Or.inr (Or.inr ⟨b, hb, hc⟩), harm, hcovers⟩

theorem exists_batch_of_out (hcalls : CallsInv s) {c : Call q} (h : Out s c) :
    ∃ b ∈ q.batches, c ∈ b := by
  rcases h with ⟨a, ha⟩ | hp | ⟨b, hb, hc⟩
  · exact hcalls.due c (hcalls.live ha).2.1
  · exact hcalls.due c (hcalls.pending.subset hp)
  · exact ⟨b, hcalls.batches b hb, hc⟩

/-- A call for the whole experiment covers all of it. -/
theorem covers_of_whole (hcalls : CallsInv s) {c : Call q} (h : Out s c) (hpass : c.pass = .whole)
    {p : Dict} (hp : p ∈ (q.arm c.arm).file.points) {rep : Nat} (hpos : 1 ≤ rep)
    (hle : rep ≤ (q.arm c.arm).reps) : c.Covers p rep := by
  obtain ⟨b, hb, hc⟩ := exists_batch_of_out hcalls h
  rcases Setup.mem_batches hb with ⟨i, rfl⟩ | ⟨i, rfl⟩ | ⟨g, -, hb⟩
  · obtain rfl := List.mem_singleton.mp hc
    exact ⟨hp, hpos, hle⟩
  · obtain rfl := List.mem_singleton.mp hc
    cases hpass
  · obtain ⟨k, -, i, -, rfl⟩ := Setup.mem_groupBatches.mp hb
    obtain ⟨m, -, hm⟩ := List.mem_filterMap.mp hc
    obtain ⟨-, v, -, rfl⟩ := Setup.pointCall_eq_some hm
    cases hpass

theorem step_owesInv (hblank : q.NotBlank) (hcalls : CallsInv s) (hfiles : FilesInv s)
    (hchild : ChildInv s) (h : OwesInv s) (hok : Careful s ev) (hstep : Step q N s ev t) :
    OwesInv t := by
  intro i hhope p hp rep hpos hle
  rcases hopeful_step hcalls hstep hhope with hhope' | ⟨c, hout, rfl, hpass⟩
  · refine owed_step hblank hcalls hfiles hchild hstep (h i hhope' p hp rep hpos hle) ?_
    rintro c hlost rfl hcovers
    have hdone := done_of_lost hcalls hstep hlost hcovers hhope
    cases hev : ev with
    | skip _ _ => exact (hev ▸ hlost : Lost s (.skip _ _) c).elim
    | record _ _ _ _ => exact (hev ▸ hlost : Lost s (.record _ _ _ _) c).elim
    | _ => subst hev; exact hok c hlost hdone p rep hcovers
  · exact Or.inr ⟨c, hout, rfl,
      covers_of_whole (step_callsInv hcalls hstep) hout hpass hp hpos hle⟩

/-- When `main` has returned, no call is running or to come. -/
def OverInv (s : State q N) : Prop :=
  s.returned = true → s.batches = [] ∧ s.due = [] ∧ s.pending = [] ∧ s.Idle

theorem step_overInv (h : OverInv s) (hstep : Step q N s ev t) : OverInv t := by
  -- while a call is running the queue has not returned, so these steps cannot break it
  have hlive : ∀ {i : q.Index} {x : Call q × Attempt N}, s.live i = some x →
      s.returned = false := by
    intro i x hi
    rcases hover : s.returned with _ | _
    · rfl
    · rw [(h hover).2.2.2 i] at hi
      cases hi
  have hfalse : ∀ {b : Bool}, t.returned = b → b = false → OverInv t := by
    intro b hb hb' hover
    rw [hb, hb'] at hover
    cases hover
  have hreturn : ∀ {s' : State q N} (i : q.Index) (c : Call q) (v : Early),
      (s'.returnEarly i c v).returned = s'.returned := by
    intro s' i c v
    unfold State.returnEarly
    split <;> rfl
  cases hstep with
  | stop => exact h
  | expire => exact h
  | begin hbatches _ _ _ =>
    intro hover
    rw [(h hover).1] at hbatches
    cases hbatches
  | enter hpending _ _ =>
    intro hover
    rw [(h hover).2.2.1] at hpending
    cases hpending
  | turnAway hi _ => exact hfalse (hreturn _ _ _) (hlive hi)
  | spawn hi _ _ => exact hfalse rfl (hlive hi)
  | drive hi _ => exact hfalse rfl (hlive hi)
  | skip hi _ _ => exact hfalse rfl (hlive hi)
  | record hi _ _ => exact hfalse rfl (hlive hi)
  | leave hi _ => exact hfalse rfl (hlive hi)
  | succeed hi _ => exact hfalse rfl (hlive hi)
  | fail hi => exact hfalse rfl (hlive hi)
  | refuse hi => exact hfalse rfl (hlive hi)
  | credentials hi => exact hfalse (hreturn _ _ _) (hlive hi)
  | kill hi _ => exact hfalse (hreturn _ _ _) (hlive hi)
  | close hdue _ _ =>
    intro hover
    exact absurd (h hover).2.1 hdue
  | finish hbatches hdue hpending hidle _ => exact fun _ => ⟨hbatches, hdue, hpending, hidle⟩

/-- What holds in every state of a careful queue. -/
structure QueueInv (s : State q N) : Prop where
  calls : CallsInv s
  files : FilesInv s
  child : ChildInv s
  owes : OwesInv s
  returned : OverInv s

theorem queueInv_init (q : Setup) (files : String × String → Option (Csv N)) :
    QueueInv (State.init q files) :=
  ⟨callsInv_init q files, filesInv_init q files, childInv_init q files, owesInv_init q files,
    nofun⟩

theorem run_queueInv (hq : q.Apart) (hblank : q.NotBlank)
    {files : String × String → Option (Csv N)} {l : List (Event q N)}
    (h : Infra.Run (Guarded (Step q N) Careful) (.init q files) l s) : QueueInv s := by
  refine h.invariant (queueInv_init q files) fun s ev t hinv hstep => ?_
  obtain ⟨hok, hstep⟩ := hstep
  exact
    { calls := step_callsInv hinv.calls hstep
      files := step_filesInv hq hinv.calls hinv.files hstep
      child := step_childInv hq hinv.calls hinv.files hinv.child hok hstep
      owes := step_owesInv hblank hinv.calls hinv.files hinv.child hinv.owes hok hstep
      returned := step_overInv hinv.returned hstep }

/--
**In a queue whose steps are careful, an experiment that is `done` at the end has a recorded row
for every point and rep.**
-/
theorem done_is_earned (hq : q.Apart) (hblank : q.NotBlank)
    {files : String × String → Option (Csv N)} {l : List (Event q N)}
    (h : Infra.Run (Guarded (Step q N) Careful) (.init q files) l s) (hover : s.returned = true)
    {i : q.Index} (hdone : s.status i = .done) : Earned s i := by
  have hinv := run_queueInv hq hblank h
  obtain ⟨hbatches, -, hpending, hidle⟩ := hinv.returned hover
  intro p hp rep hpos hle
  rcases hinv.owes i (Or.inl hdone) p hp rep hpos hle with hrec | ⟨c, hout, -, -⟩
  · exact hrec
  · exfalso
    rcases hout with ⟨a, ha⟩ | hc | ⟨b, hb, -⟩
    · rw [hidle c.arm] at ha
      cases ha
    · rw [hpending] at hc
      exact absurd hc List.not_mem_nil
    · rw [hbatches] at hb
      exact absurd hb List.not_mem_nil

/-! ## A queue of one experiment -/

/-- One point, `reps` times. -/
def soloQueue (reps : Nat) (interleave : Bool) : Setup :=
  { arms := [{ file := threadFile [[]], group := 0, reps }]
    interleave
    concurrent := false
    interleave_of_concurrent := nofun }

variable {reps : Nat} {interleave : Bool}

/-- Its experiment. -/
def solo : (soloQueue reps interleave).Index := ⟨0, Nat.zero_lt_one⟩

theorem eq_solo (i : (soloQueue reps interleave).Index) : i = solo :=
  Fin.ext (Nat.lt_one_iff.mp i.isLt)

/-- The run of the point's first rep. -/
def firstRun : Run := (pointSweep "r6in.8xlarge" 1).run (.int 64) 1

/-- The queue's first call records the first rep. -/
theorem exists_firstCall {c : Call (soloQueue reps interleave)}
    {rest : List (List (Call (soloQueue reps interleave)))}
    (ok : State (soloQueue reps interleave) Numerals.whole → Event _ _ → Prop)
    (hbatches : (soloQueue reps interleave).batches = [c] :: rest)
    (hc : c = ⟨solo, 1, .whole⟩ ∨ c = ⟨solo, 1, .point "64"⟩)
    (hok : ∀ s ev, ev.Plain → ok s ev)
    (hrecord : ∀ s, s.csv solo = none →
      s.driver solo = some (Process.start (pointSweep "r6in.8xlarge" 1) none) →
      ok s (.record solo firstRun oneRow true)) :
    ∃ l t, Infra.Run (Guarded (Step _ _) ok) (.init _ fun _ => none) l t ∧
      launches l = [(solo, firstRun)] ∧ Between t rest ∧ t.status solo = .done ∧
      t.csv solo = some
        ((Process.start (pointSweep "r6in.8xlarge" 1) none).record firstRun oneRow true).csv := by
  have hnone : (threadFile [[]]).main none 1 =
      some [(threadFile [[]]).argv 1 [("threads", .int 64)]] := by decide
  have hsome : (threadFile [[]]).main (some ("threads", "64")) 1 =
      some [(threadFile [[]]).argv 1 [("threads", .int 64)]] := by decide
  have hcall : c.arm = solo ∧ (State.init (N := Numerals.whole) _ fun _ => none).isDue c = true ∧
      (threadFile [[]]).main c.only c.reps =
        some [(threadFile [[]]).argv 1 [("threads", .int 64)]] := by
    rcases hc with rfl | rfl
    · exact ⟨rfl, rfl, hnone⟩
    · exact ⟨rfl, rfl, hsome⟩
  obtain ⟨harm, hdue, hmain⟩ := hcall
  obtain ⟨arm, n, pass⟩ := c
  obtain rfl : arm = solo := harm
  have hstart : Between (State.init (N := Numerals.whole) (soloQueue reps interleave) fun _ => none)
      ([⟨solo, n, pass⟩] :: rest) := hbatches ▸ between_init _ _
  obtain ⟨l₁, s₁, h₁, hl₁, hs₁, hfiles₁, -⟩ := hstart.drive hok (by simpa using hdue) hmain
    (show Sweep.parse threadBench _ = some (pointSweep "r6in.8xlarge" 1) by decide)
  have hcsv₁ : s₁.csv solo = none := by
    rw [State.csv, hfiles₁]
    rfl
  obtain ⟨s₂, h₂, hs₂, hcsv, -⟩ := hs₁.record ok oneRow rfl rfl
    (hrecord s₁ hcsv₁ (driver_of_live hs₁.live))
  obtain ⟨l₃, s₃, h₃, hl₃, hs₃, hfiles₃, hstatus⟩ := hs₂.close hok rfl ⟨_, hmain⟩
  refine ⟨_, s₃, (h₁.append h₂).append h₃, ?_, hs₃, ?_, ?_⟩
  · rw [launches_append, launches_append, hl₁, hl₃]
    rfl
  · rw [hstatus]
    exact Function.update_self _ _ _
  · rw [State.csv, hfiles₃]
    exact hcsv

/-- A sequential queue of one rep, whose experiment is `done` at the end. -/
theorem done_is_earned_solo :
    ∃ (l : List (Event (soloQueue 1 false) Numerals.whole)) (s : State _ _),
      Infra.Run (Guarded (Step _ _) Careful) (.init _ fun _ => none) l s ∧
      s.returned = true ∧ s.status solo = .done ∧ Earned s solo := by
  have hbatches : (soloQueue 1 false).batches = [[⟨solo, 1, .whole⟩]] := rfl
  obtain ⟨l, s, h, -, hs, hstatus, -⟩ := exists_firstCall Smooth hbatches (Or.inl rfl)
    (fun _ => smooth_of_plain) fun _ _ _ => ⟨rfl, nofun⟩
  obtain ⟨t, h', hover, hstatus', -⟩ := hs.finish (smooth_of_plain _ trivial)
  have hrun := (run_careful (h.append h')).1
  have hdone : t.status solo = .done := by rw [hstatus', hstatus]
  refine ⟨_, t, hrun, hover, hdone, done_is_earned (fun hconc => ?_) ?_ hrun hover hdone⟩
  · cases hconc
  intro i haxis
  rw [eq_solo i] at haxis
  exact absurd haxis (by decide)

/--
An interleaved queue of two reps that expires after the first: its experiment is `done`, and the
second rep was never launched.
-/
theorem done_unearned :
    ∃ (l : List (Event (soloQueue 2 true) Numerals.whole)) (s : State _ _),
      Infra.Run (Step _ _) (.init _ fun _ => none) l s ∧
      s.returned = true ∧ s.status solo = .done ∧ ¬ Earned s solo := by
  have hbatches : (soloQueue 2 true).batches =
      [[⟨solo, 1, .point "64"⟩], [⟨solo, 2, .point "64"⟩], [⟨solo, 2, .plots⟩]] := by
    decide +kernel
  obtain ⟨l, s, h, -, hs, hstatus, hcsv⟩ := exists_firstCall (fun _ _ => True) hbatches
    (Or.inr rfl) (fun _ _ _ => trivial) fun _ _ _ => trivial
  obtain ⟨l', t, h', -, hover, hfiles, hkeep⟩ := hs.expires nofun (by simp [State.isDue, hstatus])
  refine ⟨_, t, h.of_guarded.append h', hover, hkeep solo hstatus, fun hearned => ?_⟩
  obtain ⟨⟨run, hrun⟩, hall⟩ := hearned _ List.mem_cons_self 2 (by omega) (le_refl 2)
  have hmem := hall run hrun
  have hheld : t.held solo = [firstRun] := by
    rw [State.held, State.csv, hfiles, show s.files _ = _ from hcsv]
    rfl
  rw [hheld, List.mem_singleton] at hmem
  obtain ⟨sw, -, v, -, rfl⟩ := hrun
  have hrep : 2 = 1 := congrArg Run.rep hmem
  cases hrep

end Arms
