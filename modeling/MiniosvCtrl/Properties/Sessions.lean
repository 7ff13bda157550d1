import MiniosvCtrl.Properties.ResumeComplete
import MiniosvCtrl.Properties.ResumeSound
import MiniosvCtrl.Properties.Smooth

/-!
# The session of an experiment's CSV, in a queue

As long as no other experiment writes its CSV, what a queue does to an arm's CSV is a session of
drivers, one after another, and what is known of sessions holds of it.

* `PlanInv` — a driver plans runs that its call is for
* `step_session` — a step of the queue is one of the arm's session, or leaves it alone
* `Clean` — the condition on a step
* `SessionInv` — every recorded run is found, and no other
-/

namespace Arms

open Infra Runner Experiment

variable {q : Setup} {N : Numerals} {s t : State q N} {ev : Event q N}

/-! ## What a driver plans -/

/-- The run is one that the call is for. -/
def Call.Plans (c : Call q) (run : Run) : Prop :=
  1 ≤ run.rep ∧ run.rep ≤ c.reps ∧
    ∃ p ∈ (q.arm c.arm).file.only c.only, (q.arm c.arm).file.RunOf p run.rep run

/-- The drivers of a call are those of `experiment.py`, and plan what the call is for. -/
def PlanInv (s : State q N) : Prop :=
  ∀ c argvs d, s.live c.arm = some (c, .child argvs d) →
    (∀ a ∈ argvs, ∃ l, (q.arm c.arm).file.main c.only c.reps = some l ∧ a ∈ l) ∧
      ∀ p, d = some p → ∀ run ∈ p.todo, c.Plans run ∧ (q.arm c.arm).file.Planned run

theorem planInv_init (q : Setup) (files : String × String → Option (Csv N)) :
    PlanInv (State.init q files) :=
  nofun

theorem PlanInv.mono (h : PlanInv s)
    (hlive : ∀ {i c a}, t.live i = some (c, a) → s.live i = some (c, a)) : PlanInv t :=
  fun c argvs d hi => h c argvs d (hlive hi)

theorem PlanInv.setLive (h : PlanInv s) {c : Call q} {a : Attempt N}
    (hlive : t.live = (s.setLive c.arm c a).live)
    (ha : ∀ argvs d, a = .child argvs d →
      (∀ a ∈ argvs, ∃ l, (q.arm c.arm).file.main c.only c.reps = some l ∧ a ∈ l) ∧
        ∀ p, d = some p → ∀ run ∈ p.todo, c.Plans run ∧ (q.arm c.arm).file.Planned run) :
    PlanInv t := by
  intro c' argvs d hi
  rw [hlive] at hi
  by_cases hij : c'.arm = c.arm
  · have hc : some (c, a) = some (c', .child argvs d) := by simpa [State.setLive, hij] using hi
    obtain ⟨rfl, rfl⟩ := Prod.mk.inj (Option.some_inj.mp hc)
    exact ha argvs d rfl
  · exact h c' argvs d (by simpa [State.setLive, hij] using hi)

theorem step_planInv (hcalls : CallsInv s) (h : PlanInv s) (hstep : Step q N s ev t) :
    PlanInv t := by
  cases hstep with
  | stop => exact h.mono fun hi => hi
  | expire => exact h.mono fun hi => hi
  | begin _ _ _ _ => exact h.mono fun hi => hi
  | @enter c rest _ _ _ => exact h.setLive (c := c) rfl nofun
  | turnAway _ _ => exact h.mono fun hi => (live_returnEarly hi).2
  | @spawn i c hi _ _ =>
    obtain ⟨rfl, -, -⟩ := hcalls.live hi
    refine h.setLive rfl fun argvs d ha => ?_
    obtain ⟨rfl, rfl⟩ := Attempt.child.inj ha
    refine ⟨fun a ha' => ?_, nofun⟩
    cases hmain : (q.arm c.arm).file.main c.only c.reps with
    | none =>
      rw [hmain] at ha'
      exact absurd ha' List.not_mem_nil
    | some l =>
      rw [hmain] at ha'
      exact ⟨l, rfl, ha'⟩
  | @drive i c a argvs sw hi hparse =>
    obtain ⟨rfl, -, -⟩ := hcalls.live hi
    obtain ⟨hmain, -⟩ := h _ _ _ hi
    refine h.setLive rfl fun argvs' d ha => ?_
    obtain ⟨rfl, rfl⟩ := Attempt.child.inj ha
    refine ⟨fun a' ha' => hmain a' (List.mem_cons_of_mem _ ha'), fun p hp run hrun => ?_⟩
    obtain rfl := Option.some_inj.mp hp
    obtain ⟨l, hl, hal⟩ := hmain a List.mem_cons_self
    exact ⟨File.runOf_of_mem_plan hl hal hparse hrun, sw, ⟨_, _, l, hl, a, hal, hparse⟩, hrun⟩
  | @skip i c argvs p run hi _ _ =>
    obtain ⟨rfl, -, -⟩ := hcalls.live hi
    obtain ⟨hmain, htodo⟩ := h _ _ _ hi
    refine h.setLive rfl fun argvs' d ha => ?_
    obtain ⟨rfl, rfl⟩ := Attempt.child.inj ha
    refine ⟨hmain, fun p' hp' r hr => ?_⟩
    obtain rfl := Option.some_inj.mp hp'
    exact htodo p rfl r (List.mem_of_mem_tail hr)
  | @record i c argvs p run boot valid hi _ _ =>
    obtain ⟨rfl, -, -⟩ := hcalls.live hi
    obtain ⟨hmain, htodo⟩ := h _ _ _ hi
    refine h.setLive rfl fun argvs' d ha => ?_
    obtain ⟨rfl, rfl⟩ := Attempt.child.inj ha
    refine ⟨hmain, fun p' hp' r hr => htodo p rfl r ?_⟩
    obtain rfl := Option.some_inj.mp hp'
    -- what is left after a row is a part of what was left before
    have hr' : r ∈ if (valid || p.sweep.keepGoing) = true then p.todo.tail else [] := hr
    split at hr'
    · exact List.mem_of_mem_tail hr'
    · exact absurd hr' List.not_mem_nil
  | @leave i c argvs p hi _ =>
    obtain ⟨rfl, -, -⟩ := hcalls.live hi
    obtain ⟨hmain, -⟩ := h _ _ _ hi
    refine h.setLive rfl fun argvs' d ha => ?_
    obtain ⟨rfl, rfl⟩ := Attempt.child.inj ha
    exact ⟨hmain, nofun⟩
  | succeed _ _ => exact h.mono fun hi => (live_clear (s := s) hi).2
  | fail _ => exact h.mono fun hi => (live_clear (s := s) hi).2
  | @refuse i c argvs d hi =>
    obtain ⟨rfl, -, -⟩ := hcalls.live hi
    exact h.setLive (c := c) rfl nofun
  | credentials _ => exact h.mono fun hi => (live_returnEarly (s := s.setStatus _ _) hi).2
  | kill _ _ => exact h.mono fun hi => (live_returnEarly hi).2
  | close _ _ _ => exact h.mono fun hi => hi
  | finish _ _ _ _ _ => exact h.mono fun hi => hi

/-! ## The session of an arm -/

/-- The arm's CSV, and the driver that its call runs. -/
def State.session (s : State q N) (i : q.Index) : Session N := ⟨s.csv i, s.driver i⟩

/-- What the event is in the arm's session. -/
def Event.session (i : q.Index) : Event q N → Option (Session.Event N)
  | .drive j sw => if j = i then some (.start sw) else none
  | .skip j run => if j = i then some (.skip run) else none
  | .record j run boot valid => if j = i then some (.record run boot valid) else none
  | .leave j => if j = i then some .exit else none
  | _ => none

/-- No two experiments write one CSV. -/
def Setup.OwnFiles (q : Setup) : Prop :=
  ∀ i j : q.Index, i ≠ j → (q.arm i).file.out ≠ (q.arm j).file.out

theorem Setup.OwnFiles.apart (h : q.OwnFiles) : q.Apart := fun _ i j hij _ => h i j hij

theorem session_eq {i : q.Index} (hfiles : t.files = s.files)
    (hlive : t.live i = s.live i) : t.session i = s.session i := by
  rw [State.session, State.session, State.csv, State.csv, State.driver, State.driver, hfiles, hlive]

/-- A call without a driver, or another arm's, comes or goes. -/
theorem session_setLive {i j : q.Index} {c : Call q} {a : Attempt N} (hfiles : t.files = s.files)
    (hlive : t.live = (s.setLive j c a).live) (hs : s.driver j = none)
    (ha : (s.setLive j c a).driver j = none) : t.session i = s.session i := by
  by_cases hij : i = j
  · subst hij
    have hdriver : t.driver i = none := by
      rw [← ha, State.driver, State.driver, hlive]
    rw [State.session, State.session, hdriver, hs, State.csv, State.csv, hfiles]
  · refine session_eq hfiles ?_
    rw [hlive]
    simp [State.setLive, hij]

/-- A call ends: a driver that it was running is killed. -/
theorem session_ended {allowed : Sweep → Prop} {i j : q.Index} (hfiles : t.files = s.files)
    (hother : i ≠ j → t.live i = s.live i) (hself : t.driver j = none) :
    t.session i = s.session i ∨ Session.Step allowed (s.session i) .kill (t.session i) := by
  by_cases hij : i = j
  · subst hij
    have hcsv : t.csv i = s.csv i := by rw [State.csv, State.csv, hfiles]
    rw [State.session, State.session, hself, hcsv]
    cases hdriver : s.driver i with
    | none => exact Or.inl rfl
    | some p => exact Or.inr Session.Step.kill
  · exact Or.inl (session_eq hfiles (hother hij))

theorem driver_clear (s : State q N) (i : q.Index) : (s.clear i).driver i = none := by
  simp [State.driver, State.clear]

theorem driver_returnEarly (s : State q N) (i : q.Index) (c : Call q) (v : Early) :
    (s.returnEarly i c v).driver i = none := by
  unfold State.returnEarly
  split
  · exact driver_clear s i
  · exact driver_clear s i

theorem live_clear_other {i j : q.Index} (h : i ≠ j) : (s.clear j).live i = s.live i := by
  simp [State.clear, h]

theorem live_returnEarly_other {i j : q.Index} (h : i ≠ j) (c : Call q) (v : Early) :
    (s.returnEarly j c v).live i = s.live i := by
  unfold State.returnEarly
  split
  · exact live_clear_other h
  · exact live_clear_other h

/-- **A step of the queue is a step of the arm's session, or leaves it alone.** -/
theorem step_session (hout : q.OwnFiles) (hcalls : CallsInv s) (hplan : PlanInv s)
    (hstep : Step q N s ev t) (i : q.Index) :
    t.session i = s.session i ∨
      Session.Step (q.arm i).file.Sweeps (s.session i) .kill (t.session i) ∨
      ∃ ev', ev.session i = some ev' ∧
        Session.Step (q.arm i).file.Sweeps (s.session i) ev' (t.session i) := by
  -- an attempt that ends is a kill of the session, if it had a driver
  have hended : ∀ {j : q.Index}, t.files = s.files → (i ≠ j → t.live i = s.live i) →
      t.driver j = none → t.session i = s.session i ∨
        Session.Step (q.arm i).file.Sweeps (s.session i) .kill (t.session i) ∨
        ∃ ev', ev.session i = some ev' ∧
          Session.Step (q.arm i).file.Sweeps (s.session i) ev' (t.session i) :=
    fun hfiles hother hself => (session_ended hfiles hother hself).imp_right Or.inl
  cases hstep with
  | stop => exact Or.inl rfl
  | expire => exact Or.inl rfl
  | begin _ _ _ _ => exact Or.inl rfl
  | @enter c rest hpending hnone _ =>
    refine Or.inl (session_setLive (c := c) (j := c.arm) rfl rfl ?_ (driver_setLive_top _ _))
    rw [State.driver, hnone]
  | turnAway _ _ =>
    exact hended (files_returnEarly _ _ _) (fun h => live_returnEarly_other h _ _)
      (driver_returnEarly _ _ _ _)
  | @spawn j c hj _ _ =>
    refine Or.inl (session_setLive (c := c) (j := j) rfl rfl ?_ (driver_setLive_self _ _ _ _))
    rw [State.driver, hj]
  | @drive j c a argvs sw hj hparse =>
    by_cases hij : i = j
    · subst hij
      refine Or.inr (Or.inr ⟨.start sw, by simp [Event.session], ?_⟩)
      obtain ⟨rfl, -, -⟩ := hcalls.live hj
      obtain ⟨l, hl, hal⟩ := (hplan _ _ _ hj).1 a List.mem_cons_self
      rw [State.session, State.session, driver_of_live hj, driver_setLive_self]
      exact Session.Step.start ⟨_, _, l, hl, a, hal, hparse⟩
    · exact Or.inl (session_eq rfl (by simp [State.setLive, hij]))
  | @skip j c argvs p run hj hhead hdone =>
    by_cases hij : i = j
    · subst hij
      refine Or.inr (Or.inr ⟨.skip run, by simp [Event.session], ?_⟩)
      rw [State.session, State.session, driver_of_live hj, driver_setLive_self]
      exact Session.Step.skip hhead hdone
    · exact Or.inl (session_eq rfl (by simp [State.setLive, hij]))
  | @record j c argvs p run boot valid hj hhead hdone =>
    by_cases hij : i = j
    · subst hij
      refine Or.inr (Or.inr ⟨.record run boot valid, by simp [Event.session], ?_⟩)
      have hcsv : ((s.setFile (q.arm i).file.out (p.record run boot valid).csv).setLive i c
          (.child argvs (some (p.record run boot valid)))).csv i =
            some (p.record run boot valid).csv := csv_setFile_same rfl _
      rw [State.session, State.session, driver_of_live hj, driver_setLive_self, hcsv]
      exact Session.Step.record hhead hdone
    -- another arm's row goes to another file
    · have hcsv : ((s.setFile (q.arm j).file.out (p.record run boot valid).csv).setLive j c
          (.child argvs (some (p.record run boot valid)))).csv i = s.csv i :=
        csv_setFile_other (hout i j hij) _
      rw [State.session, State.session, hcsv, driver_setLive_other hij]
      exact Or.inl rfl
  | @leave j c argvs p hj htodo =>
    by_cases hij : i = j
    · subst hij
      refine Or.inr (Or.inr ⟨.exit, by simp [Event.session], ?_⟩)
      rw [State.session, State.session, driver_of_live hj, driver_setLive_self]
      exact Session.Step.exit htodo
    · exact Or.inl (session_eq rfl (by simp [State.setLive, hij]))
  | @succeed j _ _ _ =>
    exact hended (j := j) rfl (fun h => live_clear_other (s := s) h)
      (driver_clear (s.setStatus j _) j)
  | @fail j _ _ _ _ =>
    exact hended (j := j) rfl (fun h => live_clear_other (s := s) h)
      (driver_clear (s.setStatus j _) j)
  | @refuse j c _ _ _ =>
    refine hended (j := j) rfl (fun h => ?_) (driver_setLive_top j c)
    simp [State.setLive, State.setStatus, h]
  | @credentials j c _ _ _ =>
    exact hended (j := j) (files_returnEarly _ _ _)
      (fun h => live_returnEarly_other (s := s.setStatus j _) h _ _) (driver_returnEarly _ _ _ _)
  | kill _ _ =>
    exact hended (files_returnEarly _ _ _) (fun h => live_returnEarly_other h _ _)
      (driver_returnEarly _ _ _ _)
  | close _ _ _ => exact Or.inl rfl
  | finish _ _ _ _ _ => exact Or.inl rfl

/-! ## What is known of the sessions -/

/--
The children succeed; and what is recorded can be told, then and later, from every other run of
the experiment.
-/
def Clean (s : State q N) (ev : Event q N) : Prop :=
  ev.Succeeds ∧ ∀ i run boot valid, ev = .record i run boot valid →
    Lasting (s.session i) (.record run boot valid) ∧
      Distinct (q.arm i).file (s.session i) (.record run boot valid)

/-- In the CSV of every arm, the recorded runs are found, and no others. -/
def SessionInv (s : State q N) : Prop :=
  ∀ i, ResumeInv (s.session i) ∧ SoundInv (q.arm i).file (s.session i)

theorem sessionInv_init (q : Setup) :
    SessionInv (State.init q fun _ => none : State q N) :=
  fun _ => ⟨resumeInv_init none, soundInv_init _⟩

/-- Only a record is under a condition. -/
theorem lasting_distinct {x : File} {S : Session N} {ev : Session.Event N}
    (h : ∀ run boot valid, ev ≠ .record run boot valid) : Lasting S ev ∧ Distinct x S ev := by
  constructor
  · unfold Lasting
    split
    · exact absurd rfl (h _ _ _)
    · trivial
  · unfold Distinct
    split
    · exact absurd rfl (h _ _ _)
    · trivial

theorem step_sessionInv (hout : q.OwnFiles) (hcalls : CallsInv s) (hplan : PlanInv s)
    (h : SessionInv s) (hclean : Clean s ev) (hstep : Step q N s ev t) : SessionInv t := by
  intro i
  obtain ⟨hresume, hsound⟩ := h i
  rcases step_session hout hcalls hplan hstep i with heq | hkill | ⟨ev', hev, hstep'⟩
  · rw [heq]
    exact ⟨hresume, hsound⟩
  · have hguard := @lasting_distinct N (q.arm i).file (s.session i) .kill nofun
    exact ⟨step_resumeInv hresume hguard.1 hkill, step_soundInv hsound hguard.2 hkill⟩
  · have hguard : Lasting (s.session i) ev' ∧ Distinct (q.arm i).file (s.session i) ev' := by
      cases ev with
      | record j run boot valid =>
        by_cases hj : j = i
        · subst hj
          obtain rfl : .record run boot valid = ev' := by simpa [Event.session] using hev
          exact hclean.2 j run boot valid rfl
        · simp [Event.session, hj] at hev
      | drive j sw =>
        obtain ⟨-, rfl⟩ : j = i ∧ .start sw = ev' := by simpa [Event.session] using hev
        exact lasting_distinct nofun
      | skip j run =>
        obtain ⟨-, rfl⟩ : j = i ∧ .skip run = ev' := by simpa [Event.session] using hev
        exact lasting_distinct nofun
      | leave j =>
        obtain ⟨-, rfl⟩ : j = i ∧ .exit = ev' := by simpa [Event.session] using hev
        exact lasting_distinct nofun
      | stop | expire | begin | enter _ | turnAway _ _ | spawn _ | succeed _ | fail _ | refuse _
      | credentials _ | kill _ _ | close | finish => cases hev
    exact ⟨step_resumeInv hresume hguard.1 hstep', step_soundInv hsound hguard.2 hstep'⟩

/-- What the CSV holds is found by the arm's driver. -/
theorem SessionInv.done_of_held (h : SessionInv s) (hfiles : FilesInv s) {i : q.Index}
    {p : Process N} (hp : s.driver i = some p) {run : Run} (hrun : run ∈ s.held i) :
    done p.df run = true := by
  rw [hfiles i p hp] at hrun
  obtain ⟨rb, hrb, rfl⟩ := List.mem_map.mp hrun
  exact (((h i).1.live p hp).1 rb hrb).2.1

/-- What the arm's driver finds is held by the CSV. -/
theorem SessionInv.held_of_done (h : SessionInv s) (hfiles : FilesInv s) {i : q.Index}
    {p : Process N} (hp : s.driver i = some p) {run : Run} (hrun : run ∈ p.todo)
    (hplanned : (q.arm i).file.Planned run) (hdone : done p.df run = true) : run ∈ s.held i := by
  obtain ⟨hprov, hapart, htodo⟩ := (h i).2.live p hp
  obtain ⟨boot, hmem⟩ := mem_of_done hprov hapart hplanned (htodo run hrun) hdone
  rw [hfiles i p hp]
  exact List.mem_map_of_mem (f := Prod.fst) hmem

/-- Clean steps are smooth: a driver skips only what its CSV holds. -/
theorem Clean.smooth (hclean : Clean s ev) (hcalls : CallsInv s) (hfiles : FilesInv s)
    (hplan : PlanInv s) (h : SessionInv s) (hstep : Step q N s ev t) : Smooth s ev := by
  refine ⟨hclean.1, ?_⟩
  rintro i run rfl
  cases hstep with
  | @skip _ c argvs p _ hi hhead hdone =>
    obtain ⟨rfl, -, -⟩ := hcalls.live hi
    have htodo := List.mem_of_mem_head? hhead
    exact h.held_of_done hfiles (driver_of_live hi) htodo
      ((hplan _ _ _ hi).2 p rfl run htodo).2 hdone

end Arms
