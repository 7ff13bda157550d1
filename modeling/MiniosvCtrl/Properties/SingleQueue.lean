import Mathlib.Order.Lattice
import Mathlib.Tactic.Push
import MiniosvCtrl.Infra.Run
import MiniosvCtrl.Queue.Submit

/-!
# Never two queues at once

`checks` refuses a submit while the queue `LATEST` names is running. Between that check and the
new runner's first `save` nothing says that a queue is on its way: `LATEST` still names the old
one, and then a `state.json` whose status is `starting`.

* `Careful` — a check that passes does so while no other submit or runner is in that gap
* `Exclusive` — the invariant: at most one process holds the turn
* `step_exclusive` — a careful step keeps it
* `two_of_careless` — a check that is not careful can end in two live runners
-/

namespace Queue

open Infra

/-- The submit passed its check and has not spawned its runner. -/
def InFlight (s : Sys) (i : Nat) : Prop :=
  s.submits i = .passed ∨ ∃ q, s.submits i = .wroteState q ∨ s.submits i = .wroteLatest q

/-- A check that passes finds no other submit in flight, and no live runner without a `save`. -/
def Careful (s : Sys) : Act → Prop
  | .check i => runningQueue s = none → (∀ j, j ≠ i → ¬ InFlight s j) ∧
      ∀ p r, s.runners p = some r → r.alive = true → r.finished = false → r.saved = true
  | _ => True

/-- At most one submit in flight or live runner, and `LATEST` says which. -/
structure Exclusive (s : Sys) : Prop where
  inFlight : ∀ i j, InFlight s i → InFlight s j → i = j
  inFlight_live : ∀ i p, InFlight s i → ¬ Live s p
  live : OneQueue s
  wroteLatest : ∀ i q, s.submits i = .wroteLatest q → s.latest = some q
  latest : ∀ p r, s.runners p = some r → r.alive = true → r.finished = false →
    s.latest = some r.qid
  recorded : ∀ p r, s.runners p = some r → r.alive = true → r.finished = false →
    r.saved = true → ∃ st, s.files r.qid = some st ∧ st.pid = some p ∧
      (st.status = .running ∨ st.status = .waitingForSpot)

/-! ## How the updates read -/

section
variable {s : Sys} {i j : Nat} {p p' : Pid} {q q' : Qid} {ph : SubmitPhase} {r : Runner}
  {st : StateFile}

@[simp] theorem setSubmit_files : (s.setSubmit i ph).files = s.files := rfl
@[simp] theorem setSubmit_latest : (s.setSubmit i ph).latest = s.latest := rfl
@[simp] theorem setSubmit_runners : (s.setSubmit i ph).runners = s.runners := rfl
@[simp] theorem setRunner_files : (s.setRunner p r).files = s.files := rfl
@[simp] theorem setRunner_latest : (s.setRunner p r).latest = s.latest := rfl
@[simp] theorem setRunner_submits : (s.setRunner p r).submits = s.submits := rfl
@[simp] theorem setFile_latest : (s.setFile q st).latest = s.latest := rfl
@[simp] theorem setFile_submits : (s.setFile q st).submits = s.submits := rfl
@[simp] theorem setFile_runners : (s.setFile q st).runners = s.runners := rfl

@[simp] theorem setSubmit_self : (s.setSubmit i ph).submits i = ph := by
  simp [Sys.setSubmit]

theorem setSubmit_other (h : j ≠ i) : (s.setSubmit i ph).submits j = s.submits j := by
  simp [Sys.setSubmit, h]

@[simp] theorem setRunner_self : (s.setRunner p r).runners p = some r := by
  simp [Sys.setRunner]

theorem setRunner_other (h : p' ≠ p) : (s.setRunner p r).runners p' = s.runners p' := by
  simp [Sys.setRunner, h]

@[simp] theorem setFile_self : (s.setFile q st).files q = some st := by
  simp [Sys.setFile]

theorem setFile_other (h : q' ≠ q) : (s.setFile q st).files q' = s.files q' := by
  simp [Sys.setFile, h]

end

/-- A submit that ends up in no flight leaves the others as they were. -/
theorem inFlight_setSubmit_over {s : Sys} {i j : Nat}
    (h : InFlight (s.setSubmit i .returned) j) : j ≠ i ∧ InFlight s j := by
  by_cases hji : j = i
  · subst hji
    simp [InFlight] at h
  · refine ⟨hji, ?_⟩
    unfold InFlight at h ⊢
    rwa [setSubmit_other hji] at h

/-- A submit that was in flight, or may be now, moves on: the same ones are in flight. -/
theorem inFlight_setSubmit {s : Sys} {i j : Nat} {ph : SubmitPhase}
    (h : InFlight (s.setSubmit i ph) j) : j = i ∨ InFlight s j := by
  by_cases hji : j = i
  · exact Or.inl hji
  · refine Or.inr ?_
    unfold InFlight at h ⊢
    rwa [setSubmit_other hji] at h

/-- While a live runner is recorded, `running_queue` finds it. -/
theorem runningQueue_of_live {s : Sys} (hx : Exclusive s) {p : Pid} {r : Runner}
    (hr : s.runners p = some r) (ha : r.alive = true) (hf : r.finished = false)
    (hs : r.saved = true) : ∃ st, runningQueue s = some st := by
  obtain ⟨st, hst, hpid, hstatus⟩ := hx.recorded p r hr ha hf hs
  refine ⟨st, ?_⟩
  have halive : s.alive (st.pid.getD 0) = true := by
    simp [Sys.alive, hpid, hr, ha]
  simp [runningQueue, hx.latest p r hr ha hf, hst, hstatus, halive]

/-- With no live runner, one submit in flight is all `Exclusive` asks for. -/
theorem exclusive_of_no_live {s : Sys} {i : Nat} (honly : ∀ j, InFlight s j → j = i)
    (hdead : ∀ p, ¬ Live s p) (hlatest : ∀ q, s.submits i = .wroteLatest q → s.latest = some q) :
    Exclusive s where
  inFlight := fun j k hj hk => (honly j hj).trans (honly k hk).symm
  inFlight_live := fun _ p _ => hdead p
  live := fun p _ hp => absurd hp (hdead p)
  wroteLatest := by
    intro j q hj
    have hji := honly j (Or.inr ⟨q, Or.inr hj⟩)
    subst hji
    exact hlatest q hj
  latest := fun p r hr ha hf => absurd ⟨r, hr, ha, hf⟩ (hdead p)
  recorded := fun p r hr ha hf => absurd ⟨r, hr, ha, hf⟩ (hdead p)

/-- A submit that is over leaves the turn to the others. -/
theorem exclusive_setSubmit_over {s : Sys} (hx : Exclusive s) (i : Nat) :
    Exclusive (s.setSubmit i .returned) where
  inFlight := fun j k hj hk =>
    hx.inFlight j k (inFlight_setSubmit_over hj).2 (inFlight_setSubmit_over hk).2
  inFlight_live := fun j p hj => hx.inFlight_live j p (inFlight_setSubmit_over hj).2
  live := hx.live
  wroteLatest := by
    intro j q hj
    by_cases hji : j = i
    · subst hji
      simp at hj
    · rw [setSubmit_other hji] at hj
      exact hx.wroteLatest j q hj
  latest := hx.latest
  recorded := hx.recorded

/-- A submit in flight that writes a file stays the only one, with no runner live. -/
theorem exclusive_inFlight_write {s t : Sys} {i : Nat} {ph : SubmitPhase} (hx : Exclusive s)
    (hi : InFlight s i) (hsub : t.submits = s.submits) (hrun : t.runners = s.runners)
    (hlatest : ∀ q, ph = .wroteLatest q → t.latest = some q) : Exclusive (t.setSubmit i ph) := by
  refine exclusive_of_no_live (i := i) ?_ ?_ ?_
  · intro j hj
    rcases inFlight_setSubmit hj with h | h
    · exact h
    · exact hx.inFlight j i (by unfold InFlight at h ⊢; rwa [hsub] at h) hi
  · rintro p ⟨r, hr, ha, hf⟩
    rw [setSubmit_runners, hrun] at hr
    exact hx.inFlight_live i p hi ⟨r, hr, ha, hf⟩
  · intro q hq
    rw [setSubmit_self] at hq
    exact hlatest q hq

/-- A step of one runner that starts no work and leaves every other runner's file alone. -/
theorem exclusive_setRunner {s t : Sys} {p : Pid} {r r' : Runner} (hx : Exclusive s)
    (hr : s.runners p = some r) (hsub : t.submits = s.submits) (hrun : t.runners = s.runners)
    (hlat : t.latest = s.latest) (hqid : r'.qid = r.qid)
    (hlive : r'.alive = true → r'.finished = false → r.alive = true ∧ r.finished = false)
    (hfiles : ∀ p' r₁, p' ≠ p → s.runners p' = some r₁ → r₁.alive = true → r₁.finished = false →
      t.files r₁.qid = s.files r₁.qid)
    (hown : r'.alive = true → r'.finished = false → r'.saved = true →
      ∃ st, t.files r.qid = some st ∧ st.pid = some p ∧
        (st.status = .running ∨ st.status = .waitingForSpot)) :
    Exclusive (t.setRunner p r') := by
  have hother : ∀ {p' r₁}, p' ≠ p → (t.setRunner p r').runners p' = some r₁ →
      s.runners p' = some r₁ := by
    intro p' r₁ hne h
    rwa [setRunner_other hne, hrun] at h
  have hback : ∀ p', Live (t.setRunner p r') p' → Live s p' := by
    rintro p' ⟨r₁, hr₁, ha, hf⟩
    by_cases hp : p' = p
    · subst hp
      rw [setRunner_self, Option.some.injEq] at hr₁
      subst hr₁
      exact ⟨r, hr, hlive ha hf⟩
    · exact ⟨r₁, hother hp hr₁, ha, hf⟩
  have hflight : ∀ j, InFlight (t.setRunner p r') j → InFlight s j := by
    intro j hj
    unfold InFlight at hj ⊢
    rwa [setRunner_submits, hsub] at hj
  refine ⟨fun i j hi hj => hx.inFlight i j (hflight i hi) (hflight j hj),
    fun i p' hi hp' => hx.inFlight_live i p' (hflight i hi) (hback p' hp'),
    fun p₁ p₂ h₁ h₂ => hx.live p₁ p₂ (hback p₁ h₁) (hback p₂ h₂), ?_, ?_, ?_⟩
  · intro i q hi
    rw [setRunner_latest, hlat]
    rw [setRunner_submits, hsub] at hi
    exact hx.wroteLatest i q hi
  · intro p' r₁ hr₁ ha hf
    rw [setRunner_latest, hlat]
    by_cases hp : p' = p
    · subst hp
      rw [setRunner_self, Option.some.injEq] at hr₁
      subst hr₁
      obtain ⟨ha', hf'⟩ := hlive ha hf
      rw [hqid]
      exact hx.latest p' r hr ha' hf'
    · exact hx.latest p' r₁ (hother hp hr₁) ha hf
  · intro p' r₁ hr₁ ha hf hs
    rw [setRunner_files]
    by_cases hp : p' = p
    · subst hp
      rw [setRunner_self, Option.some.injEq] at hr₁
      subst hr₁
      rw [hqid]
      exact hown ha hf hs
    · rw [hfiles p' r₁ hp (hother hp hr₁) ha hf]
      exact hx.recorded p' r₁ (hother hp hr₁) ha hf hs

/-- A careful step keeps the turn with at most one process. -/
theorem step_exclusive {s t : Sys} {a : Act} (hx : Exclusive s)
    (h : Guarded Step Careful s a t) : Exclusive t := by
  obtain ⟨hcareful, hstep⟩ := h
  cases hstep with
  | @checkPass i hi hq =>
    obtain ⟨hnone, hsaved⟩ := hcareful hq
    refine exclusive_of_no_live (i := i) ?_ ?_ ?_
    · intro j hj
      rcases inFlight_setSubmit hj with h | h
      · exact h
      · by_contra hne
        exact hnone j hne h
    · -- a live runner is recorded, so the check would have found it
      rintro p ⟨r, hr, ha, hf⟩
      obtain ⟨st, hst⟩ := runningQueue_of_live hx hr ha hf (hsaved p r hr ha hf)
      rw [hq] at hst
      cases hst
    · intro q hq'
      simp at hq'
  | @checkRefuse i _ hi hq => exact exclusive_setSubmit_over hx i
  | @writeState i q hi hf =>
    refine exclusive_inFlight_write hx (Or.inl hi) ?_ ?_ (fun q hq => ?_)
    · rfl
    · rfl
    · cases hq
  | @writeLatest i q hi =>
    refine exclusive_inFlight_write hx (Or.inr ⟨q, Or.inl hi⟩) ?_ ?_ (fun q' hq => ?_)
    · rfl
    · rfl
    · cases hq
      rfl
  | @spawn i q p hi hp h0 =>
    have hflight : InFlight s i := Or.inr ⟨q, Or.inr hi⟩
    have hnone : ∀ j, ¬ InFlight
        ((s.setRunner p { qid := q, alive := true, saved := false, finished := false }).setSubmit i
          .returned) j := by
      intro j hj
      obtain ⟨hne, h⟩ := inFlight_setSubmit_over hj
      exact hne (hx.inFlight j i h hflight)
    -- nobody was live before, so the new runner is the only one
    have honly : ∀ {p' r}, (s.setRunner p
        { qid := q, alive := true, saved := false, finished := false }).runners p' = some r →
        r.alive = true → r.finished = false → p' = p ∧ r.qid = q ∧ r.saved = false := by
      intro p' r hr ha hf
      by_cases hpp : p' = p
      · subst hpp
        rw [setRunner_self, Option.some.injEq] at hr
        subst hr
        exact ⟨rfl, rfl, rfl⟩
      · rw [setRunner_other hpp] at hr
        exact absurd ⟨r, hr, ha, hf⟩ (hx.inFlight_live i p' hflight)
    refine ⟨fun j _ hj => absurd hj (hnone j), fun j _ hj => absurd hj (hnone j), ?_,
      fun j q' hj => absurd (Or.inr ⟨q', Or.inr hj⟩) (hnone j), ?_, ?_⟩
    · rintro p₁ p₂ ⟨r₁, hr₁, ha₁, hf₁⟩ ⟨r₂, hr₂, ha₂, hf₂⟩
      exact (honly hr₁ ha₁ hf₁).1.trans (honly hr₂ ha₂ hf₂).1.symm
    · intro p' r hr ha hf
      rw [(honly hr ha hf).2.1]
      exact hx.wroteLatest i q hi
    · intro p' r hr ha hf hs
      rw [(honly hr ha hf).2.2] at hs
      cases hs
  | @interrupt i => exact exclusive_setSubmit_over hx i
  | @save p r status hr ha hf hst =>
    have hlive : Live s p := ⟨r, hr, ha, hf⟩
    refine exclusive_setRunner hx hr ?_ ?_ ?_ ?_ (fun _ _ => ⟨ha, hf⟩) ?_ ?_
    · rfl
    · rfl
    · rfl
    · rfl
    · intro p' r₁ hne hr₁ ha₁ hf₁
      exact absurd (hx.live p' p ⟨r₁, hr₁, ha₁, hf₁⟩ hlive) hne
    · exact fun _ _ _ => ⟨_, setFile_self, rfl, hst.imp_right And.left⟩
  | @finish p r hr ha hs hf =>
    have hlive : Live s p := ⟨r, hr, ha, hf⟩
    refine exclusive_setRunner hx hr ?_ ?_ ?_ ?_ ?_ ?_ ?_
    · rfl
    · rfl
    · rfl
    · rfl
    · exact fun _ h => absurd h (by simp)
    · intro p' r₁ hne hr₁ ha₁ hf₁
      exact absurd (hx.live p' p ⟨r₁, hr₁, ha₁, hf₁⟩ hlive) hne
    · exact fun _ h => absurd h (by simp)
  | @exit p r hr =>
    refine exclusive_setRunner hx hr ?_ ?_ ?_ ?_ ?_ ?_ ?_
    · rfl
    · rfl
    · rfl
    · rfl
    · exact fun h => absurd h (by simp)
    · exact fun _ _ _ _ _ _ => rfl
    · exact fun h => absurd h (by simp)

theorem exclusive_init : Exclusive Sys.init :=
  exclusive_of_no_live (i := 0) (fun j hj => by simp [InFlight, Sys.init] at hj)
    (fun p hp => by simp [Live, Sys.init] at hp) (fun q hq => by simp [Sys.init] at hq)

/-! ## A check that is not careful -/

/-- Only finitely many ids and pids are taken, so a fresh one is always at hand. -/
def Bounded (s : Sys) : Prop :=
  ∃ n, ∀ m, n ≤ m → s.files m = none ∧ s.runners m = none

theorem Bounded.setSubmit {s : Sys} (h : Bounded s) (i : Nat) (ph : SubmitPhase) :
    Bounded (s.setSubmit i ph) := h

theorem Bounded.setFile {s : Sys} (h : Bounded s) (q : Qid) (st : StateFile) :
    Bounded (s.setFile q st) := by
  obtain ⟨n, hn⟩ := h
  refine ⟨max n (q + 1), fun m hm => ?_⟩
  have hne : m ≠ q := Nat.ne_of_gt (Nat.lt_of_succ_le ((le_max_right _ _).trans hm))
  rw [setFile_other hne, setFile_runners]
  exact hn m ((le_max_left _ _).trans hm)

theorem Bounded.setRunner {s : Sys} (h : Bounded s) (p : Pid) (r : Runner) :
    Bounded (s.setRunner p r) := by
  obtain ⟨n, hn⟩ := h
  refine ⟨max n (p + 1), fun m hm => ?_⟩
  have hne : m ≠ p := Nat.ne_of_gt (Nat.lt_of_succ_le ((le_max_right _ _).trans hm))
  rw [setRunner_other hne, setRunner_files]
  exact hn m ((le_max_left _ _).trans hm)

theorem step_bounded {s t : Sys} {a : Act} (h : Bounded s) (hstep : Step s a t) : Bounded t := by
  cases hstep with
  | checkPass | checkRefuse | interrupt => exact h
  | writeState => exact h.setFile _ _
  | writeLatest => exact h
  | spawn => exact h.setRunner _ _
  | save => exact (h.setFile _ _).setRunner _ _
  | finish => exact (h.setFile _ _).setRunner _ _
  | exit => exact h.setRunner _ _

/-- From here submit `i` can go on to a live runner that was not live before. -/
def Spawns (s : Sys) (i : Nat) : Prop :=
  ∃ l t p, Run Step s l t ∧ Bounded t ∧ Live t p ∧ ¬ Live s p ∧ (∀ p', Live s p' → Live t p') ∧
    ∀ j, j ≠ i → t.submits j = s.submits j

/-- A step that only moves submit `i` on leaves what `Spawns` says. -/
theorem Spawns.of_step {s t : Sys} {a : Act} {i : Nat} (hstep : Step s a t)
    (hrun : t.runners = s.runners) (hsub : ∀ j, j ≠ i → t.submits j = s.submits j)
    (h : Spawns t i) : Spawns s i := by
  have hlive : ∀ p, Live t p ↔ Live s p := fun p => by unfold Live; rw [hrun]
  obtain ⟨l, u, p, hr, hb, hp, hnew, hkeep, hothers⟩ := h
  exact ⟨a :: l, u, p, hr.cons hstep, hb, hp, fun hs => hnew ((hlive p).mpr hs),
    fun p' hp' => hkeep p' ((hlive p').mpr hp'), fun j hj => (hothers j hj).trans (hsub j hj)⟩

theorem spawns_of_wroteLatest {s : Sys} {i : Nat} {q : Qid} (hb : Bounded s)
    (hi : s.submits i = .wroteLatest q) : Spawns s i := by
  obtain ⟨n, hn⟩ := hb
  -- pid 0 is the caller's own group, so the fresh pid is one above the bound
  have hfree : s.runners (n + 1) = none := (hn (n + 1) (Nat.le_succ n)).2
  refine ⟨_, _, n + 1, Run.single (Step.spawn hi hfree (Nat.succ_ne_zero n)),
    (Bounded.setRunner ⟨n, hn⟩ _ _).setSubmit _ _, ?_, ?_, ?_, fun j hj => setSubmit_other hj⟩
  · exact ⟨_, setRunner_self, rfl, rfl⟩
  · rintro ⟨r, hr, _⟩
    rw [hfree] at hr
    cases hr
  · rintro p' ⟨r, hr, ha, hf⟩
    have hne : p' ≠ n + 1 := by
      intro h
      rw [h, hfree] at hr
      cases hr
    exact ⟨r, by rw [setSubmit_runners, setRunner_other hne]; exact hr, ha, hf⟩

theorem spawns_of_wroteState {s : Sys} {i : Nat} {q : Qid} (hb : Bounded s)
    (hi : s.submits i = .wroteState q) : Spawns s i :=
  Spawns.of_step (Step.writeLatest hi) rfl (fun _ hj => setSubmit_other hj)
    (spawns_of_wroteLatest (q := q) (step_bounded hb (Step.writeLatest hi)) setSubmit_self)

theorem spawns_of_passed {s : Sys} {i : Nat} (hb : Bounded s) (hi : s.submits i = .passed) :
    Spawns s i := by
  obtain ⟨n, hn⟩ := hb
  have hstep := Step.writeState hi (hn n le_rfl).1
  exact Spawns.of_step hstep rfl (fun _ hj => setSubmit_other hj)
    (spawns_of_wroteState (q := n) (step_bounded ⟨n, hn⟩ hstep) setSubmit_self)

theorem spawns_of_inFlight {s : Sys} {i : Nat} (hb : Bounded s) (hi : InFlight s i) :
    Spawns s i := by
  rcases hi with hi | ⟨q, hi | hi⟩
  · exact spawns_of_passed hb hi
  · exact spawns_of_wroteState hb hi
  · exact spawns_of_wroteLatest hb hi

/-- A check that passes though it is not careful can end in two live runners. -/
theorem two_of_careless {s : Sys} {i : Nat} (hb : Bounded s) (hi : s.submits i = .ready)
    (hbad : ¬ Careful s (.check i)) : ∃ l t, Run Step s (.check i :: l) t ∧ ¬ OneQueue t := by
  have hq : runningQueue s = none := by
    by_contra hne
    exact hbad fun h => absurd h hne
  have hcheck := Step.checkPass hi hq
  have hpassed : (s.setSubmit i .passed).submits i = .passed := setSubmit_self
  have hboth : ¬ ((∀ j, j ≠ i → ¬ InFlight s j) ∧
      ∀ p r, s.runners p = some r → r.alive = true → r.finished = false → r.saved = true) :=
    fun h => hbad fun _ => h
  -- either way somebody else holds the turn: spawn that runner first, if it is not live yet
  have hother : ∃ l t p, Run Step (s.setSubmit i .passed) l t ∧ Bounded t ∧ Live t p ∧
      t.submits i = .passed := by
    rcases not_and_or.mp hboth with h | h
    · push Not at h
      obtain ⟨j, hji, hj⟩ := h
      have hj' : InFlight (s.setSubmit i .passed) j := by
        unfold InFlight at hj ⊢
        rwa [setSubmit_other hji]
      obtain ⟨l, t, p, hr, hb', hp, _, _, hsub⟩ := spawns_of_inFlight (hb.setSubmit i .passed) hj'
      exact ⟨l, t, p, hr, hb', hp, (hsub i (Ne.symm hji)).trans hpassed⟩
    · push Not at h
      obtain ⟨p, r, hr, ha, hf, _⟩ := h
      exact ⟨[], _, p, Run.nil, hb.setSubmit i .passed, ⟨r, hr, ha, hf⟩, hpassed⟩
  obtain ⟨l, t, p, hr, hb', hp, hpass⟩ := hother
  obtain ⟨l', u, p', hr', _, hp', hnew, hkeep, _⟩ := spawns_of_passed hb' hpass
  refine ⟨l ++ l', u, (hr.append hr').cons hcheck, fun hone => ?_⟩
  have heq := hone p p' (hkeep p hp) hp'
  subst heq
  exact hnew hp

/--
**Two queues never run at once while every check is careful, and a check that is not can end
in two.**
-/
theorem one_queue_of_careful (l : List Act) (s : Sys)
    (h : Run (Guarded Step Careful) Sys.init l s) :
    OneQueue s ∧ ∀ i, s.submits i = .ready → ¬ Careful s (.check i) →
      ∃ l' t, Run Step s (.check i :: l') t ∧ ¬ OneQueue t := by
  have hx : Exclusive s := h.invariant exclusive_init fun _ _ _ hx hstep => step_exclusive hx hstep
  have hb : Bounded s := h.of_guarded.invariant ⟨0, fun _ _ => ⟨rfl, rfl⟩⟩
    fun _ _ _ hb hstep => step_bounded hb hstep
  exact ⟨hx.live, fun i hi hbad => two_of_careless hb hi hbad⟩

/-- One submit on its own checks carefully, and its runner is the only one. -/
theorem one_queue_of_careful_alone :
    OneQueue (Sys.init.setSubmit 0 .passed) := by
  refine (one_queue_of_careful [.check 0] _ (Run.single ⟨fun _ => ⟨?_, ?_⟩,
    Step.checkPass rfl rfl⟩)).1
  · exact fun j _ hj => by simp [InFlight, Sys.init] at hj
  · exact fun p r hr => by simp [Sys.init] at hr

/-- Two submits check before either writes anything: both pass, and both spawn a runner. -/
theorem two_queues_run : ¬ ∀ l s, Run Step Sys.init l s → OneQueue s := by
  intro h
  have hcheck : Step Sys.init (.check 0) (Sys.init.setSubmit 0 .passed) := Step.checkPass rfl rfl
  have hb : Bounded (Sys.init.setSubmit 0 .passed) := ⟨0, fun _ _ => ⟨rfl, rfl⟩⟩
  have hready : (Sys.init.setSubmit 0 .passed).submits 1 = .ready := rfl
  have hcareless : ¬ Careful (Sys.init.setSubmit 0 .passed) (.check 1) := fun hc =>
    (hc rfl).1 0 (by decide) (Or.inl rfl)
  obtain ⟨l, t, hr, htwo⟩ := two_of_careless hb hready hcareless
  exact htwo (h _ t (hr.cons hcheck))

end Queue
