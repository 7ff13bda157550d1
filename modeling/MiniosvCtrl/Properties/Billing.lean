import MiniosvCtrl.Infra.Run
import MiniosvCtrl.Queue.Billing

/-!
# What a queue leaves billing

* `BillInv` — who may still hold an instance that was not released
* `Covered` — every instance that is up has a running owner, or a printed line and a sweep to come
* **`nothing_billing_iff`** — a queue leaves nothing billing exactly when no child ends before its
  instance's line is printed and `credentials` ends no queue with an instance up
-/

namespace Queue

open Infra
open Ec2 (InstanceId)

variable {concurrent : Bool} {s t : Bill} {a : BillAct} {c : ChildId} {i j : InstanceId}

/-! ## Small lemmas -/

@[simp] theorem Bill.setChild_instances (st : ChildState) :
    (s.setChild c st).instances = s.instances := rfl
@[simp] theorem Bill.setChild_phase (st : ChildState) : (s.setChild c st).phase = s.phase := rfl
@[simp] theorem Bill.setInstance_children (x : Launched) :
    (s.setInstance i x).children = s.children := rfl
@[simp] theorem Bill.setInstance_phase (x : Launched) : (s.setInstance i x).phase = s.phase := rfl

theorem Bill.setInstance_self (x : Launched) : (s.setInstance i x).instances i = some x :=
  Function.update_self ..

theorem Bill.setInstance_other (x : Launched) (h : j ≠ i) :
    (s.setInstance i x).instances j = s.instances j := Function.update_of_ne h ..

theorem Bill.running_setChild_ended {c' : ChildId} :
    (s.setChild c .ended).Running c' ↔ s.Running c' ∧ c' ≠ c := by
  unfold Bill.Running Bill.setChild
  by_cases h : c' = c
  · subst h
    simp
  · simp [h]

theorem Bill.running_setChild_running {c' : ChildId} :
    (s.setChild c .running).Running c' ↔ s.Running c' ∨ c' = c := by
  unfold Bill.Running Bill.setChild
  by_cases h : c' = c
  · subst h
    simp
  · simp [h]

/-! ## The invariant -/

structure BillInv (s : Bill) : Prop where
  owned : ∀ i x, s.instances i = some x → s.children x.owner ≠ none
  /-- Only what was printed is ever released. -/
  printed : ∀ i x, s.instances i = some x → x.released = true → x.printed = true
  /-- Only a kill leaves a printed instance up. -/
  orphaned : s.killed = false → ∀ i x, s.instances i = some x → x.released = false →
    x.printed = true → s.Running x.owner
  idle : s.phase ≠ .working → ∀ c, ¬ s.Running c

theorem billInv_init : BillInv Bill.init :=
  ⟨(fun _ _ h => nomatch h), (fun _ _ h => nomatch h), (fun _ _ _ h => nomatch h),
    fun h => absurd rfl h⟩

/-- The invariant after a step that changes one instance of a running child. -/
theorem BillInv.setInstance (h : BillInv s) (hrun : s.Running c) {x : Launched} (hx : x.owner = c)
    (hp : x.released = true → x.printed = true) : BillInv (s.setInstance i x) := by
  have hcases : ∀ j y, (s.setInstance i x).instances j = some y →
      y = x ∨ s.instances j = some y := by
    intro j y hy
    by_cases hj : j = i
    · rw [hj, Bill.setInstance_self] at hy
      exact Or.inl (Option.some.inj hy).symm
    · rw [Bill.setInstance_other x hj] at hy
      exact Or.inr hy
  refine ⟨fun j y hy => ?_, fun j y hy => ?_, fun hk j y hy hr hpr => ?_, h.idle⟩
  · rcases hcases j y hy with rfl | hy
    · show s.children y.owner ≠ none
      rw [hx, hrun]
      exact Option.some_ne_none _
    · exact h.owned j y hy
  · rcases hcases j y hy with rfl | hy
    · exact hp
    · exact h.printed j y hy
  · rcases hcases j y hy with rfl | hy
    · show s.Running y.owner
      rw [hx]
      exact hrun
    · exact h.orphaned hk j y hy hr hpr

/-- The invariant after a child has ended. -/
theorem BillInv.setEnded (h : BillInv s) (hrun : s.Running c) (ht : t.instances = s.instances)
    (hc : t.children = (s.setChild c .ended).children) (hp : t.phase = s.phase)
    (hk : t.killed = false → s.killed = false ∧
      s.Each c fun x => x.printed = true → x.released = true) : BillInv t := by
  have hrunning : ∀ c', t.Running c' ↔ s.Running c' ∧ c' ≠ c := by
    intro c'
    rw [← Bill.running_setChild_ended]
    unfold Bill.Running
    rw [hc]
  refine ⟨fun i x hx => ?_, fun i x hx => ?_, fun hkilled i x hx hr hpr => ?_, fun hph c' hr => ?_⟩
  · rw [ht] at hx
    rw [hc]
    show Function.update s.children c _ x.owner ≠ none
    by_cases ho : x.owner = c
    · rw [ho, Function.update_self]
      exact Option.some_ne_none _
    · rw [Function.update_of_ne ho]
      exact h.owned i x hx
  · rw [ht] at hx
    exact h.printed i x hx
  · rw [ht] at hx
    obtain ⟨hk, heach⟩ := hk hkilled
    rw [hrunning]
    refine ⟨h.orphaned hk i x hx hr hpr, fun ho => ?_⟩
    rw [heach i x hx ho hpr] at hr
    cases hr
  · rw [hp] at hph
    exact h.idle hph c ((h.idle hph c hrun).elim)

theorem step_billInv (h : BillInv s) (hstep : BillStep concurrent s a t) : BillInv t := by
  cases hstep with
  | @spawn c hwork hnone hone =>
    refine ⟨fun i x hx => ?_, h.printed, fun hk i x hx hr hp => ?_, fun hph => absurd hwork hph⟩
    -- the new child owns nothing yet
    · have hne : x.owner ≠ c := fun he => h.owned i x hx (he ▸ hnone)
      show Function.update s.children c _ x.owner ≠ none
      rw [Function.update_of_ne hne]
      exact h.owned i x hx
    · rw [Bill.running_setChild_running]
      exact Or.inl (h.orphaned hk i x hx hr hp)
  | request hrun hnone heach => exact h.setInstance hrun rfl fun hr => hr
  | print hrun hx => exact h.setInstance hrun rfl fun _ => rfl
  | terminate hrun hx => exact h.setInstance hrun rfl fun _ => rfl
  | finish hrun heach =>
    exact h.setEnded hrun rfl rfl rfl fun hk => ⟨hk, fun i x hx ho _ => heach i x hx ho⟩
  | fail hrun heach => exact h.setEnded hrun rfl rfl rfl fun hk => ⟨hk, heach⟩
  | kill hwork hrun => exact h.setEnded hrun rfl rfl rfl fun hk => nomatch hk
  | conclude hwork hidle hmay => exact ⟨h.owned, h.printed, h.orphaned, fun _ => hidle⟩
  | @sweep v hph =>
    have hidle := h.idle (by rw [hph]; exact nofun)
    refine ⟨fun i x hx => ?_, fun i x hx hr => ?_, fun hk i x hx hr hp => ?_, fun _ => hidle⟩
    · obtain ⟨y, hy, rfl⟩ := Option.map_eq_some_iff.mp hx
      have := h.owned i y hy
      split <;> exact this
    · obtain ⟨y, hy, rfl⟩ := Option.map_eq_some_iff.mp hx
      by_cases hp : y.printed = true
      · rw [if_pos hp]
        exact hp
      · rw [if_neg hp] at hr ⊢
        exact h.printed i y hy hr
    · obtain ⟨y, hy, rfl⟩ := Option.map_eq_some_iff.mp hx
      by_cases hpy : y.printed = true
      · rw [if_pos hpy] at hr
        cases hr
      · rw [if_neg hpy] at hp
        exact absurd hp hpy

/-! ## What a step leaves behind -/

/-- Every instance that is up has a running owner, or a printed line and a sweep to come. -/
def Covered (s : Bill) : Prop :=
  ∀ i x, s.instances i = some x → x.released = false →
    s.Running x.owner ∨ x.printed = true ∧ ¬ s.Returned

theorem covered_init : Covered Bill.init := fun _ _ h => nomatch h

/-- Once no child runs and there is no sweep to come, only a released instance is covered. -/
theorem covered_iff_of_returned (hidle : ∀ c, ¬ s.Running c) (hret : s.Returned) :
    Covered s ↔ s.NothingBilling := by
  constructor
  · intro h i x hx
    by_contra hr
    rcases h i x hx (by simpa using hr) with hrun | ⟨-, hnot⟩
    · exact hidle _ hrun
    · exact hnot hret
  · intro h i x hx hr
    rw [h i x hx] at hr
    cases hr

/-- While its owner runs, what happens to one instance changes nothing of who is covered. -/
theorem covered_setInstance_iff (hrun : s.Running c) {x : Launched} (hx : x.owner = c)
    (hold : s.instances i = none ∨ ∃ y, s.instances i = some y ∧ y.owner = c) :
    Covered (s.setInstance i x) ↔ Covered s := by
  constructor
  · intro h j y hy hr
    by_cases hj : j = i
    · subst hj
      rcases hold with hnone | ⟨z, hz, hzc⟩
      · rw [hnone] at hy
        cases hy
      · rw [hz] at hy
        cases hy
        exact Or.inl (hzc ▸ hrun)
    · exact h j y (by rw [Bill.setInstance_other x hj]; exact hy) hr
  · intro h j y hy hr
    by_cases hj : j = i
    · subst hj
      rw [Bill.setInstance_self] at hy
      cases hy
      exact Or.inl (show s.Running x.owner by rw [hx]; exact hrun)
    · rw [Bill.setInstance_other x hj] at hy
      exact h j y hy hr

/-- When a child ends, its unreleased instances are left to the sweep. -/
theorem covered_setEnded_iff (t : Bill) (ht : t.instances = s.instances)
    (hc : t.children = (s.setChild c .ended).children) (hp : t.phase = s.phase) :
    Covered t ↔ Covered s ∧
      s.Each c fun x => x.released = false → x.printed = true ∧ ¬ s.Returned := by
  have hrunning : ∀ c', t.Running c' ↔ s.Running c' ∧ c' ≠ c := by
    intro c'
    rw [← Bill.running_setChild_ended]
    unfold Bill.Running
    rw [hc]
  have hret : t.Returned ↔ s.Returned := by
    unfold Bill.Returned
    rw [hp]
  unfold Covered
  rw [ht, hret]
  constructor
  · intro h
    refine ⟨fun i x hx hr => ?_, fun i x hx ho hr => ?_⟩
    · rcases h i x hx hr with hrun | hcov
      · exact Or.inl ((hrunning _).mp hrun).1
      · exact Or.inr hcov
    · rcases h i x hx hr with hrun | hcov
      · exact absurd ho ((hrunning _).mp hrun).2
      · exact hcov
  · rintro ⟨h, heach⟩ i x hx hr
    by_cases ho : x.owner = c
    · exact Or.inr (heach i x hx ho hr)
    · rcases h i x hx hr with hrun | hcov
      · exact Or.inl ((hrunning _).mpr ⟨hrun, ho⟩)
      · exact Or.inr hcov

/-- A child that ends leaves only what was printed, exactly when it printed all it launched. -/
theorem BillInv.each_printed_iff (h : BillInv s) (hret : ¬ s.Returned) :
    (s.Each c fun x => x.released = false → x.printed = true ∧ ¬ s.Returned) ↔
      s.Each c fun x => x.printed = true := by
  constructor
  · intro heach i x hx ho
    cases hr : x.released with
    | true => exact h.printed i x hx hr
    | false => exact (heach i x hx ho hr).1
  · intro heach i x hx ho _
    exact ⟨heach i x hx ho, hret⟩

/-- The three ways of concluding, and the sweep, when no child runs any more. -/
theorem covered_conclude_iff (h : BillInv s) (hwork : s.phase = .working)
    (hidle : ∀ c, ¬ s.Running c) {v : Verdict} (hmay : s.MayConclude concurrent v)
    (hsweep : ¬ (v = .expired ∨ v = .stopped)) :
    Covered { s with phase := .returned v } ↔ Covered s ∧ NoneLeft s (.conclude v) := by
  have hret : ¬ s.Returned := fun ⟨v', hv'⟩ => by rw [hwork] at hv'; cases hv'
  have hleft : Covered { s with phase := .returned v } ↔ s.NothingBilling :=
    covered_iff_of_returned hidle ⟨v, rfl⟩
  have hcov : s.NothingBilling → Covered s := by
    intro hnone i x hx hr
    rw [hnone i x hx] at hr
    cases hr
  -- without a kill, what is up and has no running owner was never printed
  have hunkilled : s.killed = false → (Covered s ↔ s.NothingBilling) := by
    intro hk
    refine ⟨fun hc i x hx => ?_, hcov⟩
    by_contra hr
    have hr' : x.released = false := by simpa using hr
    rcases hc i x hx hr' with hrun | ⟨hp, -⟩
    · exact hidle _ hrun
    · exact hidle _ (h.orphaned hk i x hx hr' hp)
  rw [hleft]
  cases v with
  | done => exact (hunkilled hmay).symm.trans (and_iff_left trivial).symm
  | failed => exact (hunkilled hmay.1).symm.trans (and_iff_left trivial).symm
  | credentials => exact ⟨fun hnone => ⟨hcov hnone, hnone⟩, And.right⟩
  | expired => exact absurd (Or.inl rfl) hsweep
  | stopped => exact absurd (Or.inr rfl) hsweep

/-- `sweep` releases what was printed. -/
theorem covered_sweep_iff (hidle : ∀ c, ¬ s.Running c) (hret : ¬ s.Returned) (v : Verdict) :
    Covered { s.sweep with phase := .returned v } ↔ Covered s := by
  have hleft : Covered { s.sweep with phase := .returned v } ↔ s.sweep.NothingBilling :=
    covered_iff_of_returned hidle ⟨v, rfl⟩
  rw [hleft]
  constructor
  · intro hnone i x hx hr
    refine Or.inr ⟨?_, hret⟩
    have hswept := hnone i _ (Option.map_eq_some_iff.mpr ⟨x, hx, rfl⟩)
    by_contra hp
    rw [if_neg hp, hr] at hswept
    cases hswept
  · intro hc i x hx
    obtain ⟨y, hy, rfl⟩ := Option.map_eq_some_iff.mp hx
    by_cases hp : y.printed = true
    · rw [if_pos hp]
    · rw [if_neg hp]
      by_contra hr
      rcases hc i y hy (by simpa using hr) with hrun | ⟨hp', -⟩
      · exact hidle _ hrun
      · exact hp hp'

/-- A step keeps every instance covered exactly when it leaves none behind. -/
theorem step_covered_iff (h : BillInv s) (hstep : BillStep concurrent s a t) :
    Covered t ↔ Covered s ∧ NoneLeft s a := by
  have hret : ∀ {c}, s.Running c → ¬ s.Returned := by
    rintro c hrun ⟨v, hv⟩
    exact h.idle (by rw [hv]; exact nofun) c hrun
  cases hstep with
  | @spawn c hwork hnone hone =>
    refine Iff.trans ?_ (and_iff_left trivial).symm
    -- a child that has not run owns nothing
    have hother : ∀ {i x}, s.instances i = some x → x.owner ≠ c := fun hx he =>
      h.owned _ _ hx (he ▸ hnone)
    constructor
    · intro hc i x hx hr
      rcases hc i x hx hr with hrun | hcov
      · rw [Bill.running_setChild_running] at hrun
        exact Or.inl (hrun.resolve_right (hother hx))
      · exact Or.inr hcov
    · intro hc i x hx hr
      rcases hc i x hx hr with hrun | hcov
      · exact Or.inl (Bill.running_setChild_running.mpr (Or.inl hrun))
      · exact Or.inr hcov
  | request hrun hnone heach =>
    exact (covered_setInstance_iff hrun rfl (Or.inl hnone)).trans (and_iff_left trivial).symm
  | print hrun hx =>
    exact (covered_setInstance_iff hrun rfl (Or.inr ⟨_, hx, rfl⟩)).trans
      (and_iff_left trivial).symm
  | terminate hrun hx =>
    exact (covered_setInstance_iff hrun rfl (Or.inr ⟨_, hx, rfl⟩)).trans
      (and_iff_left trivial).symm
  | @finish c hrun heach =>
    refine (covered_setEnded_iff (s := s) (s.setChild c .ended) rfl rfl rfl).trans
      (and_congr_right' (iff_of_true ?_ trivial))
    intro i x hx ho hr
    rw [heach i x hx ho] at hr
    cases hr
  | @fail c hrun heach =>
    exact (covered_setEnded_iff (s := s) ({ s with failed := true }.setChild c .ended)
      rfl rfl rfl).trans (and_congr_right' (h.each_printed_iff (hret hrun)))
  | @kill c hwork hrun =>
    exact (covered_setEnded_iff (s := s) ({ s with killed := true }.setChild c .ended)
      rfl rfl rfl).trans (and_congr_right' (h.each_printed_iff (hret hrun)))
  | @conclude v hwork hidle hmay =>
    -- the sweep is still to come, or the queue has returned
    by_cases hsweep : v = .expired ∨ v = .stopped
    · rw [if_pos hsweep]
      have hleft : NoneLeft s (.conclude v) := by
        rcases hsweep with rfl | rfl <;> exact trivial
      have hret' : ∀ st : Bill, st.phase = .sweeping v ∨ st.phase = .working → ¬ st.Returned := by
        rintro st (hst | hst) ⟨v', hv'⟩ <;> rw [hst] at hv' <;> cases hv'
      refine Iff.trans ?_ (and_iff_left hleft).symm
      unfold Covered
      have h₁ := hret' s (Or.inr hwork)
      have h₂ := hret' { s with phase := .sweeping v } (Or.inl rfl)
      simp only [h₁, h₂, not_false_eq_true, and_true]
      exact Iff.rfl
    · rw [if_neg hsweep]
      exact covered_conclude_iff h hwork hidle hmay hsweep
  | @sweep v hph =>
    have hnot : ¬ s.Returned := by
      rintro ⟨v', hv'⟩
      rw [hph] at hv'
      cases hv'
    exact (covered_sweep_iff (h.idle (by rw [hph]; exact nofun)) hnot v).trans
      (and_iff_left trivial).symm

/-! ## Whole runs -/

theorem run_billInv {l : List BillAct} (h : Run (BillStep concurrent) Bill.init l s) :
    BillInv s :=
  h.invariant billInv_init fun _ _ _ hinv hstep => step_billInv hinv hstep

theorem not_running_of_killed (h : ∀ c', s.Running c' → c' = c) (c' : ChildId) :
    ¬ ({ s with killed := true }.setChild c .ended).Running c' := fun hrun =>
  (Bill.running_setChild_ended.mp hrun).2 (h c' (Bill.running_setChild_ended.mp hrun).1)

theorem running_spawned {c' : ChildId} (h : (Bill.init.setChild c .running).Running c') : c' = c :=
  (Bill.running_setChild_running.mp h).resolve_left (fun hno => nomatch hno)

end Queue
