import MiniosvCtrl.Properties.WorkerClock

/-!
# The window of `WIRE STEADY`

The window runs from the last worker's clock to the time left in `first_idle`.

* `Steady` — in the window every thread has drawn a block and none has found the pool empty
* `Sharp` — a thread has drawn a block before it finds the pool empty, and what is stored in
  `first_idle` was read before any thread found it empty
* **`steady_of_sharp`** — runs of such steps are steady, and where the window is not empty no
  others are
-/

namespace LinuxS3

open Infra

variable {c : Config} {s t : State c} {ev : Event c} {l : List (Event c)} {i : Slot c}

/-! ## The window -/

/-- The step finds the pool empty. -/
def Event.Drains (ev : Event c) : Prop := ∃ b, ev.act = .fetch b ∧ ¬ b < c.totalBlocks

/-- The thread has drawn its first block by the time. -/
def Entered (i : Slot c) (l : List (Event c)) (time : Nat) : Prop :=
  ∃ ev ∈ l, ev.slot = i ∧ ev.draws ≠ [] ∧ ev.now ≤ time

/-- The thread has found the pool empty by the time. -/
def Emptied (i : Slot c) (l : List (Event c)) (time : Nat) : Prop :=
  ∃ ev ∈ l, ev.slot = i ∧ ev.Drains ∧ ev.now ≤ time

/-- In the window every thread is inside its block loop. -/
def Steady (l : List (Event c)) (s : State c) : Prop :=
  ∀ time, s.full ≤ time → time < s.firstIdle → ∀ i, Entered i l time ∧ ¬ Emptied i l time

/-- What the edges of the window need of a step, after the steps taken so far. -/
structure Sharp (p : List (Event c) × State c) (ev : Event c) : Prop where
  drew : ev.Drains → p.2.outs ev.slot ≠ []
  first : ev.act = .publish → p.2.firstIdle = 0 → ∀ time, p.2.phase ev.slot = .idling time →
    ∀ e ∈ p.1, e.Drains → time ≤ e.now

/-! ## What sharp steps keep -/

/-- A reading is never ahead of the clock. -/
structure Read (s : State c) : Prop where
  idling : ∀ i time, s.phase i = .idling time → time ≤ s.clock
  stored : s.firstIdle ≤ s.clock

/-- What sharp steps keep. -/
structure Sharpened (l : List (Event c)) (s : State c) : Prop where
  drew : ∀ i, (s.phase i).ended → s.outs i ≠ []
  first : s.firstIdle ≠ 0 → ∀ e ∈ l, e.Drains → s.firstIdle ≤ e.now

theorem Step.clock (h : Step s ev t) : s.clock ≤ ev.now ∧ t.clock = ev.now := by
  cases h <;> exact ⟨‹_›, rfl⟩

theorem Step.firstIdle_eq (h : Step s ev t) (hact : ev.act ≠ .publish) :
    t.firstIdle = s.firstIdle := by
  cases h with
  | publish => exact absurd rfl hact
  | _ => rfl

theorem Step.publishes (h : Step s ev t) (hact : ev.act = .publish) :
    ∃ time, s.phase ev.slot = .idling time ∧
      t.firstIdle = if s.firstIdle = 0 then time else s.firstIdle := by
  cases h with
  | publish hclock hph => exact ⟨_, hph, rfl⟩
  | _ => cases hact

/-- A thread that reads the clock reads it as it is. -/
theorem Step.idling_of (h : Step s ev t) {time : Nat} (hph' : t.phase ev.slot = .idling time) :
    time = ev.now := by
  cases h with
  | look hclock hph =>
    rw [State.tick_phase, State.setPhase_self] at hph'
    cases hph'
    rfl
  | draw hclock hph hlt =>
    rw [State.tick_phase, State.setPhase_self] at hph'
    split at hph' <;> cases hph'
  | publish hclock hph =>
    rw [State.tick_phase, State.setPhase_self] at hph'
    split at hph' <;> cases hph'
  | @arriveLead i now blk b hclock hph hwait =>
    rw [State.tick_phase, State.setPhase_self] at hph'
    cases blk <;> cases hph'
  | @wake i now g blk hclock hph hgen =>
    rw [State.tick_phase, State.setPhase_self] at hph'
    cases blk <;> cases hph'
  | _ =>
    rw [State.tick_phase, State.setPhase_self] at hph'
    cases hph'

theorem step_read (hread : Read s) (h : Step s ev t) : Read t := by
  obtain ⟨hle, hclock⟩ := h.clock
  refine ⟨fun i time hph => ?_, ?_⟩
  · rw [hclock]
    by_cases hi : i = ev.slot
    · subst hi
      exact (h.idling_of hph).le
    · rw [(h.other hi).1] at hph
      exact (hread.idling i time hph).trans hle
  · rw [hclock]
    by_cases hact : ev.act = .publish
    · obtain ⟨time, hph, hidle⟩ := h.publishes hact
      rw [hidle]
      split
      · exact (hread.idling _ time hph).trans hle
      · exact hread.stored.trans hle
    · rw [h.firstIdle_eq hact]
      exact hread.stored.trans hle

theorem run_read (h : Run Step (State.init c) l s) : Read s := by
  refine h.invariant ⟨fun i time hph => ?_, Nat.le_refl 0⟩ fun _ _ _ => step_read
  cases hph

/-- A thread past the loop has no more outcomes. -/
theorem Step.outs_of_ended (h : Step s ev t) (hended : (s.phase ev.slot).ended) :
    t.outs ev.slot = s.outs ev.slot := by
  cases h with
  | finish hclock hph =>
    rw [hph] at hended
    exact hended.elim
  | _ => rfl

theorem Step.of_drains (h : Step s ev t) (hd : ev.Drains) :
    ¬ (s.phase ev.slot).ended ∧ (t.phase ev.slot).ended ∧ t.outs ev.slot = s.outs ev.slot := by
  obtain ⟨b, hb, hnlt⟩ := hd
  cases h with
  | draw hclock hph hlt =>
    cases hb
    exact absurd hlt hnlt
  | drain hclock hph hle =>
    refine ⟨by rw [hph]; exact id, ?_, rfl⟩
    rw [State.tick_phase, State.setPhase_self]
    trivial
  | _ => cases hb

/-- The threads past the loop have drawn a block, if a step takes none there without one. -/
theorem Step.drew_iff (h : Step s ev t) :
    (∀ i, (t.phase i).ended → t.outs i ≠ []) ↔
      (∀ i, (s.phase i).ended → s.outs i ≠ []) ∧ (ev.Drains → s.outs ev.slot ≠ []) := by
  constructor
  · intro hall
    refine ⟨fun i hended => ?_, fun hd => ?_⟩
    · by_cases hi : i = ev.slot
      · subst hi
        rw [← h.outs_of_ended hended]
        refine hall _ ((h.ended_own fun b hb => ?_).mpr hended)
        by_contra hnlt
        exact (h.of_drains ⟨b, hb, hnlt⟩).1 hended
      · rw [← (h.other hi).2]
        exact hall i ((h.other hi).1 ▸ hended)
    · obtain ⟨-, hended, houts⟩ := h.of_drains hd
      rw [← houts]
      exact hall _ hended
  · rintro ⟨hall, hown⟩ i hended
    by_cases hi : i = ev.slot
    · subst hi
      by_cases hd : ev.Drains
      · rw [(h.of_drains hd).2.2]
        exact hown hd
      · have hbefore := (h.ended_own fun b hb => by_contra fun hnlt => hd ⟨b, hb, hnlt⟩).mp hended
        rw [h.outs_of_ended hbefore]
        exact hall _ hbefore
    · rw [(h.other hi).2]
      exact hall i ((h.other hi).1 ▸ hended)

/-- `first_idle` comes before all findings of the empty pool, if what a step stores there does. -/
theorem Step.first_iff (hread : Read s) (h : Step s ev t) :
    (t.firstIdle ≠ 0 → ∀ e ∈ l ++ [ev], e.Drains → t.firstIdle ≤ e.now) ↔
      (s.firstIdle ≠ 0 → ∀ e ∈ l, e.Drains → s.firstIdle ≤ e.now) ∧
      (ev.act = .publish → s.firstIdle = 0 → ∀ time, s.phase ev.slot = .idling time →
        ∀ e ∈ l, e.Drains → time ≤ e.now) := by
  by_cases hact : ev.act = .publish
  · obtain ⟨time, hph, hidle⟩ := h.publishes hact
    have hown : ∀ e ∈ l ++ [ev], e.Drains → e ∈ l := by
      intro e he hd
      refine (List.mem_append.mp he).resolve_right fun hlast => ?_
      obtain ⟨b, hb, -⟩ := hd
      rw [List.mem_singleton.mp hlast, hact] at hb
      cases hb
    rw [hidle]
    split
    · next hzero =>
      -- the reading is stored
      constructor
      · refine fun hall => ⟨fun hne => absurd hzero hne, fun _ _ time' hph' e he hd => ?_⟩
        obtain rfl : time = time' := by
          rw [hph] at hph'
          cases hph'
          rfl
        by_cases htime : time = 0
        · omega
        · exact hall htime e (List.mem_append_left _ he) hd
      · rintro ⟨-, hfirst⟩ - e he hd
        exact hfirst hact hzero time hph e (hown e he hd) hd
    · next hne =>
      constructor
      · exact fun hall => ⟨fun _ e he => hall hne e (List.mem_append_left _ he),
          fun _ hzero => absurd hzero hne⟩
      · rintro ⟨hfirst, -⟩ - e he hd
        exact hfirst hne e (hown e he hd) hd
  · rw [h.firstIdle_eq hact, and_iff_left fun he => absurd he hact]
    refine forall_congr' fun _ => ⟨fun hall e he => hall e (List.mem_append_left _ he), ?_⟩
    intro hall e he hd
    rcases List.mem_append.mp he with he | he
    · exact hall e he hd
    · -- the clock is past what is stored
      rw [List.mem_singleton.mp he]
      exact hread.stored.trans h.clock.1

theorem sharpened_init : Sharpened [] (State.init c) :=
  ⟨fun _ hended => absurd hended id, fun _ e he => by cases he⟩

/-- The steps of a run are sharp exactly if it ends sharpened. -/
theorem sharpened_iff (h : Run Step (State.init c) l s) :
    Sharpened l s ↔ Run (Guarded (Logged Step) Sharp) ([], State.init c) l (l, s) := by
  refine Run.iff_guarded_along (fun _ (p : List (Event c) × State c) => Sharpened p.1 p.2)
    sharpened_init ?_ h.logged
  rintro l' ⟨l, s⟩ ev ⟨_, t⟩ hlogged ⟨hstep, rfl⟩
  have hread : Read s := run_read (Run.of_logged hlogged).2
  have hdrew := Step.drew_iff hstep
  have hfirst := Step.first_iff (l := l) hread hstep
  constructor
  · rintro ⟨hd, hf⟩
    exact ⟨⟨(hdrew.mp hd).1, (hfirst.mp hf).1⟩, (hdrew.mp hd).2, (hfirst.mp hf).2⟩
  · rintro ⟨⟨hd, hf⟩, hd', hf'⟩
    exact ⟨hdrew.mpr ⟨hd, hd'⟩, hfirst.mpr ⟨hf, hf'⟩⟩

/-! ## The edges of the window -/

theorem exists_draw (h : drawnBy i l ≠ []) : ∃ ev ∈ l, ev.slot = i ∧ ev.draws ≠ [] := by
  obtain ⟨b, hb⟩ := List.exists_mem_of_ne_nil _ h
  obtain ⟨d, hd, -⟩ := List.mem_map.mp hb
  obtain ⟨hd, hslot⟩ := List.mem_filter.mp hd
  obtain ⟨⟨j, act, now⟩, hev, hsome⟩ := List.mem_filterMap.mp hd
  refine ⟨_, hev, ?_⟩
  cases act with
  | fetch b' =>
    by_cases hlt : b' < c.totalBlocks
    · simp only [if_pos hlt, Option.some.injEq] at hsome
      subst hsome
      exact ⟨of_decide_eq_true hslot, by simp [Event.draws, hlt]⟩
    · simp [hlt] at hsome
  | _ => cases hsome

theorem Entered.mono {time time' : Nat} (h : Entered i l time) (hle : time ≤ time') :
    Entered i (l ++ [ev]) time' := by
  obtain ⟨e, he, hslot, hdraws, hnow⟩ := h
  exact ⟨e, List.mem_append_left _ he, hslot, hdraws, hnow.trans hle⟩

/-- After sharp steps a thread arrives with a block. -/
theorem Sharpened.arriving (h : Sharpened l s) (hslot : SlotInv l s i) {blk : Option UInt64}
    (hph : s.phase i = .arriving blk) : ∃ b, blk = some b := by
  cases blk with
  | some b => exact ⟨b, rfl⟩
  | none => exact absurd (hslot.fresh none hph) (h.drew i (by rw [hph]; trivial))

theorem Step.arrives (h : Step s ev t) (hact : ev.act = .arrive) :
    ∃ blk, s.phase ev.slot = .arriving blk := by
  cases h with
  | arriveWait hclock hph => exact ⟨_, hph⟩
  | arriveLead hclock hph => exact ⟨_, hph⟩
  | _ => cases hact

/-- Sharp steps lead every barrier, and each thread has drawn a block when it arrives there. -/
theorem sharp_arrivals {p : List (Event c) × State c}
    (h : Run (Guarded (Logged Step) Sharp) ([], State.init c) l p) :
    Run (Guarded Step Led) (State.init c) l p.2 ∧
      ∀ ev ∈ l, ev.act = .arrive → Entered ev.slot l ev.now := by
  induction h with
  | nil => exact ⟨Run.nil, fun ev hev => by cases hev⟩
  | @snoc l p ev q hr hstep ih =>
    obtain ⟨hsharp, hstep, hq⟩ := hstep
    obtain ⟨hp, hrun⟩ := Run.of_logged hr.of_guarded
    obtain ⟨l', s⟩ := p
    obtain rfl : l' = l := hp
    obtain ⟨hled, harrivals⟩ := ih
    have hsharpened : Sharpened l' s := (sharpened_iff hrun).mpr hr
    refine ⟨hled.snoc ⟨fun _ hnone => ?_, hstep⟩, fun e he harr => ?_⟩
    · obtain ⟨b, hb⟩ := hsharpened.arriving (run_slotInv hrun _) hnone
      cases hb
    · rcases List.mem_append.mp he with he | he
      · exact (harrivals e he harr).mono (Nat.le_refl _)
      · rw [List.mem_singleton.mp he] at harr ⊢
        obtain ⟨blk, hph⟩ := hstep.arrives harr
        obtain ⟨b, rfl⟩ := hsharpened.arriving (run_slotInv hrun _) hph
        have hheld := (run_slotInv hrun ev.slot).held
        rw [hph] at hheld
        -- the block it holds was drawn before
        obtain ⟨e', he', hslot, hdraws⟩ := exists_draw (i := ev.slot) (l := l') (by
          rw [hheld]
          exact List.append_ne_nil_of_right_ne_nil _ (List.cons_ne_nil _ _))
        exact ⟨e', List.mem_append_left _ he', hslot, hdraws,
          (now_le_clock hrun e' he').trans hstep.clock.1⟩

theorem workerStart_le_full (w : Fin c.workers.toNat) : s.workerStart w ≤ s.full := by
  have hmem : s.workerStart w ∈ (List.finRange c.workers.toNat).map s.workerStart :=
    List.mem_map_of_mem (List.mem_finRange w)
  unfold State.full
  cases hmax : ((List.finRange c.workers.toNat).map s.workerStart).max? with
  | none =>
    rw [List.max?_eq_none_iff.mp hmax] at hmem
    cases hmem
  | some m => exact (List.max?_eq_some_iff.mp hmax).2 _ hmem

theorem exists_arrival (h : i.2 ∈ received i.1 l) :
    ∃ ev ∈ l, ev.act = .arrive ∧ ev.slot = i := by
  obtain ⟨⟨j, act, now⟩, hev, hsome⟩ := List.mem_filterMap.mp h
  refine ⟨_, hev, ?_⟩
  cases act with
  | arrive =>
    by_cases hw : j.1 = i.1
    · simp only [if_pos hw, Option.some.injEq] at hsome
      exact ⟨rfl, Prod.ext hw hsome⟩
    · simp [hw] at hsome
  | _ => cases hsome

/-- A thread that drew a block has an outcome once it has left, and no other has one. -/
theorem outs_iff_drawnBy (h : Run Step (State.init c) l s) (hfin : Finished s) (i : Slot c) :
    s.outs i ≠ [] ↔ drawnBy i l ≠ [] := by
  have hheld := (run_slotInv h i).held
  rw [hfin i] at hheld
  rw [hheld, (run_slotInv h i).outs]
  simp [Phase.holding]

theorem drawnBy_of_draw (he : ev ∈ l) (hslot : ev.slot = i) (hdraws : ev.draws ≠ []) :
    drawnBy i l ≠ [] := by
  obtain ⟨j, act, now⟩ := ev
  cases act with
  | fetch b =>
    by_cases hlt : b < c.totalBlocks
    · have hd : (j, b) ∈ drawn l := List.mem_filterMap.mpr ⟨_, he, by simp [hlt]⟩
      exact List.ne_nil_of_mem (List.mem_map_of_mem
        (List.mem_filter.mpr ⟨hd, decide_eq_true hslot⟩))
    · simp [Event.draws, hlt] at hdraws
  | _ => exact absurd rfl hdraws

/-- After sharp steps every thread has drawn a block when the last worker's clock starts. -/
theorem entered_of_sharp (h : Run Step (State.init c) l s) (hfin : Finished s)
    (hsharp : Run (Guarded (Logged Step) Sharp) ([], State.init c) l (l, s)) (i : Slot c) :
    Entered i l s.full := by
  obtain ⟨hled, harrivals⟩ := sharp_arrivals hsharp
  have houts : s.outs i ≠ [] :=
    ((sharpened_iff h).mpr hsharp).drew i (by rw [hfin]; trivial)
  have hfetched : Fetched i.1 l := ⟨i.2, (outs_iff_drawnBy h hfin i).mp houts⟩
  have hclocked :=
    (clocked_iff_not_lost h hfin hfetched).mpr ((not_lost_iff_led h).mpr hled i.1)
  have harrived : i.2 ∈ received i.1 l :=
    ((run_barrierInv h).mem i.1 i.2).mpr (by simp [Arrived, hfin i])
  obtain ⟨ev, hev, hact, hslot⟩ := exists_arrival harrived
  obtain ⟨e, he, heslot, hdraws, hnow⟩ := harrivals ev hev hact
  refine ⟨e, he, heslot.trans hslot, hdraws, hnow.trans ?_⟩
  exact (hclocked.released ev hev hact (by rw [hslot])).trans (workerStart_le_full i.1)

/--
**In runs of sharp steps the window is steady. Where the window is not empty, it is steady in no
other runs.**
-/
theorem steady_of_sharp (h : Run Step (State.init c) l s) (hfin : Finished s) :
    (Run (Guarded (Logged Step) Sharp) ([], State.init c) l (l, s) → Steady l s) ∧
    (s.full < s.firstIdle → Steady l s →
      Run (Guarded (Logged Step) Sharp) ([], State.init c) l (l, s)) := by
  constructor
  · intro hsharp time hfull hidle i
    obtain ⟨e, he, hslot, hdraws, hnow⟩ := entered_of_sharp h hfin hsharp i
    refine ⟨⟨e, he, hslot, hdraws, hnow.trans hfull⟩, ?_⟩
    rintro ⟨e, he, -, hdrains, hnow⟩
    have hfirst := ((sharpened_iff h).mpr hsharp).first (by omega) e he hdrains
    omega
  · intro hwindow hsteady
    refine (sharpened_iff h).mp ⟨fun i _ => ?_, fun _ e he hdrains => ?_⟩
    · obtain ⟨⟨e, he, hslot, hdraws, -⟩, -⟩ := hsteady s.full (Nat.le_refl _) hwindow i
      exact (outs_iff_drawnBy h hfin i).mpr (drawnBy_of_draw he hslot hdraws)
    · by_contra hlt
      exact (hsteady (max s.full e.now) (Nat.le_max_left ..) (by omega) e.slot).2
        ⟨e, he, rfl, hdrains, Nat.le_max_right ..⟩

/-- One thread draws the block at 1, starts the clock at 3 and finds the pool empty at 5. -/
theorem run_oneBlock_timed :
    ∃ (l : List (Event oneBlock)) (s : State oneBlock),
      Run Step (State.init oneBlock) l s ∧ Finished s ∧ s.full = 3 ∧ s.firstIdle = 5 ∧
      Sharpened l s := by
  let i : Slot oneBlock := (⟨0, by decide⟩, ⟨0, by decide⟩)
  have h₀ : Run Step (State.init oneBlock) [] (State.init oneBlock) := Run.nil
  have h₁ := h₀.snoc (a := ⟨i, .fetch 0, 1⟩) (.draw (Nat.zero_le 1) rfl (by decide))
  have h₂ := h₁.snoc (a := ⟨i, .arrive, 2⟩) (.arriveLead (Nat.le_succ 1) rfl rfl)
  have h₃ := h₂.snoc (a := ⟨i, .start, 3⟩) (.start (b := 0) (Nat.le_succ 2) rfl)
  have h₄ := h₃.snoc (a := ⟨i, .finish 0 (.pumped 1 true), 4⟩) (.finish (Nat.le_succ 3) rfl)
  have h₅ := h₄.snoc (a := ⟨i, .fetch 1, 5⟩) (.drain (Nat.le_succ 4) rfl (by decide))
  have h₆ := h₅.snoc (a := ⟨i, .look, 5⟩) (.look (Nat.le_refl 5) rfl)
  have h₇ := h₆.snoc (a := ⟨i, .publish, 6⟩) (.publish (t := 5) (Nat.le_succ 5) rfl)
  have hslot : ∀ j : Slot oneBlock, j = i := by
    rintro ⟨⟨w, hw⟩, ⟨k, hk⟩⟩
    have hw1 : w < 1 := hw
    have hk1 : k < 1 := hk
    obtain rfl : w = 0 := by omega
    obtain rfl : k = 0 := by omega
    rfl
  refine ⟨_, _, h₇, fun j => ?_, by decide, by decide, fun j _ => ?_, fun _ e he hdrains => ?_⟩
  · rw [hslot j]
    rfl
  · rw [hslot j]
    exact List.cons_ne_nil _ _
  · obtain ⟨b, hb, hnlt⟩ := hdrains
    simp only [List.nil_append, List.cons_append, List.mem_cons, List.not_mem_nil, or_false] at he
    rcases he with rfl | rfl | rfl | rfl | rfl | rfl | rfl
    · cases hb
      exact absurd (by decide) hnlt
    all_goals first | exact Nat.le_refl 5 | cases hb

/-- Its window is steady. -/
theorem steady_of_sharp_oneBlock :
    ∃ (l : List (Event oneBlock)) (s : State oneBlock),
      Run Step (State.init oneBlock) l s ∧ s.full = 3 ∧ s.firstIdle = 5 ∧ Steady l s := by
  obtain ⟨l, s, h, hfin, hfull, hidle, hsharp⟩ := run_oneBlock_timed
  exact ⟨l, s, h, hfull, hidle, (steady_of_sharp h hfin).1 ((sharpened_iff h).mp hsharp)⟩

/-- With two connections and one block a thread may never be inside the loop. -/
theorem unsteady_twoConns :
    ∃ (l : List (Event twoConns)) (s : State twoConns),
      Run Step (State.init twoConns) l s ∧ Finished s ∧ ¬ Steady l s := by
  obtain ⟨l, s, w, -, k, h, hfin, -, -, houts, hwindow⟩ := run_twoConns
  refine ⟨l, s, h, hfin, fun hsteady => ?_⟩
  obtain ⟨⟨e, he, hslot, hdraws, -⟩, -⟩ := hsteady s.full (Nat.le_refl _) hwindow (w, k)
  exact (outs_iff_drawnBy h hfin (w, k)).mpr (drawnBy_of_draw he hslot hdraws) houts

end LinuxS3
