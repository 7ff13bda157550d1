import MiniosvCtrl.Properties.BlockPool

/-!
# Whether a worker's clock is started

The leader of a barrier stores the worker's clock if it stands there with a block. A thread that
drew nothing arrives there too, and a barrier that it completes has no leader that stores.

* `Clocked` — the clock was stored once, when the barrier let its leader go
* `Led` — a barrier is not completed by a thread without a block while one with a block waits
* `ClockInv` — what is known of a worker's clock in any reachable state
* `Lost` — the barrier let a worker with blocks go, and nobody stores its clock
* **`clocked_iff_led`** — the workers with blocks have their clocks exactly if every arrival is `Led`
-/

namespace LinuxS3

open Infra

variable {c : Config} {s t : State c} {ev : Event c} {l : List (Event c)}
  {w : Fin c.workers.toNat}

/-! ## Clocks -/

/-- When `worker_start` of the worker was stored. -/
def starts (w : Fin c.workers.toNat) (l : List (Event c)) : List Nat :=
  l.filterMap fun ev =>
    match ev.act with
    | .start => if ev.slot.1 = w then some ev.now else none
    | _ => none

/-- One of the worker's threads drew a block. -/
def Fetched (w : Fin c.workers.toNat) (l : List (Event c)) : Prop := ∃ k, drawnBy (w, k) l ≠ []

/-- The clock was stored once, after the last arrival at the worker's barrier. -/
structure Clocked (w : Fin c.workers.toNat) (l : List (Event c)) (s : State c) : Prop where
  once : starts w l = [s.workerStart w]
  released : ∀ ev ∈ l, ev.act = .arrive → ev.slot.1 = w → ev.now ≤ s.workerStart w

/--
A thread that drew nothing does not complete a barrier at which one with a block waits.
-/
def Led (s : State c) (ev : Event c) : Prop :=
  ev.act = .arrive → s.phase ev.slot = .arriving none →
    (s.barriers ev.slot.1).count + 1 = c.connsPerWorker.toNat →
      ∀ k b g, s.phase (ev.slot.1, k) ≠ .waiting (some b) g

/-! ## What a step does to the worker -/

theorem starts_quiet (h : ev.act = .start → ev.slot.1 ≠ w) : starts w (l ++ [ev]) = starts w l := by
  obtain ⟨i, act, now⟩ := ev
  cases act with
  | start => simp [starts, h rfl]
  | _ => simp [starts]

@[simp] theorem State.setBarrier_self (w : Fin c.workers.toNat) (b : Barrier) :
    (s.setBarrier w b).barriers w = b := Function.update_self ..

/-- The last arrival opens the next generation. -/
theorem Barrier.wait_none {n : Nat} {b b' : Barrier} (h : b.wait n = (b', none)) :
    ¬ b.count + 1 < n ∧ b'.generation = b.generation + 1 := by
  unfold Barrier.wait at h
  split at h
  · cases h
  · next hfull =>
    cases h
    exact ⟨hfull, rfl⟩

theorem Barrier.wait_some {n g : Nat} {b b' : Barrier} (h : b.wait n = (b', some g)) :
    b.count + 1 < n ∧ b'.generation = b.generation := by
  unfold Barrier.wait at h
  split at h
  · next hroom =>
    cases h
    exact ⟨hroom, rfl⟩
  · cases h

/-- A step leaves the other workers as they are. -/
theorem Step.apart (h : Step s ev t) (hw : ev.slot.1 ≠ w) :
    t.barriers w = s.barriers w ∧ t.workerStart w = s.workerStart w ∧
      ∀ k, t.phase (w, k) = s.phase (w, k) ∧ t.outs (w, k) = s.outs (w, k) := by
  refine ⟨?_, ?_, fun k => h.other fun he => hw (by rw [← he])⟩
  · cases h with
    | arriveWait => exact Function.update_of_ne hw.symm ..
    | arriveLead => exact Function.update_of_ne hw.symm ..
    | _ => rfl
  · cases h with
    | start => exact Function.update_of_ne hw.symm ..
    | _ => rfl

/-- No step was taken after the clock's time. -/
theorem now_le_clock (h : Run Step (State.init c) l s) : ∀ ev ∈ l, ev.now ≤ s.clock := by
  induction h with
  | nil => exact fun ev hev => by cases hev
  | @snoc l t a w' _ hstep ih =>
    have hclock : t.clock ≤ a.now ∧ w'.clock = a.now := by
      cases hstep <;> exact ⟨‹_›, rfl⟩
    intro ev hev
    rcases List.mem_append.mp hev with hev | hev
    · have := ih ev hev
      omega
    · rw [List.mem_singleton.mp hev]
      omega

/-- Once a barrier has let its threads go, all of them have been there. -/
theorem BarrierInv.all_arrived (hinv : BarrierInv l s) (h : (s.barriers w).generation ≠ 0)
    (k : Fin c.connsPerWorker.toNat) : Arrived s (w, k) := by
  by_contra hnot
  exact h (hinv.generation_eq_zero hnot).1

/-- A thread that has not passed its barrier. -/
def Phase.early : Phase → Prop
  | .fetching | .arriving _ | .waiting _ _ | .emptied | .idling _ => True
  | _ => False

structure ClockInv (w : Fin c.workers.toNat) (l : List (Event c)) (s : State c) : Prop where
  shut : (s.barriers w).generation = 0 → ∀ k, (s.phase (w, k)).early ∧ s.outs (w, k) = []
  unset : (s.barriers w).generation = 0 ∨ (∃ k b, s.phase (w, k) = .leading b) → starts w l = []
  single : ∀ k k' b b', s.phase (w, k) = .leading b → s.phase (w, k') = .leading b' → k = k'
  set : starts w l = [] ∨ Clocked w l s

theorem clockInv_init : ClockInv w [] (State.init c) := by
  refine ⟨fun _ k => ⟨trivial, rfl⟩, fun _ => rfl, fun k k' b b' h => ?_, Or.inl rfl⟩
  cases h

/-- A step that is no arrival passes on what is known of the arrivals. -/
theorem Clocked.snoc (h : Clocked w l s) (hstarts : starts w (l ++ [ev]) = starts w l)
    (hstart : t.workerStart w = s.workerStart w) (hact : ev.act = .arrive → ev.slot.1 ≠ w) :
    Clocked w (l ++ [ev]) t := by
  refine ⟨by rw [hstarts, hstart]; exact h.once, fun e he harr hw => ?_⟩
  rw [hstart]
  rcases List.mem_append.mp he with he | he
  · exact h.released e he harr hw
  · rw [List.mem_singleton.mp he] at harr hw
    exact absurd hw (hact harr)

/-- The clock's word is only stored by a `start`. -/
theorem Step.workerStart_eq (h : Step s ev t) (hact : ev.act ≠ .start) :
    t.workerStart = s.workerStart := by
  cases h with
  | start => exact absurd rfl hact
  | _ => rfl

/-- Only an arrival makes a thread lead. -/
theorem Step.leading_of (h : Step s ev t) (hact : ev.act ≠ .arrive) {i : Slot c} {b : UInt64}
    (hph' : t.phase i = .leading b) : s.phase i = .leading b ∧ (ev.act = .start → i ≠ ev.slot) := by
  by_cases hi : i = ev.slot
  · subst hi
    exfalso
    cases h with
    | arriveWait => exact hact rfl
    | arriveLead => exact hact rfl
    | draw hclock hph hlt =>
      rw [State.tick_phase, State.setPhase_self] at hph'
      split at hph' <;> cases hph'
    | publish hclock hph =>
      rw [State.tick_phase, State.setPhase_self] at hph'
      split at hph' <;> cases hph'
    | @wake i now g blk hclock hph hgen =>
      rw [State.tick_phase, State.setPhase_self] at hph'
      cases blk <;> cases hph'
    | _ =>
      rw [State.tick_phase, State.setPhase_self] at hph'
      cases hph'
  · exact ⟨by rw [← (h.other hi).1]; exact hph', fun _ => hi⟩

/-- A leader leads until it stores the clock. -/
theorem Step.leading_kept (h : Step s ev t) (hact : ev.act ≠ .start) {i : Slot c} {b : UInt64}
    (hph' : s.phase i = .leading b) : t.phase i = .leading b := by
  by_cases hi : i = ev.slot
  · subst hi
    cases h with
    | start => exact absurd rfl hact
    | _ => simp_all
  · rw [(h.other hi).1]; exact hph'

/-- A thread passes its barrier only once that has been completed. -/
theorem Step.early_of (h : Step s ev t) (hact : ev.act ≠ .arrive)
    (hgen : ∀ blk g, s.phase ev.slot = .waiting blk g → g = 0)
    (hshut : (s.barriers ev.slot.1).generation = 0) (hearly : (s.phase ev.slot).early)
    (houts : s.outs ev.slot = []) : (t.phase ev.slot).early ∧ t.outs ev.slot = [] := by
  cases h with
  | draw hclock hph hlt =>
    rw [State.tick_phase, State.setPhase_self, if_pos (List.isEmpty_iff.mpr houts)]
    exact ⟨trivial, houts⟩
  | publish hclock hph =>
    rw [State.tick_phase, State.setPhase_self, if_pos (List.isEmpty_iff.mpr houts)]
    exact ⟨trivial, houts⟩
  | drain hclock hph hle => exact ⟨by rw [State.tick_phase, State.setPhase_self]; trivial, houts⟩
  | look hclock hph => exact ⟨by rw [State.tick_phase, State.setPhase_self]; trivial, houts⟩
  | arriveWait => exact absurd rfl hact
  | arriveLead => exact absurd rfl hact
  | @wake i now g blk hclock hph hne => exact absurd (hshut.trans (hgen blk g hph).symm) hne
  | start hclock hph =>
    rw [hph] at hearly
    exact hearly.elim
  | finish hclock hph =>
    rw [hph] at hearly
    exact hearly.elim

/-- A step that stores no clock and completes no barrier. -/
theorem ClockInv.of_plain (hinv : ClockInv w l s) (hbar : BarrierInv l s) (h : Step s ev t)
    (harr : ev.act ≠ .arrive) (hstart : ev.act ≠ .start) : ClockInv w (l ++ [ev]) t := by
  have hstarts : starts w (l ++ [ev]) = starts w l := starts_quiet fun he => absurd he hstart
  have hclock := congrFun (h.workerStart_eq hstart) w
  refine ⟨fun hgen k => ?_, fun hor => ?_, fun k k' b b' hk hk' => ?_, ?_⟩
  · rw [h.barriers_eq harr] at hgen
    obtain ⟨hearly, houts⟩ := hinv.shut hgen k
    by_cases hk : (w, k) = ev.slot
    · rw [hk] at hearly houts ⊢
      exact h.early_of harr (hbar.gen _) (by rw [← hk]; exact hgen) hearly houts
    · rw [(h.other hk).1, (h.other hk).2]
      exact ⟨hearly, houts⟩
  · rw [hstarts]
    refine hinv.unset (hor.imp (fun hgen => ?_) ?_)
    · rw [← h.barriers_eq harr]; exact hgen
    · rintro ⟨k, b, hk⟩
      exact ⟨k, b, (h.leading_of harr hk).1⟩
  · exact hinv.single k k' b b' (h.leading_of harr hk).1 (h.leading_of harr hk').1
  · rw [hstarts]
    exact hinv.set.imp_right fun hset => hset.snoc hstarts hclock fun he => absurd he harr

/-- The threads of a barrier that is still shut wait if they have arrived. -/
theorem ClockInv.waiting (hinv : ClockInv w l s) (hgen : (s.barriers w).generation = 0)
    {k : Fin c.connsPerWorker.toNat} (harr : Arrived s (w, k)) :
    ∃ blk g, s.phase (w, k) = .waiting blk g := by
  obtain ⟨hearly, houts⟩ := hinv.shut hgen k
  cases hph : s.phase (w, k) with
  | waiting blk g => exact ⟨blk, g, rfl⟩
  | fetching => simp [Arrived, hph, houts] at harr
  | arriving blk => simp [Arrived, hph] at harr
  | emptied => simp [Arrived, hph, houts] at harr
  | idling now => simp [Arrived, hph, houts] at harr
  | leading b =>
    rw [hph] at hearly
    exact False.elim hearly
  | running b =>
    rw [hph] at hearly
    exact False.elim hearly
  | left =>
    rw [hph] at hearly
    exact False.elim hearly

theorem ClockInv.not_leading (hinv : ClockInv w l s) (hgen : (s.barriers w).generation = 0)
    (k : Fin c.connsPerWorker.toNat) (b : UInt64) : s.phase (w, k) ≠ .leading b := by
  intro hph
  have hearly := (hinv.shut hgen k).1
  rw [hph] at hearly
  exact False.elim hearly

theorem step_clockInv (hinv : ClockInv w l s) (hbar : BarrierInv l s)
    (hpast : ∀ e ∈ l, e.now ≤ s.clock) (h : Step s ev t) : ClockInv w (l ++ [ev]) t := by
  by_cases hw : ev.slot.1 = w
  swap
  · -- a step of another worker's thread
    obtain ⟨hb, hclock, hk⟩ := h.apart hw
    have hstarts : starts w (l ++ [ev]) = starts w l := starts_quiet fun _ => hw
    refine ⟨fun hgen k => ?_, fun hor => ?_, fun k k' b b' h₁ h₂ => ?_, ?_⟩
    · rw [hb] at hgen
      rw [(hk k).1, (hk k).2]
      exact hinv.shut hgen k
    · rw [hstarts]
      refine hinv.unset (hor.imp (fun hgen => by rw [← hb]; exact hgen) ?_)
      rintro ⟨k, b, hph⟩
      exact ⟨k, b, by rw [← (hk k).1]; exact hph⟩
    · rw [(hk k).1] at h₁
      rw [(hk k').1] at h₂
      exact hinv.single k k' b b' h₁ h₂
    · rw [hstarts]
      exact hinv.set.imp_right fun hset => hset.snoc hstarts hclock fun _ => hw
  subst hw
  by_cases hplain : ev.act = .arrive ∨ ev.act = .start
  swap
  · exact hinv.of_plain hbar h (fun he => hplain (Or.inl he)) fun he => hplain (Or.inr he)
  cases h with
  | @arriveWait i now g blk b hclock hph hwait =>
    obtain ⟨hgen, -, -⟩ := hbar.generation_eq_zero (i := i) (by simp [Arrived, hph])
    have hnone := hinv.unset (Or.inl hgen)
    have hstarts : starts i.1 (l ++ [⟨i, .arrive, now⟩]) = [] := by
      rw [starts_quiet fun he => by cases he]; exact hnone
    have hlead : ∀ k b', (((s.setBarrier i.1 b).setPhase i (.waiting blk g)).tick now).phase (i.1, k)
        ≠ .leading b' := by
      intro k b' hk
      by_cases hki : (i.1, k) = i
      · rw [hki, State.tick_phase, State.setPhase_self] at hk
        cases hk
      · rw [State.tick_phase, State.setPhase_other _ hki] at hk
        exact hinv.not_leading hgen k b' hk
    refine ⟨fun _ k => ?_, fun _ => hstarts, fun k k' b₁ b₂ hk => absurd hk (hlead k b₁),
      Or.inl hstarts⟩
    by_cases hki : (i.1, k) = i
    · rw [hki, State.tick_phase, State.setPhase_self]
      have houts := (hinv.shut hgen k).2
      rw [hki] at houts
      exact ⟨trivial, houts⟩
    · rw [State.tick_phase, State.setPhase_other _ hki]
      exact hinv.shut hgen k
  | @arriveLead i now blk b hclock hph hwait =>
    obtain ⟨hgen, -, -⟩ := hbar.generation_eq_zero (i := i) (by simp [Arrived, hph])
    have hnone := hinv.unset (Or.inl hgen)
    have hstarts : starts i.1 (l ++ [⟨i, .arrive, now⟩]) = [] := by
      rw [starts_quiet fun he => by cases he]; exact hnone
    have hlead : ∀ k b', (((s.setBarrier i.1 b).setPhase i (.leads blk)).tick now).phase (i.1, k)
        = .leading b' → (i.1, k) = i := by
      intro k b' hk
      by_contra hki
      rw [State.tick_phase, State.setPhase_other _ hki] at hk
      exact hinv.not_leading hgen k b' hk
    refine ⟨fun hgen' => ?_, fun _ => hstarts, fun k k' b₁ b₂ hk hk' => ?_, Or.inl hstarts⟩
    · -- the last arrival opens the next generation
      exfalso
      rw [State.tick_barriers, State.setPhase_barriers, State.setBarrier_self,
        (Barrier.wait_none hwait).2] at hgen'
      cases hgen'
    · exact (Prod.mk.inj ((hlead k b₁ hk).trans (hlead k' b₂ hk').symm)).2
  | @start i now b hclock hph =>
    have hnone := hinv.unset (Or.inr ⟨i.2, b, hph⟩)
    have hset : starts i.1 (l ++ [⟨i, .start, now⟩]) = [now] := by
      simp only [starts, List.filterMap_append]
      rw [← starts, hnone]
      simp
    have hnow : Function.update s.workerStart i.1 now i.1 = now := Function.update_self ..
    have hgen : (s.barriers i.1).generation ≠ 0 := fun hgen => hinv.not_leading hgen i.2 b hph
    have hlead : ∀ k b', (({ s with workerStart := Function.update s.workerStart i.1 now }.setPhase i
        (.running b)).tick now).phase (i.1, k) ≠ .leading b' := by
      intro k b' hk
      by_cases hki : (i.1, k) = i
      · rw [hki, State.tick_phase, State.setPhase_self] at hk
        cases hk
      · rw [State.tick_phase, State.setPhase_other _ hki] at hk
        exact hki (Prod.ext rfl (hinv.single k i.2 b' b hk hph))
    refine ⟨fun hgen' => absurd hgen' hgen, ?_, fun k k' b₁ b₂ hk => absurd hk (hlead k b₁),
      Or.inr ⟨?_, fun e he harr hw => ?_⟩⟩
    · rintro (hgen' | ⟨k, b', hk⟩)
      · exact absurd hgen' hgen
      · exact absurd hk (hlead k b')
    · rw [hset]
      exact congrArg (fun n => [n]) hnow.symm
    · show e.now ≤ Function.update s.workerStart i.1 now i.1
      rw [hnow]
      rcases List.mem_append.mp he with he | he
      · exact (hpast e he).trans hclock
      · rw [List.mem_singleton.mp he] at harr
        cases harr
  | _ => simp at hplain

theorem run_clockInv (h : Run Step (State.init c) l s) (w : Fin c.workers.toNat) :
    ClockInv w l s := by
  induction h with
  | nil => exact clockInv_init
  | snoc hr hstep ih => exact step_clockInv ih (run_barrierInv hr) (now_le_clock hr) hstep

/-! ## A clock that nobody stores -/

/-- The barrier has opened, and no thread is left to store the clock. -/
structure Lost (w : Fin c.workers.toNat) (l : List (Event c)) (s : State c) : Prop where
  opened : (s.barriers w).generation ≠ 0
  unset : starts w l = []
  unled : ∀ k b, s.phase (w, k) ≠ .leading b
  fetched : Fetched w l

/-- Before the barrier opens a worker has drawn the blocks its threads hold. -/
theorem ClockInv.fetched_iff (hinv : ClockInv w l s) (hslot : ∀ i, SlotInv l s i)
    (hgen : (s.barriers w).generation = 0) :
    Fetched w l ↔ ∃ k, (s.phase (w, k)).holding ≠ [] := by
  refine exists_congr fun k => not_congr ?_
  have hnil : endingsOf (w, k) l = [] :=
    List.map_eq_nil_iff.mp ((hslot (w, k)).outs.symm.trans (hinv.shut hgen k).2)
  rw [(hslot (w, k)).held, hnil, List.map_nil, List.nil_append]

/-- A thread past the barrier that draws has drawn before. -/
theorem Fetched.of_draw (hslot : ∀ i, SlotInv l s i) (hbar : BarrierInv l s)
    (h : Step s ev t) (hopen : (s.barriers ev.slot.1).generation ≠ 0)
    (hf : Fetched ev.slot.1 (l ++ [ev])) : Fetched ev.slot.1 l := by
  obtain ⟨k, hk⟩ := hf
  by_cases hki : (ev.slot.1, k) = ev.slot
  swap
  · rw [drawnBy_other hki] at hk
    exact ⟨k, hk⟩
  rw [hki, drawnBy_self] at hk
  refine ⟨k, fun hnil => ?_⟩
  rw [hki] at hnil
  rw [hnil, List.nil_append] at hk
  have harr := hbar.all_arrived hopen ev.slot.2
  cases h with
  | @draw i now hclock hph hlt =>
    have houts : s.outs i ≠ [] := by simpa [Arrived, hph] using harr
    have hheld := (hslot i).held
    rw [hnil] at hheld
    have hend := (List.append_eq_nil_iff.mp hheld.symm).1
    refine houts ?_
    rw [(hslot i).outs, List.map_eq_nil_iff.mp hend, List.map_nil]
  | drain hclock hph hle => exact hk (by simp [Event.draws, UInt64.not_lt.mpr hle])
  | _ => exact hk rfl

/-- What a worker fetched stays fetched. -/
theorem Fetched.snoc (h : Fetched w l) : Fetched w (l ++ [ev]) := by
  obtain ⟨k, hk⟩ := h
  refine ⟨k, fun hnil => hk ?_⟩
  by_cases hki : (w, k) = ev.slot
  · rw [hki, drawnBy_self] at hnil
    rw [hki]
    exact (List.append_eq_nil_iff.mp hnil).1
  · rw [← drawnBy_other hki]
    exact hnil

/-- The last thread to come to a barrier finds all others there. -/
theorem BarrierInv.others_arrived (hbar : BarrierInv l s) {k k' : Fin c.connsPerWorker.toNat}
    (hk : ¬ Arrived s (w, k)) (hfull : (s.barriers w).count + 1 = c.connsPerWorker.toNat)
    (hne : k' ≠ k) : Arrived s (w, k') := by
  by_contra hk'
  have hcount : (s.barriers w).count = (received w l).length := (hbar.generation_eq_zero hk).2.1
  have hmem : k ∉ received w l := fun hmem => hk ((hbar.mem w k).mp hmem)
  have hmem' : k' ∉ received w l := fun hmem => hk' ((hbar.mem w k').mp hmem)
  have hnodup : (k' :: k :: received w l).Nodup :=
    List.nodup_cons.mpr ⟨List.not_mem_cons_of_ne_of_not_mem hne hmem',
      List.nodup_cons.mpr ⟨hmem, hbar.once w⟩⟩
  have hcard := hnodup.length_le_card
  rw [Fintype.card_fin, List.length_cons, List.length_cons, ← hcount] at hcard
  omega

/-- The last arrival loses the clock if it comes without a block and one with a block waits. -/
theorem ClockInv.lost_of_lead (hinv : ClockInv w l s) (hslot : ∀ i, SlotInv l s i)
    (hbar : BarrierInv l s) {k : Fin c.connsPerWorker.toNat} {now : Nat} {blk : Option UInt64}
    {b : Barrier} (hph : s.phase (w, k) = .arriving blk)
    (hwait : (s.barriers w).wait c.connsPerWorker.toNat = (b, none)) :
    Lost w (l ++ [⟨(w, k), .arrive, now⟩])
        (((s.setBarrier w b).setPhase (w, k) (.leads blk)).tick now) ↔
      ¬ Led s ⟨(w, k), .arrive, now⟩ := by
  have hnot : ¬ Arrived s (w, k) := by simp [Arrived, hph]
  obtain ⟨hgen, -, hlt⟩ := hbar.generation_eq_zero hnot
  obtain ⟨hlast, hgen'⟩ := Barrier.wait_none hwait
  have hfull : (s.barriers w).count + 1 = c.connsPerWorker.toNat := by
    have := hbar.lt w
    omega
  cases blk with
  | some b' =>
    -- the thread leads, and will store the clock
    refine iff_of_false (fun hlost => hlost.unled k b' ?_) (not_not_intro fun _ hnone => ?_)
    · rw [State.tick_phase, State.setPhase_self]; rfl
    · rw [hph] at hnone
      cases hnone
  | none =>
    have hopen : (((s.setBarrier w b).setPhase (w, k) (.leads none)).tick now).barriers w = b := by
      rw [State.tick_barriers, State.setPhase_barriers, State.setBarrier_self]
    have hstarts : starts w (l ++ [⟨(w, k), .arrive, now⟩]) = [] := by
      rw [starts_quiet fun he => by cases he]
      exact hinv.unset (Or.inl hgen)
    constructor
    · intro hlost hled
      have hbefore : Fetched w l := by
        obtain ⟨k', hk'⟩ := hlost.fetched
        refine ⟨k', fun hnil => hk' ?_⟩
        by_cases hki : (w, k') = (w, k)
        · rw [hki] at hnil ⊢
          have hself := @drawnBy_self c ⟨(w, k), .arrive, now⟩ l
          rw [hself, hnil]
          rfl
        · rw [drawnBy_other hki, hnil]
      obtain ⟨k', hk'⟩ := (hinv.fetched_iff hslot hgen).mp hbefore
      have hne : k' ≠ k := by
        rintro rfl
        rw [hph] at hk'
        exact hk' rfl
      obtain ⟨blk', g, hwaits⟩ := hinv.waiting hgen (hbar.others_arrived hnot hfull hne)
      cases blk' with
      | none => exact hk' (by rw [hwaits]; rfl)
      | some b' => exact hled rfl hph hfull k' b' g hwaits
    · intro hled
      unfold Led at hled
      push Not at hled
      obtain ⟨-, -, -, k', b', g, hwaits⟩ := hled
      refine ⟨?_, hstarts, fun k₁ b₁ hk₁ => ?_, ?_⟩
      · rw [hopen, hgen']
        omega
      · by_cases hki : (w, k₁) = (w, k)
        · rw [hki, State.tick_phase, State.setPhase_self] at hk₁
          cases hk₁
        · rw [State.tick_phase, State.setPhase_other _ hki] at hk₁
          exact hinv.not_leading hgen k₁ b₁ hk₁
      · refine Fetched.snoc ((hinv.fetched_iff hslot hgen).mpr ⟨k', ?_⟩)
        rw [hwaits]
        exact List.cons_ne_nil _ _

/-- A clock is lost by the one arrival that leaves the barrier without a leader that stores. -/
theorem Step.lost_iff (hinv : ClockInv ev.slot.1 l s) (hslot : ∀ i, SlotInv l s i)
    (hbar : BarrierInv l s) (h : Step s ev t) :
    Lost ev.slot.1 (l ++ [ev]) t ↔ Lost ev.slot.1 l s ∨ ¬ Led s ev := by
  by_cases hplain : ev.act = .arrive ∨ ev.act = .start
  swap
  · -- neither the barrier nor the clock is touched
    have harr : ev.act ≠ .arrive := fun he => hplain (Or.inl he)
    have hstart : ev.act ≠ .start := fun he => hplain (Or.inr he)
    have hled : Led s ev := fun he => absurd he harr
    have hstarts : starts ev.slot.1 (l ++ [ev]) = starts ev.slot.1 l :=
      starts_quiet fun he => absurd he hstart
    have hbars := congrFun (h.barriers_eq harr) ev.slot.1
    rw [or_iff_left (not_not_intro hled)]
    constructor
    · rintro ⟨hopen, hunset, hunled, hf⟩
      rw [hbars] at hopen
      exact ⟨hopen, hstarts ▸ hunset, fun k b hk => hunled k b (h.leading_kept hstart hk),
        hf.of_draw hslot hbar h hopen⟩
    · rintro ⟨hopen, hunset, hunled, hf⟩
      exact ⟨by rw [hbars]; exact hopen, by rw [hstarts]; exact hunset,
        fun k b hk => hunled k b (h.leading_of harr hk).1, hf.snoc⟩
  cases h with
  | @arriveWait i now g blk b hclock hph hwait =>
    obtain ⟨hgen, -, -⟩ := hbar.generation_eq_zero (i := i) (by simp [Arrived, hph])
    obtain ⟨hroom, hgen'⟩ := Barrier.wait_some hwait
    have hled : Led s ⟨i, .arrive, now⟩ := fun _ _ hfull => absurd hfull hroom.ne
    refine iff_of_false (fun hlost => hlost.opened ?_) ?_
    · rw [State.tick_barriers, State.setPhase_barriers, State.setBarrier_self, hgen', hgen]
    · rintro (hlost | hnot)
      · exact hlost.opened hgen
      · exact hnot hled
  | @arriveLead i now blk b hclock hph hwait =>
    obtain ⟨hgen, -, -⟩ := hbar.generation_eq_zero (i := i) (by simp [Arrived, hph])
    rw [or_iff_right fun hlost : Lost i.1 l s => hlost.opened hgen]
    exact hinv.lost_of_lead hslot hbar hph hwait
  | @start i now b hclock hph =>
    have hled : Led s ⟨i, .start, now⟩ := fun he => by cases he
    refine iff_of_false (fun hlost => ?_) ?_
    · have hunset := hlost.unset
      simp [starts] at hunset
    · rintro (hlost | hnot)
      · exact hlost.unled i.2 b hph
      · exact hnot hled
  | _ => simp at hplain

theorem fetched_apart (hw : ev.slot.1 ≠ w) : Fetched w (l ++ [ev]) ↔ Fetched w l := by
  refine exists_congr fun k => ?_
  rw [drawnBy_other fun he => hw (congrArg Prod.fst he).symm]

/-- The clock of one worker is not lost at the barrier of another. -/
theorem Step.lost_apart (h : Step s ev t) (hw : ev.slot.1 ≠ w) :
    Lost w (l ++ [ev]) t ↔ Lost w l s := by
  obtain ⟨hb, -, hk⟩ := h.apart hw
  have hstarts : starts w (l ++ [ev]) = starts w l := starts_quiet fun _ => hw
  constructor
  · rintro ⟨hopen, hunset, hunled, hf⟩
    exact ⟨hb ▸ hopen, hstarts ▸ hunset, fun k b hph => hunled k b ((hk k).1 ▸ hph),
      (fetched_apart hw).mp hf⟩
  · rintro ⟨hopen, hunset, hunled, hf⟩
    exact ⟨hb ▸ hopen, hstarts ▸ hunset, fun k b hph => hunled k b ((hk k).1 ▸ hph),
      (fetched_apart hw).mpr hf⟩

/-! ## Whole runs -/

/-- At the end a worker with blocks has its clock unless it was lost. -/
theorem clocked_iff_not_lost (h : Run Step (State.init c) l s) (hfin : Finished s)
    (hf : Fetched w l) : Clocked w l s ↔ ¬ Lost w l s := by
  have hopen : (s.barriers w).generation ≠ 0 := by
    intro hgen
    have hearly := ((run_clockInv h w).shut hgen ⟨0, connsPerWorker_pos c⟩).1
    rw [hfin] at hearly
    exact hearly
  constructor
  · intro hclocked hlost
    have honce := hclocked.once
    rw [hlost.unset] at honce
    cases honce
  · intro hnot
    refine (run_clockInv h w).set.resolve_left fun hunset => hnot ⟨hopen, hunset, ?_, hf⟩
    intro k b hph
    rw [hfin] at hph
    cases hph

/-- A clock is lost in no run exactly if all arrivals are `Led`. -/
theorem not_lost_iff_led (h : Run Step (State.init c) l s) :
    (∀ w, ¬ Lost w l s) ↔ Run (Guarded Step Led) (State.init c) l s := by
  refine Run.iff_guarded_along (fun l s => ∀ w, ¬ Lost w l s) ?_ ?_ h
  · exact fun w hlost => hlost.opened rfl
  · intro l s ev t hrun hstep
    have hown := hstep.lost_iff (run_clockInv hrun _) (run_slotInv hrun) (run_barrierInv hrun)
    constructor
    · intro hgood
      have hnot := mt hown.mpr (hgood ev.slot.1)
      rw [not_or, not_not] at hnot
      refine ⟨fun w hlost => ?_, hnot.2⟩
      by_cases hw : ev.slot.1 = w
      · subst hw
        exact hnot.1 hlost
      · exact hgood w ((hstep.lost_apart hw).mpr hlost)
    · rintro ⟨hgood, hled⟩ w hlost
      by_cases hw : ev.slot.1 = w
      · subst hw
        rcases hown.mp hlost with hlost | hnot
        · exact hgood _ hlost
        · exact hnot hled
      · exact hgood w ((hstep.lost_apart hw).mp hlost)

/--
**The clock of every worker with blocks is stored exactly if no barrier is completed by a thread
without a block while one with a block waits there.**
-/
theorem clocked_iff_led (h : Run Step (State.init c) l s) (hfin : Finished s) :
    (∀ w, Fetched w l → Clocked w l s) ↔ Run (Guarded Step Led) (State.init c) l s := by
  rw [← not_lost_iff_led h]
  refine forall_congr' fun w => ⟨fun hall hlost => ?_, fun hnot hf => ?_⟩
  · exact (clocked_iff_not_lost h hfin hlost.fetched).mp (hall hlost.fetched) hlost
  · exact (clocked_iff_not_lost h hfin hf).mpr hnot

/-- The run of a single block stores its worker's clock. -/
theorem clocked_iff_led_oneBlock :
    ∃ (l : List (Event oneBlock)) (s : State oneBlock),
      Run Step (State.init oneBlock) l s ∧ Finished s ∧
      ((∀ w, Fetched w l → Clocked w l s) ↔ Run (Guarded Step Led) (State.init oneBlock) l s) := by
  obtain ⟨l, s, h, hfin⟩ := run_oneBlock
  exact ⟨l, s, h, hfin, clocked_iff_led h hfin⟩

/-- One worker with two connections and one block. -/
def twoConns : Config :=
  { oneBlock with connsPerWorker := 2, connsPerWorker_ne := two_ne }

/--
The second thread finds the pool empty and completes the barrier at which the first waits with
the block.
-/
theorem run_twoConns :
    ∃ (l : List (Event twoConns)) (s : State twoConns) (w : Fin twoConns.workers.toNat)
      (k k' : Fin twoConns.connsPerWorker.toNat), Run Step (State.init twoConns) l s ∧
      Finished s ∧ drawnBy (w, k) l ≠ [] ∧ starts w l = [] ∧ s.outs (w, k') = [] ∧
      s.full < s.firstIdle := by
  let i : Slot twoConns := (⟨0, by decide⟩, ⟨0, by decide⟩)
  let j : Slot twoConns := (⟨0, by decide⟩, ⟨1, by decide⟩)
  have h₀ : Run Step (State.init twoConns) [] (State.init twoConns) := Run.nil
  have h₁ := h₀.snoc (a := ⟨i, .fetch 0, 1⟩) (.draw (Nat.zero_le 1) rfl (by decide))
  have h₂ := h₁.snoc (a := ⟨i, .arrive, 2⟩) (.arriveWait (Nat.le_succ 1) rfl rfl)
  have h₃ := h₂.snoc (a := ⟨j, .fetch 1, 3⟩) (.drain (Nat.le_succ 2) rfl (by decide))
  have h₄ := h₃.snoc (a := ⟨j, .look, 4⟩) (.look (Nat.le_succ 3) rfl)
  have h₅ := h₄.snoc (a := ⟨j, .publish, 5⟩) (.publish (t := 4) (Nat.le_succ 4) rfl)
  have h₆ := h₅.snoc (a := ⟨j, .arrive, 6⟩) (.arriveLead (Nat.le_succ 5) rfl rfl)
  have h₇ := h₆.snoc (a := ⟨i, .wake, 7⟩) (.wake (g := 0) (Nat.le_succ 6) rfl (by decide))
  have h₈ := h₇.snoc (a := ⟨i, .finish 0 (.pumped 1 true), 8⟩) (.finish (Nat.le_succ 7) rfl)
  have h₉ := h₈.snoc (a := ⟨i, .fetch 2, 9⟩) (.drain (Nat.le_succ 8) rfl (by decide))
  have h₁₀ := h₉.snoc (a := ⟨i, .look, 10⟩) (.look (Nat.le_succ 9) rfl)
  have h₁₁ := h₁₀.snoc (a := ⟨i, .publish, 11⟩) (.publish (t := 10) (Nat.le_succ 10) rfl)
  refine ⟨_, _, ⟨0, by decide⟩, ⟨0, by decide⟩, ⟨1, by decide⟩, h₁₁, fun k => ?_, by decide,
    by decide, rfl, by decide⟩
  obtain ⟨⟨w, hw⟩, ⟨m, hm⟩⟩ := k
  have hw1 : w < 1 := hw
  have hm2 : m < 2 := hm
  obtain rfl : w = 0 := by omega
  rcases (show m = 0 ∨ m = 1 by omega) with rfl | rfl
  · rfl
  · rfl

/-- The worker fetched its block, and its clock was not stored. -/
theorem unclocked_twoConns :
    ∃ (l : List (Event twoConns)) (s : State twoConns) (w : Fin twoConns.workers.toNat),
      Run Step (State.init twoConns) l s ∧ Finished s ∧ Fetched w l ∧ ¬ Clocked w l s := by
  obtain ⟨l, s, w, k, -, h, hfin, hdrawn, hstarts, -⟩ := run_twoConns
  refine ⟨l, s, w, h, hfin, ⟨k, hdrawn⟩, fun hclocked => ?_⟩
  have honce := hclocked.once
  rw [hstarts] at honce
  cases honce

end LinuxS3
