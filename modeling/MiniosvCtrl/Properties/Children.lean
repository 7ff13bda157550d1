import MiniosvCtrl.Properties.Calls
import MiniosvCtrl.Properties.ResumeSound
import MiniosvCtrl.Queue.Children

/-!
# The calls and the children in a run

* `Flow`, `Grow` — what a step does to the calls, and to the children
* `State.Parked` — `main` leaves its loops when no call is running or to come
* `State.Called` — which calls may be running and which may be still to come
* `run_sideBySide` — two experiments whose children run side by side
-/

namespace Children

open Infra Arms

variable {u : Setup} {s t : State u} {ev : Event u} {k : ChildId} {i : u.q.Index}

/-! ## The steps -/

/-- What a step does to the calls. -/
inductive Flow (s t : State u) : Prop
  | same : t.thread = s.thread → t.batches = s.batches → t.due = s.due → t.pending = s.pending →
      Flow s t
  | inCall {i : u.q.Index} {c : Call u.q} {pc pc' : Pc} : s.thread i = some (c, pc) →
      t.thread = Function.update s.thread i (some (c, pc')) → t.batches = s.batches →
      t.due = s.due → t.pending = s.pending → Flow s t
  | returned {i : u.q.Index} {c : Call u.q} {pc : Pc} : s.thread i = some (c, pc) →
      t.thread = Function.update s.thread i none → t.batches = s.batches → t.due = s.due →
      t.pending = s.pending ∨ t.pending = [] → Flow s t
  | entered {c : Call u.q} {rest : List (Call u.q)} : s.pending = c :: rest →
      s.thread c.arm = none → u.q.concurrent = true ∨ s.Idle →
      t.thread = Function.update s.thread c.arm (some (c, .top)) → t.batches = s.batches →
      t.due = s.due → t.pending = rest → Flow s t
  | begun {b : List (Call u.q)} {rest : List (List (Call u.q))} : s.batches = b :: rest → s.Idle →
      t.thread = s.thread → t.batches = rest → t.due.Sublist b → t.pending = t.due → Flow s t
  | closed : s.Idle → s.pending = [] → t.thread = s.thread →
      t.batches = s.batches ∨ t.batches = [] → t.due = [] → t.pending = s.pending → Flow s t

theorem Step.flow (h : Step s ev t) : Flow s t := by
  cases h with
  | stop | expire | exit | conclude | mainTake | mainSignal | mainGo | sweep | finish =>
    exact .same rfl rfl rfl rfl
  | move hi | start hi | spawn hi | register hi | take hi | signal hi | pop hi | refuse hi =>
    exact .inCall hi rfl rfl rfl rfl
  | ret hi =>
    refine .returned hi rfl rfl rfl ?_
    dsimp only [State.ret]
    split
    · exact Or.inl rfl
    · exact Or.inr rfl
  | enter hpend hnone hone => exact .entered hpend hnone hone rfl rfl rfl rfl
  | begin _ hb _ _ hidle => exact .begun hb hidle rfl rfl List.filter_sublist rfl
  | close _ hpend hidle =>
    refine .closed hidle hpend rfl ?_ rfl rfl
    dsimp only
    split
    · exact Or.inr rfl
    · exact Or.inl rfl

/-- Which calls may be running and which may be still to come. -/
structure State.Called (s : State u) : Prop where
  batches : ∀ b ∈ s.batches, b ∈ u.q.batches
  due : ∀ c ∈ s.due, ∀ c' ∈ s.due, ∃ b ∈ u.q.batches, c ∈ b ∧ c' ∈ b
  pending : s.pending ⊆ s.due
  nodup : (s.pending.map Call.arm).Nodup
  thread : ∀ i c pc, s.thread i = some (c, pc) → c.arm = i ∧ c ∈ s.due ∧ i ∉ s.pending.map Call.arm
  alone : u.q.concurrent = false → ∀ i j, s.thread i ≠ none → s.thread j ≠ none → i = j

theorem called_init : (State.init u).Called :=
  ⟨fun _ => id, nofun, List.nil_subset _, List.nodup_nil, nofun, fun _ _ _ h => absurd rfl h⟩

theorem called_step (hs : s.Called) (h : Flow s t) : t.Called := by
  cases h with
  | same ht hb hd hp =>
    exact ⟨hb ▸ hs.batches, hd ▸ hs.due, hp ▸ hd ▸ hs.pending, hp ▸ hs.nodup,
      ht ▸ hd ▸ hp ▸ hs.thread, ht ▸ hs.alone⟩
  | @inCall i c pc pc' hi ht hb hd hp =>
    refine ⟨hb ▸ hs.batches, hd ▸ hs.due, hp ▸ hd ▸ hs.pending, hp ▸ hs.nodup, ?_, ?_⟩
    · intro j c' pc'' hj
      rw [hd, hp]
      by_cases hji : j = i
      · subst hji
        rw [ht, Function.update_self] at hj
        cases hj
        exact hs.thread j c pc hi
      · rw [ht, Function.update_of_ne hji] at hj
        exact hs.thread j c' pc'' hj
    · have hlive : ∀ j, t.thread j ≠ none → s.thread j ≠ none := by
        intro j hj
        by_cases hji : j = i
        · rw [hji, hi]
          exact Option.some_ne_none _
        · rwa [ht, Function.update_of_ne hji] at hj
      exact fun hseq j j' hj hj' => hs.alone hseq j j' (hlive j hj) (hlive j' hj')
  | @returned i c pc hi ht hb hd hp =>
    have hlive : ∀ j o, t.thread j = some o → s.thread j = some o := by
      intro j o hj
      by_cases hji : j = i
      · rw [ht, hji, Function.update_self] at hj
        cases hj
      · rwa [ht, Function.update_of_ne hji] at hj
    have hsub : t.pending.Sublist s.pending := by
      rcases hp with hp | hp
      · exact hp ▸ List.Sublist.refl _
      · exact hp ▸ List.nil_sublist _
    refine ⟨hb ▸ hs.batches, hd ▸ hs.due, hd ▸ List.Subset.trans hsub.subset hs.pending,
      hs.nodup.sublist (hsub.map _), ?_, ?_⟩
    · intro j c' pc' hj
      obtain ⟨harm, hdue, hnot⟩ := hs.thread j c' pc' (hlive j _ hj)
      exact ⟨harm, hd ▸ hdue, fun hmem => hnot ((hsub.map _).subset hmem)⟩
    · intro hseq j j' hj hj'
      obtain ⟨o, ho⟩ := Option.ne_none_iff_exists'.mp hj
      obtain ⟨o', ho'⟩ := Option.ne_none_iff_exists'.mp hj'
      exact hs.alone hseq j j' (by rw [hlive j o ho]; exact Option.some_ne_none _)
        (by rw [hlive j' o' ho']; exact Option.some_ne_none _)
  | @entered c rest hpend hnone hone ht hb hd hp =>
    have hnodup : (c.arm :: rest.map Call.arm).Nodup := by
      have := hs.nodup
      rwa [hpend] at this
    have hdue : c :: rest ⊆ s.due := hpend ▸ hs.pending
    refine ⟨hb ▸ hs.batches, hd ▸ hs.due, ?_, hp ▸ (List.nodup_cons.mp hnodup).2, ?_, ?_⟩
    · rw [hp, hd]
      exact fun c' hc' => hdue (List.mem_cons_of_mem c hc')
    · intro j c' pc hj
      rw [hd, hp]
      by_cases hji : j = c.arm
      · subst hji
        rw [ht, Function.update_self] at hj
        cases hj
        exact ⟨rfl, hdue List.mem_cons_self, (List.nodup_cons.mp hnodup).1⟩
      · rw [ht, Function.update_of_ne hji] at hj
        obtain ⟨harm, hdue', hnot⟩ := hs.thread j c' pc hj
        rw [hpend] at hnot
        exact ⟨harm, hdue', fun hmem => hnot (List.mem_cons_of_mem _ hmem)⟩
    · -- one at a time: no call was running
      intro hseq
      have hidle : s.Idle := hone.resolve_left (by rw [hseq]; exact Bool.false_ne_true)
      have honly : ∀ j, t.thread j ≠ none → j = c.arm := by
        intro j hj
        by_contra hne
        rw [ht, Function.update_of_ne hne] at hj
        exact hj (hidle j)
      exact fun j j' hj hj' => (honly j hj).trans (honly j' hj').symm
  | @begun b rest hbatch hidle ht hb hd hp =>
    have hmem : b ∈ u.q.batches := hs.batches b (hbatch ▸ List.mem_cons_self)
    refine ⟨?_, fun c hc c' hc' => ⟨b, hmem, hd.subset hc, hd.subset hc'⟩,
      hp ▸ List.Subset.refl _, ?_, ?_, ?_⟩
    · rw [hb]
      exact fun b' hb' => hs.batches b' (hbatch ▸ List.mem_cons_of_mem b hb')
    · rw [hp]
      exact (Arms.Setup.nodup_arms hmem).sublist (hd.map _)
    · intro j c pc hj
      rw [ht, hidle j] at hj
      cases hj
    · intro _ j j' hj
      rw [ht] at hj
      exact absurd (hidle j) hj
  | closed hidle hpend ht hb hd hp =>
    refine ⟨?_, by rw [hd]; nofun, by rw [hp, hpend]; exact List.nil_subset _, hp ▸ hs.nodup,
      ?_, ?_⟩
    · rcases hb with hb | hb
      · exact hb ▸ hs.batches
      · rw [hb]
        nofun
    · intro j c pc hj
      rw [ht, hidle j] at hj
      cases hj
    · intro _ j j' hj
      rw [ht] at hj
      exact absurd (hidle j) hj

/-- What a step does to the children: one is spawned, or something happens to one that runs. -/
inductive Grow (s t : State u) : Prop
  | same : t.procs = s.procs → t.next = s.next → Grow s t
  | spawned {c : Call u.q} :
      t.procs = Function.update s.procs s.next (some ⟨c, none, false⟩) → t.next = s.next + 1 →
      Grow s t
  | one {x : ChildId} {f : Proc u → Proc u} :
      t.procs = Function.update s.procs x ((s.procs x).map f) → t.next = s.next →
      (∀ p, s.procs x = some p → p.exited ≠ none → f p = p) → Grow s t

theorem grow_signal (x : ChildId) (ht : t.procs = (s.signal x).procs) (hn : t.next = s.next) :
    Grow s t :=
  .one ht hn fun _ _ hgone => if_neg hgone

theorem Step.grow (h : Step s ev t) : Grow s t := by
  cases h with
  | stop | expire | begin | enter | move | start | register | take | pop | refuse | ret | close
  | conclude | mainTake | mainGo | sweep | finish => exact .same rfl rfl
  | spawn => exact .spawned rfl rfl
  | @exit x rc hx =>
    refine .one (x := x) rfl rfl fun p hp hgone => ?_
    obtain ⟨p', hp', hruns⟩ := hx
    rw [hp] at hp'
    cases hp'
    exact absurd hruns hgone
  | @signal i c k x => exact grow_signal x rfl rfl
  | @mainSignal x => exact grow_signal x rfl rfl

theorem fresh_step (hs : ∀ k, s.next ≤ k → s.procs k = none) (h : Grow s t) :
    ∀ k, t.next ≤ k → t.procs k = none := by
  intro k hk
  cases h with
  | same ht hn => exact ht ▸ hs k (hn ▸ hk)
  | spawned ht hn =>
    rw [hn] at hk
    rw [ht, Function.update_of_ne (Nat.ne_of_gt hk)]
    exact hs k (Nat.le_of_succ_le hk)
  | @one x f ht hn =>
    by_cases hkx : k = x
    · rw [ht, hkx, Function.update_self, ← hkx, hs k (hn ▸ hk)]
      rfl
    · rw [ht, Function.update_of_ne hkx]
      exact hs k (hn ▸ hk)

/-- A child that has exited stays so. -/
theorem exited_step (hs : ∀ k, s.next ≤ k → s.procs k = none) (h : Grow s t)
    (hk : ∃ p, s.procs k = some p ∧ p.exited ≠ none) :
    ∃ p, t.procs k = some p ∧ p.exited ≠ none := by
  obtain ⟨p, hp, hgone⟩ := hk
  cases h with
  | same ht => exact ⟨p, ht ▸ hp, hgone⟩
  | spawned ht =>
    have hne : k ≠ s.next := by
      rintro rfl
      rw [hs _ (Nat.le_refl _)] at hp
      cases hp
    exact ⟨p, by rw [ht, Function.update_of_ne hne, hp], hgone⟩
  | @one x f ht _ hf =>
    by_cases hkx : k = x
    · subst hkx
      refine ⟨p, ?_, hgone⟩
      rw [ht, Function.update_self, hp, Option.map_some, hf p hp hgone]
    · exact ⟨p, by rw [ht, Function.update_of_ne hkx, hp], hgone⟩

/-! ## `main` -/

/-- `main` is done with its loops only when every call has returned. -/
def State.Parked (s : State u) : Prop :=
  s.main ≠ .working → s.Idle ∧ s.batches = [] ∧ s.due = [] ∧ s.pending = []

theorem parked_init : (State.init u).Parked := fun h => absurd rfl h

theorem parked_step (hp : s.Parked) (h : Step s ev t) : t.Parked := by
  cases h with
  | stop | expire | exit => exact hp
  | begin hm => exact fun hw => absurd hm hw
  | enter hpend =>
    intro hw
    rw [(hp hw).2.2.2] at hpend
    cases hpend
  | move hi | start hi | spawn hi | register hi | take hi | signal hi | pop hi | refuse hi
  | ret hi =>
    intro hw
    rw [(hp hw).1] at hi
    cases hi
  | close hdue =>
    intro hw
    exact absurd (hp hw).2.2.1 hdue
  | conclude _ hb hd hpend hidle => exact fun _ => ⟨hidle, hb, hd, hpend⟩
  | mainTake hm | mainSignal hm | mainGo hm | sweep hm | finish hm =>
    exact fun _ => hp (by rw [hm]; nofun)

theorem run_called {l : List (Event u)} (h : Run Step (State.init u) l s) : s.Called :=
  h.invariant called_init fun _ _ _ hc hstep => called_step hc hstep.flow

theorem run_parked {l : List (Event u)} (h : Run Step (State.init u) l s) : s.Parked :=
  h.invariant parked_init fun _ _ _ => parked_step

/-! ## Two experiments side by side -/

theorem nodup_threads :
    ∀ p ∈ [([] : Experiment.Dict)], (("threads" : String) :: p.map Prod.fst).Nodup := by
  simp

def twoArms : Arms.Setup :=
  { arms := [⟨Runner.threadFile [[]] nodup_threads, 0, 1⟩,
      ⟨Runner.threadFile [[]] nodup_threads, 0, 1⟩]
    interleave := true
    concurrent := true
    interleave_of_concurrent := Eq.symm }

/-- Two experiments of one point, side by side. -/
def pair (n m : String) : Setup := ⟨twoArms, fun i => if i.1 = 0 then n else m⟩

variable {n m : String}

def pair.fst : (pair n m).q.Index := ⟨0, Nat.zero_lt_two⟩

def pair.snd : (pair n m).q.Index := ⟨1, Nat.one_lt_two⟩

/-- The call for its point. -/
def pair.call (i : (pair n m).q.Index) : Call (pair n m).q := ⟨i, 1, .point "64"⟩

theorem pair.eq_fst_or_snd (i : (pair n m).q.Index) : i = fst ∨ i = snd := by
  obtain ⟨i, hi⟩ := i
  have hlt : i < 2 := hi
  rcases (show i = 0 ∨ i = 1 by omega) with rfl | rfl
  · exact Or.inl rfl
  · exact Or.inr rfl

theorem twoArms_batches : twoArms.batches =
    [⟨⟨0, by decide⟩, 1, .point "64"⟩, ⟨⟨1, by decide⟩, 1, .point "64"⟩] ::
      [[⟨⟨0, by decide⟩, 1, .plots⟩], [⟨⟨1, by decide⟩, 1, .plots⟩]] := by
  decide +kernel

theorem batchVerdict_eq {c c' : Call u.q} (hdue : s.due = [c, c']) :
    s.batchVerdict = (s.early c').or ((s.early c).or none) := by
  rw [State.batchVerdict, hdue]
  rfl

variable {ok : State u → Event u → Prop}

/-- No call returns. -/
def Event.Stays (ev : Event u) : Prop := ∀ i r, ev ≠ .ret i r

theorem stays_sweep : (Event.sweep : Event u).Stays := nofun

theorem stays_finish : (Event.finish : Event u).Stays := nofun

/-- Any step. -/
def Any (_ : State u) (_ : Event u) : Prop := True

theorem any_of_stays (s : State u) (ev : Event u) (_ : ev.Stays) : Any s ev := trivial

theorem run_stay (hok : ∀ s ev, ev.Stays → ok s ev) {s₀ : State u} {l : List (Event u)}
    (h : Run (Guarded Step ok) s₀ l s) (hstep : Step s ev t) (hev : ev.Stays) :
    Run (Guarded Step ok) s₀ (l ++ [ev]) t :=
  h.snoc ⟨hok s ev hev, hstep⟩

/-- From the end of a queue's last batch to the call of `sweep`. -/
theorem run_close (hok : ∀ s ev, ev.Stays → ok s ev) {s₀ : State u} {l : List (Event u)}
    {c c' : Call u.q} {v : Early} (h : Run (Guarded Step ok) s₀ l s) (hdue : s.due = [c, c'])
    (hpend : s.pending = []) (hidle : s.Idle) (hm : s.main = .working) (htable : s.table = [])
    (hverdict : (s.early c').or ((s.early c).or none) = some v) (hsweep : v ≠ .credentials) :
    ∃ m t, Run (Guarded Step ok) s₀ (l ++ m) t ∧ t.main = .sweeping ∧ t.procs = s.procs ∧
      t.status = s.status ∧ t.verdict = some v := by
  replace hverdict : s.batchVerdict = some v := (batchVerdict_eq hdue).trans hverdict
  have hsome : s.batchVerdict.isSome = true := by
    rw [hverdict]
    rfl
  have hne : s.due ≠ [] := by
    rw [hdue]
    exact List.cons_ne_nil _ _
  have h₁ := run_stay hok h (Step.close hne hpend hidle) nofun
  have h₂ := run_stay hok h₁ (Step.conclude hm (if_pos hsome) rfl hpend hidle) nofun
  have h₃ := run_stay hok h₂ (Step.mainTake (if_pos hsome)) nofun
  rw [htable] at h₃
  have h₄ := run_stay hok h₃ (Step.mainGo rfl) nofun
  simp only [List.append_assoc] at h₄
  refine ⟨_, _, h₄, if_neg ?_, rfl, rfl, hverdict⟩
  exact fun hcred => hsweep (Option.some.inj (hverdict.symm.trans hcred))

/-- Both experiments' children run, and both were registered. -/
structure SideBySide (s : State (pair n m)) : Prop where
  fst : s.thread pair.fst = some (pair.call pair.fst, .polling 0)
  snd : s.thread pair.snd = some (pair.call pair.snd, .polling 1)
  procFst : s.procs 0 = some ⟨pair.call pair.fst, none, false⟩
  procSnd : s.procs 1 = some ⟨pair.call pair.snd, none, false⟩
  table : s.table = [(n, 0)].filter (fun e => e.1 ≠ m) ++ [(m, 1)]
  due : s.due = [pair.call pair.fst, pair.call pair.snd]
  pending : s.pending = []
  main : s.main = .working
  stopping : s.stopping = true
  results : s.results = fun _ => none

open pair in
theorem run_sideBySide {ok : State (pair n m) → Event (pair n m) → Prop}
    (hok : ∀ s ev, ev.Stays → ok s ev) :
    ∃ l s, Run (Guarded Step ok) (State.init (pair n m)) l s ∧ SideBySide s := by
  have h₁ := run_stay hok Run.nil
    (.begin (s := State.init (pair n m)) rfl twoArms_batches rfl rfl fun _ => rfl) nofun
  have h₂ := run_stay hok h₁ (.enter (c := call fst) rfl rfl (Or.inl rfl)) nofun
  have h₃ := run_stay hok h₂ (.enter (c := call snd) rfl rfl (Or.inl rfl)) nofun
  have h₄ := run_stay hok h₃ (.move (i := fst) rfl (.pass rfl)) nofun
  have h₅ := run_stay hok h₄ (.start (i := fst) rfl rfl) nofun
  have h₆ := run_stay hok h₅ (.spawn (i := fst) rfl) nofun
  have h₇ := run_stay hok h₆ (.register (i := fst) rfl) nofun
  have h₈ := run_stay hok h₇ (.move (i := snd) rfl (.pass rfl)) nofun
  have h₉ := run_stay hok h₈ (.start (i := snd) rfl rfl) nofun
  have h₁₀ := run_stay hok h₉ (.spawn (i := snd) rfl) nofun
  have h₁₁ := run_stay hok h₁₀ (.register (i := snd) rfl) nofun
  have h₁₂ := run_stay hok h₁₁ .stop nofun
  exact ⟨_, _, h₁₂, rfl, rfl, rfl, rfl, rfl, rfl, rfl, rfl, rfl, rfl⟩

/-- `Step.take`, for a table that is known. -/
theorem step_take {c : Call u.q} {table : List (String × ChildId)}
    (hi : s.thread i = some (c, .taking k)) (htable : s.table = table) :
    Step s (.take i)
      (State.setThread { s with table := [] } i c (.signalling k (table.map Prod.snd))) :=
  htable ▸ .take hi

theorem early_or {c c' : Call u.q} {v : Early}
    (h : s.results (u.name c'.arm) = some (.early v)) :
    (s.early c').or ((s.early c).or none) = some v := by
  rw [State.early, h]
  rfl

/-- The first experiment has stopped, and has signalled both children. -/
structure FirstStopped (s : State (pair n m)) : Prop where
  fst : s.thread pair.fst = none
  snd : s.thread pair.snd = some (pair.call pair.snd, .polling 1)
  procFst : s.procs 0 = some ⟨pair.call pair.fst, none, true⟩
  procSnd : s.procs 1 = some ⟨pair.call pair.snd, none, true⟩
  table : s.table = []
  due : s.due = [pair.call pair.fst, pair.call pair.snd]
  pending : s.pending = []
  main : s.main = .working
  stopping : s.stopping = true
  results : s.results = Function.update (fun _ => none) n (some (.early .stopped))

open pair in
theorem run_firstStopped {ok : State (pair n m) → Event (pair n m) → Prop}
    (hok : ∀ s ev, ev.Stays → ok s ev)
    (hret : ∀ s i c k, s.thread i = some (c, .signalling k []) → ok s (.ret i (.early .stopped)))
    (hne : n ≠ m) : ∃ l s, Run (Guarded Step ok) (State.init (pair n m)) l s ∧ FirstStopped s := by
  obtain ⟨l, s, h, hs⟩ := run_sideBySide hok
  have htable : s.table = [(n, 0), (m, 1)] := by simp [hs.table, hne]
  have h₁ := run_stay hok h (.move hs.fst (.runs ⟨_, hs.procFst, rfl⟩)) nofun
  have h₂ := run_stay hok h₁ (.move (i := fst) rfl (.giveUp (Or.inl hs.stopping))) nofun
  have h₃ := run_stay hok h₂ (step_take (i := fst) rfl htable) nofun
  have h₄ := run_stay hok h₃ (.signal (i := fst) rfl) nofun
  have h₅ := run_stay hok h₄ (.signal (i := fst) rfl) nofun
  have h₆ := h₅.snoc ⟨hret _ fst (call fst) 0 rfl, .ret (i := fst) rfl (.ended hs.stopping)⟩
  refine ⟨_, _, h₆, rfl, hs.snd, ?_, ?_, rfl, hs.due, hs.pending, hs.main, hs.stopping, ?_⟩
  · exact congrArg (Option.map _) hs.procFst
  · exact congrArg (Option.map _) hs.procSnd
  · exact congrArg (Function.update · n _) hs.results

open pair in
theorem run_bothStopped {ok : State (pair n m) → Event (pair n m) → Prop}
    (hok : ∀ s ev, ev.Stays → ok s ev)
    (hret : ∀ s i c k, s.thread i = some (c, .signalling k []) → ok s (.ret i (.early .stopped)))
    (hne : n ≠ m) :
    ∃ l s, Run (Guarded Step ok) (State.init (pair n m)) l s ∧ s.main = .sweeping ∧
      s.procs 0 = some ⟨call fst, none, true⟩ ∧ s.procs 1 = some ⟨call snd, none, true⟩ := by
  obtain ⟨l, s, h, hs⟩ := run_firstStopped hok hret hne
  have h₁ := run_stay hok h (.move hs.snd (.runs ⟨_, hs.procSnd, rfl⟩)) nofun
  have h₂ := run_stay hok h₁ (.move (i := snd) rfl (.giveUp (Or.inl hs.stopping))) nofun
  have h₃ := run_stay hok h₂ (step_take (i := snd) rfl hs.table) nofun
  have h₄ := h₃.snoc ⟨hret _ snd (call snd) 1 rfl, .ret (i := snd) rfl (.ended hs.stopping)⟩
  obtain ⟨m, t, ht, hm, hprocs, -⟩ := run_close hok h₄ hs.due hs.pending
    (fun i => by rcases eq_fst_or_snd i with rfl | rfl; exacts [hs.fst, rfl]) hs.main rfl
    (early_or (Function.update_self ..)) nofun
  exact ⟨_, t, ht, hm, (congrFun hprocs 0).trans hs.procFst, (congrFun hprocs 1).trans hs.procSnd⟩

end Children
