import MiniosvCtrl.Properties.Children

/-!
# A stop is not a failure

One `end_child` signals the children of all threads. A thread whose child is signalled goes on as if
nothing had happened: if it polls before it looks at the clock, it takes the exit code for the
experiment's own.

* `Fate` — what becomes of a child that runs or was signalled, and of its experiment
* `State.Spares` — no exit of a signalled child is judged, and no early result is lost
* `stopped_of_spares` — in a run of such steps, a member whose child was signalled is not blamed
* `failed_afterPoll` — a run in which one is
-/

namespace Children

open Infra Arms

variable {u : Setup} {s t : State u} {ev : Event u} {k : ChildId} {i : u.q.Index}

/-- The child whose attempt it is. -/
def Pc.child : Pc → Option ChildId
  | .spawned k | .polling k | .checking k | .taking k | .signalling k _ | .exited k | .judging k =>
    some k
  | _ => none

/-- In `end_child`. -/
def Pc.Ends : Pc → Prop
  | .taking _ | .signalling _ _ => True
  | _ => False

namespace State

/-- The queue is to end. -/
def Ending (s : State u) : Prop := s.stopping = true ∨ s.expired = true

/-- The experiment is neither done nor failed. -/
def Open (s : State u) (i : u.q.Index) : Prop := s.status i = .running ∨ s.status i = .waiting

/-- The queue ended early, and left the experiment with its verdict. -/
structure Over (s : State u) (i : u.q.Index) : Prop where
  idle : s.Idle
  batches : s.batches = []
  due : s.due = []
  pending : s.pending = []
  verdict : ∃ v, s.verdict = some v ∧ (s.main = .returned → s.status i = .ended v)
  status : s.main ≠ .returned → s.Open i

/--
`run_one` judges no exit of a child that was signalled, and its result does not replace an early
one of the same name.
-/
def Spares (s : State u) : Event u → Prop
  | .ret i r => ∀ c pc, s.thread i = some (c, pc) →
      (∀ k p, pc = .judging k → s.procs k = some p → p.signalled = false) ∧
        (c.pass ≠ .plots → (∃ v, s.results (u.name i) = some (.early v)) → ∃ v, r = .early v)
  | _ => True

end State

/-- What becomes of a child that runs or was signalled, and of its experiment. -/
inductive Fate (s : State u) (k : ChildId) (p : Proc u) : Prop
  | atChild {pc : Pc} : s.thread p.call.arm = some (p.call, pc) → pc.child = some k →
      (p.signalled = true → s.Ending) → s.Open p.call.arm → Fate s k p
  /-- Spot refused it. -/
  | again {pc : Pc} : s.thread p.call.arm = some (p.call, pc) → pc = .backoff ∨ pc = .top →
      s.Ending → s.Open p.call.arm → Fate s k p
  | atClock : s.thread p.call.arm = some (p.call, .clock) → s.expired = true →
      s.Open p.call.arm → Fate s k p
  | left {v : Early} : s.thread p.call.arm = none → p.call.arm ∉ s.pending.map Call.arm →
      p.call ∈ s.due → s.results (u.name p.call.arm) = some (.early v) → s.Open p.call.arm →
      Fate s k p
  | past : s.Over p.call.arm → Fate s k p

/-- A step of another thread. -/
theorem Fate.frame {p p' : Proc u} (h : Fate s k p) (hcall : p'.call = p.call)
    (hsig : p'.signalled = true → p.signalled = true ∨ t.Ending)
    (hthread : t.thread p.call.arm = s.thread p.call.arm)
    (hstatus : t.status p.call.arm = s.status p.call.arm) (hdue : t.due = s.due)
    (hpend : t.pending.Sublist s.pending)
    (hresults : ∀ v, s.results (u.name p.call.arm) = some (.early v) →
      ∃ v', t.results (u.name p.call.arm) = some (.early v'))
    (hending : s.Ending → t.Ending) (hexp : s.expired = true → t.expired = true)
    (hover : s.Over p.call.arm → t.Over p.call.arm) : Fate t k p' := by
  have hopen : s.Open p.call.arm → t.Open p.call.arm := by
    unfold State.Open
    rw [hstatus]
    exact id
  cases h with
  | atChild hi hk hs ho =>
    refine .atChild (by rw [hcall, hthread, hi]) hk (fun h => ?_) (hcall ▸ hopen ho)
    exact (hsig h).elim (fun h => hending (hs h)) id
  | again hi hpc he ho =>
    exact .again (by rw [hcall, hthread, hi]) hpc (hending he) (hcall ▸ hopen ho)
  | atClock hi he ho =>
    exact .atClock (by rw [hcall, hthread, hi]) (hexp he) (hcall ▸ hopen ho)
  | left hi hnot hd hr ho =>
    obtain ⟨v', hr'⟩ := hresults _ hr
    exact .left (by rw [hcall, hthread, hi]) (hcall ▸ fun h => hnot ((hpend.map _).subset h))
      (by rw [hcall, hdue]; exact hd) (by rw [hcall, hr']) (hcall ▸ hopen ho)
  | past h => exact .past (hcall ▸ hover h)

/-- A step of another thread than the child's. -/
theorem Fate.other {j : u.q.Index} {x : Call u.q × Pc} {o : Option (Call u.q × Pc)} {p p' : Proc u}
    (h : Fate s k p) (hcall : p'.call = p.call)
    (hsig : p'.signalled = true → p.signalled = true ∨ t.Ending) (hj : s.thread j = some x)
    (hne : p.call.arm ≠ j) (hthread : t.thread = Function.update s.thread j o)
    (hstatus : t.status p.call.arm = s.status p.call.arm) (hdue : t.due = s.due)
    (hpend : t.pending.Sublist s.pending)
    (hresults : ∀ v, s.results (u.name p.call.arm) = some (.early v) →
      ∃ v', t.results (u.name p.call.arm) = some (.early v'))
    (hending : s.Ending → t.Ending) (hexp : s.expired = true → t.expired = true) :
    Fate t k p' := by
  refine h.frame hcall hsig (by rw [hthread, Function.update_of_ne hne]) hstatus hdue hpend hresults
    hending hexp fun hover => ?_
  rw [hover.idle] at hj
  cases hj

/-- Where the child's own thread can be. -/
theorem Fate.own {p : Proc u} {c : Call u.q} {pc : Pc} (h : Fate s k p)
    (hi : s.thread p.call.arm = some (c, pc)) :
    c = p.call ∧ s.Open p.call.arm ∧
      ((pc.child = some k ∧ (p.signalled = true → s.Ending)) ∨
        ((pc = .backoff ∨ pc = .top) ∧ s.Ending) ∨ (pc = .clock ∧ s.expired = true)) := by
  cases h with
  | atChild hi' hk hs ho =>
    rw [hi] at hi'
    cases hi'
    exact ⟨rfl, ho, Or.inl ⟨hk, hs⟩⟩
  | again hi' hpc he ho =>
    rw [hi] at hi'
    cases hi'
    exact ⟨rfl, ho, Or.inr (Or.inl ⟨hpc, he⟩)⟩
  | atClock hi' he ho =>
    rw [hi] at hi'
    cases hi'
    exact ⟨rfl, ho, Or.inr (Or.inr ⟨rfl, he⟩)⟩
  | left hi' =>
    rw [hi] at hi'
    cases hi'
  | past hover =>
    rw [hover.idle] at hi
    cases hi

/-- No thread of an experiment starts another child after one that was signalled. -/
theorem Fate.not_fresh {p : Proc u} {c : Call u.q} {pc : Pc} (h : Fate s k p)
    (hi : s.thread p.call.arm = some (c, pc)) (hk : pc.child = none)
    (hpc : pc = .backoff ∨ pc = .top → ¬ s.Ending) (hclock : pc = .clock → s.expired = false) :
    False := by
  rcases (h.own hi).2.2 with ⟨hk', -⟩ | ⟨hpc', he⟩ | ⟨hc, he⟩
  · rw [hk] at hk'
    cases hk'
  · exact hpc hpc' he
  · rw [hclock hc] at he
    cases he

/-- What holds in every run whose steps all spare the signalled. -/
structure State.Fated (s : State u) : Prop where
  ready : ∀ i c, s.thread i = some (c, .ready) → s.Open i
  ending : ∀ i c pc, s.thread i = some (c, pc) → pc.Ends → s.Ending
  fate : ∀ k p, s.procs k = some p → p.call.pass ≠ .plots →
    p.exited = none ∨ p.signalled = true → Fate s k p

theorem fated_init : (State.init u).Fated := ⟨nofun, nofun, nofun⟩

theorem ready_step (hp : s.Parked) (hs : ∀ i c, s.thread i = some (c, .ready) → s.Open i)
    (h : Step s ev t) {c : Call u.q} (hi : t.thread i = some (c, .ready)) : t.Open i := by
  have hmoved : ∀ {j : u.q.Index} {o : Option (Call u.q × Pc)},
      t.thread = Function.update s.thread j o → (o = some (c, .ready) → i = j → t.Open i) →
      (∀ i ≠ j, t.status i = s.status i) → t.Open i := by
    intro j o ht ho hstatus
    by_cases hij : i = j
    · rw [hij, ht, Function.update_self] at hi
      exact ho hi hij
    · rw [ht, Function.update_of_ne hij] at hi
      unfold State.Open
      rw [hstatus i hij]
      exact hs i c hi
  cases h with
  | stop | expire | exit | begin | close | conclude | mainTake | mainSignal | mainGo | sweep =>
    exact hs i c hi
  | finish hm =>
    rw [show s.thread i = none from (hp (by rw [hm]; nofun)).1 i] at hi
    cases hi
  | enter | spawn | register | take | signal | pop => exact hmoved rfl nofun fun _ _ => rfl
  | move _ hm =>
    refine hmoved rfl (fun ho => ?_) fun _ _ => rfl
    cases ho
    cases hm
  | start =>
    refine hmoved rfl (fun _ hij => ?_) fun _ hne => Function.update_of_ne hne _ _
    exact Or.inl (by rw [hij]; exact Function.update_self ..)
  | refuse => exact hmoved rfl nofun fun _ hne => Function.update_of_ne hne _ _
  | ret => exact hmoved rfl nofun fun _ hne => Function.update_of_ne hne _ _

theorem ending_mono (h : Step s ev t) (he : s.Ending) : t.Ending := by
  cases h with
  | stop => exact Or.inl rfl
  | expire => exact Or.inr rfl
  | _ => exact he

theorem ending_step (hs : ∀ i c pc, s.thread i = some (c, pc) → pc.Ends → s.Ending)
    (h : Step s ev t) {c : Call u.q} {pc : Pc} (hi : t.thread i = some (c, pc)) (hpc : pc.Ends) :
    t.Ending := by
  by_cases hkeep : s.thread i = some (c, pc)
  · exact ending_mono h (hs i c pc hkeep hpc)
  -- a thread that was elsewhere is there by its own step
  have hmoved : ∀ {j : u.q.Index} {o : Option (Call u.q × Pc)},
      t.thread = Function.update s.thread j o → (o = some (c, pc) → t.Ending) → t.Ending := by
    intro j o ht ho
    by_cases hij : i = j
    · rw [hij, ht, Function.update_self] at hi
      exact ho hi
    · rw [ht, Function.update_of_ne hij] at hi
      exact absurd hi hkeep
  cases h with
  | stop | expire | exit | begin | close | conclude | mainTake | mainSignal | mainGo | sweep
  | finish => exact absurd hi hkeep
  | enter | start | spawn | register | pop | refuse =>
    refine hmoved rfl fun ho => ?_
    cases ho
    exact hpc.elim
  | ret => exact hmoved rfl nofun
  | @move j c' pc₁ pc₂ _ hm =>
    refine hmoved rfl fun ho => ?_
    cases ho
    cases hm with
    | giveUp hor => exact hor
    | pass | runs | gone | goOn | retry => exact hpc.elim
  | take hj => exact hmoved rfl fun _ => hs _ _ _ hj trivial
  | signal hj => exact hmoved rfl fun _ => hs _ _ _ hj trivial

theorem Moves.child {pc pc' : Pc} (h : Moves s pc pc') (hk : pc.child = some k) :
    pc'.child = some k := by
  cases h <;> exact hk

/-- A move of the child's own thread. -/
theorem fate_move {p : Proc u} {c : Call u.q} {pc pc' : Pc} (hf : Fate s k p)
    (hi : s.thread p.call.arm = some (c, pc)) (hm : Moves s pc pc') :
    Fate (s.setThread p.call.arm c pc') k p := by
  obtain ⟨rfl, ho, hk | ⟨hpc, he⟩ | ⟨rfl, -⟩⟩ := hf.own hi
  · exact .atChild (Function.update_self ..) (hm.child hk.1) hk.2 ho
  · cases hm with
    | retry => exact .again (Function.update_self ..) (Or.inr rfl) he ho
    | pass hstop =>
      -- not stopped, so the deadline is past, and the clock will tell
      refine .atClock (Function.update_self ..) (he.resolve_left ?_) ho
      rw [hstop]
      exact Bool.false_ne_true
    | runs | gone | goOn | giveUp => exact hpc.elim nofun nofun
  · cases hm

/-- A return of the child's own thread. -/
theorem fate_ret {p : Proc u} {c : Call u.q} {pc : Pc} {r : Result} (hc : s.Called)
    (hf : Fate s k p) (hp : s.procs k = some p) (hpass : p.call.pass ≠ .plots)
    (hk : p.exited = none ∨ p.signalled = true) (hok : s.Spares (.ret p.call.arm r))
    (hi : s.thread p.call.arm = some (c, pc)) (hr : Returns s pc r) :
    (r = .early .stopped ∨ r = .early .expired) ∧ Fate (s.ret p.call.arm c r) k p := by
  obtain ⟨rfl, ho, hat⟩ := hf.own hi
  have hjudged : ∀ k' rc, pc = .judging k' → ¬ s.Exited k' rc := by
    rintro k' rc rfl ⟨p', hp', hrc⟩
    obtain ⟨hk', -⟩ | ⟨hpc, -⟩ | ⟨hpc, -⟩ := hat
    · cases hk'
      rw [hp] at hp'
      cases hp'
      -- it has exited, so it was signalled, and `hok` says that it was not
      have hsig := hk.resolve_left (by rw [hrc]; exact Option.some_ne_none rc)
      rw [(hok _ _ hi).1 _ p rfl hp] at hsig
      cases hsig
    · exact hpc.elim nofun nofun
    · cases hpc
  have hearly : r = .early .stopped ∨ r = .early .expired := by
    cases hr with
    | stopped | ended => exact Or.inl rfl
    | expired | late => exact Or.inr rfl
    | done hexit | credentials hexit | failed hexit => exact absurd hexit (hjudged _ _ rfl)
  obtain ⟨v, rfl, hstatus⟩ : ∃ v, r = .early v ∧ ∀ st, r.status st = st := by
    rcases hearly with rfl | rfl
    · exact ⟨_, rfl, fun _ => rfl⟩
    · exact ⟨_, rfl, fun _ => rfl⟩
  obtain ⟨-, hdue, hnot⟩ := hc.thread _ _ _ hi
  refine ⟨hearly, .left (v := v) (Function.update_self ..) ?_ hdue ?_ ?_⟩
  · dsimp only [State.ret]
    split
    · exact hnot
    · exact List.not_mem_nil
  · exact (congrFun (if_neg hpass) _).trans (Function.update_self ..)
  · unfold State.Open
    rw [show (s.ret p.call.arm p.call (.early v)).status p.call.arm = s.status p.call.arm from
      (Function.update_self ..).trans (hstatus _)]
    exact ho

theorem early_of_due {c : Call u.q} {v : Early} (hc : c ∈ s.due)
    (hv : s.results (u.name c.arm) = some (.early v)) : ∃ v', s.batchVerdict = some v' := by
  have hearly : s.early c = some v := by rw [State.early, hv]
  have hkeep : ∀ (due : List (Call u.q)) (o : Option Early), o.isSome = true →
      (due.foldl (fun v c => (s.early c).or v) o).isSome = true := by
    intro due
    induction due with
    | nil => exact fun _ => id
    | cons c due ih =>
      intro o ho
      exact ih _ (by rw [Option.isSome_or, ho, Bool.or_true])
  have hfold : ∀ (due : List (Call u.q)) (o : Option Early), c ∈ due →
      (due.foldl (fun v c => (s.early c).or v) o).isSome = true := by
    intro due
    induction due with
    | nil => exact fun _ hmem => absurd hmem List.not_mem_nil
    | cons c' due ih =>
      intro o hmem
      rcases List.mem_cons.mp hmem with rfl | hmem
      · exact hkeep due ((s.early c).or o) (by rw [hearly]; rfl)
      · exact ih _ hmem
  exact Option.isSome_iff_exists.mp (hfold s.due none hc)

/-- A step that changes nothing but who runs, or that the queue is to end. -/
theorem Fate.same {p p' : Proc u} (h : Fate s k p) (hcall : p'.call = p.call)
    (hsig : p'.signalled = true → p.signalled = true ∨ t.Ending) (hthread : t.thread = s.thread)
    (hstatus : t.status = s.status) (hbatches : t.batches = s.batches) (hdue : t.due = s.due)
    (hpend : t.pending = s.pending) (hresults : t.results = s.results)
    (hverdict : t.verdict = s.verdict) (hmain : t.main = s.main)
    (hending : s.Ending → t.Ending) (hexp : s.expired = true → t.expired = true) :
    Fate t k p' := by
  refine h.frame hcall hsig (by rw [hthread]) (by rw [hstatus]) hdue
    (by rw [hpend]) (fun v hv => ⟨v, by rw [hresults, hv]⟩) hending hexp fun ho => ?_
  exact ⟨by unfold State.Idle; rw [hthread]; exact ho.idle, hbatches ▸ ho.batches, hdue ▸ ho.due,
    hpend ▸ ho.pending, by rw [hverdict, hmain, hstatus]; exact ho.verdict,
    by unfold State.Open; rw [hmain, hstatus]; exact ho.status⟩

/-- The child's own thread goes on with it. -/
theorem Fate.advance {p p' : Proc u} {c : Call u.q} {pc pc' : Pc} {x : ChildId} (h : Fate s k p)
    (hcall : p'.call = p.call) (hsig : p'.signalled = true → p.signalled = true ∨ t.Ending)
    (hi : s.thread p.call.arm = some (c, pc)) (hx : pc.child = some x) (hx' : pc'.child = some x)
    (hthread : t.thread p.call.arm = some (c, pc'))
    (hstatus : t.status p.call.arm = s.status p.call.arm) (hending : s.Ending → t.Ending) :
    Fate t k p' := by
  obtain ⟨rfl, ho, ⟨hk, hs⟩ | ⟨hpc, -⟩ | ⟨hpc, -⟩⟩ := h.own hi
  · refine .atChild (by rw [hcall, hthread]) (hx'.trans (hx.symm.trans hk)) (fun h => ?_) ?_
    · exact (hsig h).elim (fun h => hending (hs h)) id
    · rw [hcall]
      unfold State.Open
      rw [hstatus]
      exact ho
  · rcases hpc with rfl | rfl <;> cases hx
  · rw [hpc] at hx
    cases hx

/-- A step of some thread that touches no child. -/
theorem Fate.inCall {p : Proc u} {x : Call u.q × Pc} {o : Option (Call u.q × Pc)} (h : Fate s k p)
    (hi : s.thread i = some x) (hown : p.call.arm = i → Fate t k p)
    (hthread : t.thread = Function.update s.thread i o)
    (hstatus : ∀ j ≠ i, t.status j = s.status j) (hdue : t.due = s.due)
    (hpend : t.pending = s.pending) (hresults : t.results = s.results)
    (hstop : t.stopping = s.stopping) (hexp : t.expired = s.expired) : Fate t k p := by
  by_cases harm : p.call.arm = i
  · exact hown harm
  · refine h.other rfl Or.inl hi harm hthread (hstatus _ harm) hdue (by rw [hpend])
      (fun v hv => ⟨v, by rw [hresults, hv]⟩) ?_ (by rw [hexp]; exact id)
    unfold State.Ending
    rw [hstop, hexp]
    exact id

/-- When no call is running, a child of a batch that goes on has no part in it. -/
theorem Fate.over_of_idle {p : Proc u} (h : Fate s k p) (hidle : s.Idle) (hdue : s.due = []) :
    s.Over p.call.arm := by
  cases h with
  | atChild hi | again hi | atClock hi =>
    rw [hidle] at hi
    cases hi
  | left _ _ hd =>
    rw [hdue] at hd
    cases hd
  | past ho => exact ho

theorem fate_enter {p : Proc u} {c : Call u.q} {rest : List (Call u.q)} (h : Fate s k p)
    (hpend : s.pending = c :: rest) (hnone : s.thread c.arm = none) :
    Fate { s.setThread c.arm c .top with pending := rest } k p := by
  by_cases harm : p.call.arm = c.arm
  · exfalso
    rw [← harm] at hnone
    cases h with
    | atChild hi | again hi | atClock hi =>
      rw [hnone] at hi
      cases hi
    | left _ hnot =>
      rw [hpend] at hnot
      exact hnot (harm ▸ List.mem_cons_self)
    | past ho =>
      rw [ho.pending] at hpend
      cases hpend
  · refine h.frame rfl Or.inl (Function.update_of_ne harm _ _) rfl rfl ?_ (fun v hv => ⟨v, hv⟩)
      id id fun ho => ?_
    · rw [hpend]
      exact List.sublist_cons_self c rest
    · rw [ho.pending] at hpend
      cases hpend

theorem fate_close {p : Proc u} (hpark : s.Parked) (h : Fate s k p) (hdue : s.due ≠ [])
    (hpend : s.pending = []) (hidle : s.Idle) :
    Fate { s with
      due := [], verdict := s.batchVerdict
      batches := if s.batchVerdict.isSome then [] else s.batches } k p := by
  cases h with
  | atChild hi | again hi | atClock hi =>
    rw [hidle] at hi
    cases hi
  | left _ _ hd hr ho =>
    obtain ⟨v, hv⟩ := early_of_due hd hr
    have hmain : s.main ≠ .returned := fun hm => hdue (hpark (by rw [hm]; nofun)).2.2.1
    exact .past ⟨hidle, if_pos (by rw [hv]; rfl), rfl, hpend, ⟨v, hv, fun hm => absurd hm hmain⟩,
      fun _ => ho⟩
  | past ho => exact absurd ho.due hdue

/-- What `main` does after its loops. -/
theorem fate_main {p p' : Proc u} (hpark : s.Parked) (h : Fate s k p) (hcall : p'.call = p.call)
    (hm : s.main ≠ .working) (hm' : t.main ≠ .returned) (hr : s.main ≠ .returned)
    (hthread : t.thread = s.thread)
    (hstatus : t.status = s.status) (hbatches : t.batches = s.batches) (hdue : t.due = s.due)
    (hpend : t.pending = s.pending) (hverdict : t.verdict = s.verdict) : Fate t k p' := by
  have ho := h.over_of_idle (hpark hm).1 (hpark hm).2.2.1
  obtain ⟨v, hv, -⟩ := ho.verdict
  refine .past ⟨by unfold State.Idle; rw [hthread]; exact ho.idle, hbatches ▸ ho.batches,
    hdue ▸ ho.due, hpend ▸ ho.pending, ⟨v, by rw [hverdict, hv], fun h => absurd h hm'⟩,
    fun _ => ?_⟩
  rw [hcall]
  unfold State.Open
  rw [hstatus]
  exact ho.status hr

theorem signal_procs {x : ChildId} {p' : Proc u} (hp' : (s.signal x).procs k = some p') :
    ∃ p, s.procs k = some p ∧ p'.call = p.call ∧ p'.exited = p.exited ∧
      (p.exited = none ∨ p'.signalled = p.signalled) := by
  by_cases hkx : k = x
  · subst hkx
    simp only [State.signal, Function.update_self, Option.map_eq_some_iff] at hp'
    obtain ⟨p, hp, rfl⟩ := hp'
    refine ⟨p, hp, ?_⟩
    split
    · exact ⟨rfl, rfl, Or.inl ‹_›⟩
    · exact ⟨rfl, rfl, Or.inr rfl⟩
  · exact ⟨p', (Function.update_of_ne hkx _ _).symm.trans hp', rfl, rfl, Or.inr rfl⟩

/-- A return of another thread. -/
theorem fate_ret_other {p : Proc u} {c : Call u.q} {pc : Pc} {r : Result} (h : Fate s k p)
    (hok : s.Spares (.ret i r)) (hi : s.thread i = some (c, pc)) (harm : p.call.arm ≠ i) :
    Fate (s.ret i c r) k p := by
  refine h.other rfl Or.inl hi harm rfl (Function.update_of_ne harm _ _) rfl ?_ (fun v hv => ?_)
    id id
  · dsimp only [State.ret]
    split
    · exact List.Sublist.refl _
    · exact List.nil_sublist _
  · dsimp only [State.ret]
    split
    · exact ⟨v, hv⟩
    · rename_i hplots
      by_cases hname : u.name p.call.arm = u.name i
      · obtain ⟨v', rfl⟩ := (hok c pc hi).2 hplots ⟨v, hname ▸ hv⟩
        exact ⟨v', by rw [hname, Function.update_self]⟩
      · exact ⟨v, by rw [Function.update_of_ne hname, hv]⟩

theorem fate_step (hc : s.Called) (hpark : s.Parked) (hs : s.Fated) (hok : s.Spares ev)
    (h : Step s ev t) {p' : Proc u} (hp' : t.procs k = some p') (hpass : p'.call.pass ≠ .plots)
    (hk' : p'.exited = none ∨ p'.signalled = true) : Fate t k p' := by
  cases h with
  | stop =>
    exact (hs.fate k p' hp' hpass hk').same rfl Or.inl rfl rfl rfl rfl rfl rfl rfl rfl
      (fun _ => Or.inl rfl) id
  | expire =>
    exact (hs.fate k p' hp' hpass hk').same rfl Or.inl rfl rfl rfl rfl rfl rfl rfl rfl
      (fun _ => Or.inr rfl) fun _ => rfl
  | @exit x rc hx =>
    by_cases hkx : k = x
    · subst hkx
      obtain ⟨p, hp, hruns⟩ := hx
      simp only [State.exit, Function.update_self, hp, Option.map_some, Option.some.injEq] at hp'
      subst hp'
      exact (hs.fate k p hp hpass (Or.inl hruns)).same rfl Or.inl rfl rfl rfl rfl rfl rfl rfl rfl
        id id
    · replace hp' : s.procs k = some p' := (Function.update_of_ne hkx _ _).symm.trans hp'
      exact (hs.fate k p' hp' hpass hk').same rfl Or.inl rfl rfl rfl rfl rfl rfl rfl rfl id id
  | begin hm hb hdue hpend hidle =>
    -- a new batch would begin, but what is over has none left
    have ho := (hs.fate k p' hp' hpass hk').over_of_idle hidle hdue
    rw [ho.batches] at hb
    cases hb
  | enter hpend hnone => exact fate_enter (hs.fate k p' hp' hpass hk') hpend hnone
  | @move i c pc pc' hi hm =>
    have hf := hs.fate k p' hp' hpass hk'
    refine hf.inCall hi (fun harm => ?_) rfl (fun _ _ => rfl) rfl rfl rfl rfl rfl
    subst harm
    exact fate_move hf hi hm
  | @start i c hi hexp =>
    have hf := hs.fate k p' hp' hpass hk'
    refine hf.inCall hi (fun harm => ?_) rfl (fun _ hne => Function.update_of_ne hne _ _) rfl rfl
      rfl rfl rfl
    subst harm
    -- a call whose child has been started does not start another
    exact (hf.not_fresh hi rfl nofun fun _ => hexp).elim
  | @spawn i c hi =>
    obtain ⟨rfl, -⟩ := hc.thread i c _ hi
    -- the child is the new one, or was there before the thread forked
    by_cases hkn : k = s.next
    · subst hkn
      cases (Function.update_self ..).symm.trans hp'
      exact .atChild (Function.update_self ..) rfl nofun (hs.ready _ c hi)
    · replace hp' : s.procs k = some p' := (Function.update_of_ne hkn _ _).symm.trans hp'
      have hf := hs.fate k p' hp' hpass hk'
      refine hf.inCall hi (fun harm => ?_) rfl (fun _ _ => rfl) rfl rfl rfl rfl rfl
      have hi' : s.thread p'.call.arm = some (c, .ready) := harm ▸ hi
      exact (hf.not_fresh hi' rfl nofun nofun).elim
  | @register i c x hi =>
    have hf := hs.fate k p' hp' hpass hk'
    refine hf.inCall hi (fun harm => ?_) rfl (fun _ _ => rfl) rfl rfl rfl rfl rfl
    subst harm
    exact hf.advance rfl Or.inl hi rfl rfl (Function.update_self ..) rfl id
  | @take i c x hi =>
    have hf := hs.fate k p' hp' hpass hk'
    refine hf.inCall hi (fun harm => ?_) rfl (fun _ _ => rfl) rfl rfl rfl rfl rfl
    subst harm
    exact hf.advance rfl Or.inl hi rfl rfl (Function.update_self ..) rfl id
  | @signal i c y x todo hi =>
    obtain ⟨p, hp, hcall, hgone, hsig⟩ := signal_procs hp'
    have hf : Fate s k p := hs.fate k p hp (hcall ▸ hpass)
      (by rw [hgone] at hk'; exact hsig.elim Or.inl fun hsig => hsig ▸ hk')
    have hends : s.Ending := hs.ending i c _ hi trivial
    by_cases harm : p.call.arm = i
    · subst harm
      exact hf.advance hcall (fun _ => Or.inr hends) hi rfl rfl (Function.update_self ..) rfl id
    · exact hf.other hcall (fun _ => Or.inr hends) hi harm rfl rfl rfl (List.Sublist.refl _)
        (fun v hv => ⟨v, hv⟩) id id
  | @pop i c x hi =>
    have hf := hs.fate k p' hp' hpass hk'
    refine hf.inCall hi (fun harm => ?_) rfl (fun _ _ => rfl) rfl rfl rfl rfl rfl
    subst harm
    exact hf.advance rfl Or.inl hi rfl rfl (Function.update_self ..) rfl id
  | @refuse i c x rc hi hexit hrc =>
    have hf := hs.fate k p' hp' hpass hk'
    refine hf.inCall hi (fun harm => ?_) rfl (fun _ hne => Function.update_of_ne hne _ _) rfl rfl
      rfl rfl rfl
    subst harm
    obtain ⟨rfl, -, ⟨hk, hsig⟩ | ⟨hpc, -⟩ | ⟨hpc, -⟩⟩ := hf.own hi
    · cases hk
      obtain ⟨p, hp, hgone⟩ := hexit
      cases hp.symm.trans hp'
      -- the child is gone, so it was signalled, and who signals is ending the run
      have hends := hsig (hk'.resolve_left (by rw [hgone]; exact Option.some_ne_none rc))
      exact .again (Function.update_self ..) (Or.inl rfl) hends (Or.inr (Function.update_self ..))
    · exact hpc.elim nofun nofun
    · cases hpc
  | @ret i c pc r hi hr =>
    have hf := hs.fate k p' hp' hpass hk'
    by_cases harm : p'.call.arm = i
    · subst harm
      exact (fate_ret hc hf hp' hpass hk' hok hi hr).2
    · exact fate_ret_other hf hok hi harm
  | close hdue hpend hidle => exact fate_close hpark (hs.fate k p' hp' hpass hk') hdue hpend hidle
  | conclude hm hb hdue hpend hidle =>
    have ho := (hs.fate k p' hp' hpass hk').over_of_idle hidle hdue
    obtain ⟨v, hv, -⟩ := ho.verdict
    have hmain : (if s.verdict.isSome then Main.ending else Main.closing) ≠ .returned := by
      split <;> nofun
    exact .past ⟨hidle, hb, hdue, hpend, ⟨v, hv, fun h => absurd h hmain⟩, fun _ =>
      ho.status (by rw [hm]; nofun)⟩
  | mainTake hm =>
    exact fate_main hpark (hs.fate k p' hp' hpass hk') rfl (by rw [hm]; nofun) nofun
      (by rw [hm]; nofun) rfl rfl rfl rfl rfl rfl
  | mainSignal hm =>
    obtain ⟨p, hp, hcall, hgone, hsig⟩ := signal_procs hp'
    have hf : Fate s k p := hs.fate k p hp (hcall ▸ hpass)
      (by rw [hgone] at hk'; exact hsig.elim Or.inl fun hsig => hsig ▸ hk')
    exact fate_main hpark hf hcall (by rw [hm]; nofun) nofun (by rw [hm]; nofun) rfl rfl rfl rfl rfl
      rfl
  | mainGo hm =>
    have hmain : (if s.verdict = some .credentials then Main.closing else Main.sweeping) ≠
        .returned := by
      split <;> nofun
    exact fate_main hpark (hs.fate k p' hp' hpass hk') rfl (by rw [hm]; nofun) hmain
      (by rw [hm]; nofun) rfl rfl rfl rfl rfl rfl
  | sweep hm =>
    exact fate_main hpark (hs.fate k p' hp' hpass hk') rfl (by rw [hm]; nofun) nofun
      (by rw [hm]; nofun) rfl rfl rfl rfl rfl rfl
  | finish hm =>
    have hp := hpark (by rw [hm]; nofun)
    have ho := (hs.fate k p' hp' hpass hk').over_of_idle hp.1 hp.2.2.1
    obtain ⟨v, hv, -⟩ := ho.verdict
    refine .past ⟨ho.idle, ho.batches, ho.due, ho.pending, ⟨v, hv, fun _ => ?_⟩,
      fun h => absurd rfl h⟩
    dsimp only
    rw [hv]
    rcases ho.status (by rw [hm]; nofun) with hst | hst <;> rw [hst] <;> rfl

theorem fated_step (hc : s.Called) (hpark : s.Parked) (hs : s.Fated)
    (h : Guarded Step State.Spares s ev t) : t.Fated :=
  ⟨fun _ _ => ready_step hpark hs.ready h.2, fun _ _ _ => ending_step hs.ending h.2,
    fun _ _ => fate_step hc hpark hs h.1 h.2⟩

theorem run_fated {l : List (Event u)}
    (h : Run (Guarded Step State.Spares) (State.init u) l s) : s.Fated :=
  h.invariant_of fated_init
    (fun _ _ hrun => And.intro (run_called hrun.of_guarded) (run_parked hrun.of_guarded))
    fun _ _ _ haux hs hstep => fated_step haux.1 haux.2 hs hstep

/--
In a run whose steps spare the signalled, a member whose child was signalled returns `stopped` or
`expired`, and when `main` has returned its status is the verdict.
-/
theorem stopped_of_spares {l : List (Event u)}
    (h : Run (Guarded Step State.Spares) (State.init u) l s) {p : Proc u}
    (hp : s.procs k = some p) (hpass : p.call.pass ≠ .plots) (hsig : p.signalled = true) :
    (∀ r t, Guarded Step State.Spares s (.ret p.call.arm r) t →
      r = .early .stopped ∨ r = .early .expired) ∧
    (s.main = .returned → ∃ v, s.verdict = some v ∧ s.status p.call.arm = .ended v) := by
  have hc := run_called h.of_guarded
  have hs := run_fated h
  have hf := hs.fate k p hp hpass (Or.inr hsig)
  constructor
  · rintro r t ⟨hok, hstep⟩
    cases hstep with
    | ret hi hr => exact (fate_ret hc hf hp hpass (Or.inr hsig) hok hi hr).1
  · intro hm
    have hdone := run_parked h.of_guarded (by rw [hm]; nofun)
    obtain ⟨v, hv, hstatus⟩ := (hf.over_of_idle hdone.1 hdone.2.2.1).verdict
    exact ⟨v, hv, hstatus hm⟩

/-! ## Two experiments side by side -/

theorem spares_of_stays (s : State u) (ev : Event u) (h : ev.Stays) : s.Spares ev := by
  cases ev with
  | ret i r => exact absurd rfl (h i r)
  | _ => trivial

theorem spares_of_ended (s : State u) (i : u.q.Index) (c : Call u.q) (k : ChildId)
    (hi : s.thread i = some (c, .signalling k [])) : s.Spares (.ret i (.early .stopped)) := by
  intro c' pc hi'
  rw [hi] at hi'
  cases hi'
  exact ⟨nofun, fun _ _ => ⟨_, rfl⟩⟩

/-- Both look at the clock before they poll again. -/
theorem stopped_of_spares_sideBySide :
    ∃ (l : List (Event (pair "s3/miniosv" "s3/linux"))) (s : State _) (p : Proc _),
      Run (Guarded Step State.Spares) (State.init _) l s ∧ s.procs 1 = some p ∧
        p.signalled = true ∧ s.main = .returned ∧
        ∃ v, s.verdict = some v ∧ s.status p.call.arm = .ended v := by
  obtain ⟨l, s, h, hm, -, h1⟩ := run_bothStopped (n := "s3/miniosv") (m := "s3/linux")
    spares_of_stays spares_of_ended (by decide)
  have h₁ := run_stay spares_of_stays h (.sweep hm) stays_sweep
  have h₂ := run_stay spares_of_stays h₁ (.finish rfl) stays_finish
  exact ⟨_, _, _, h₂, h1, rfl, rfl, (stopped_of_spares h₂ h1 nofun rfl).2 rfl⟩

open pair in
/-- The second child exits on the signal, and its thread polls before it looks at the clock. -/
theorem failed_afterPoll :
    ∃ (l : List (Event (pair "s3/miniosv" "s3/linux"))) (s : State _) (p : Proc _),
      Run Step (State.init _) l s ∧ s.procs 1 = some p ∧ p.signalled = true ∧
        p.call.pass ≠ .plots ∧ .ret p.call.arm .failed ∈ l ∧ s.main = .returned ∧
        s.status p.call.arm = .failed := by
  obtain ⟨l, s, h, hs⟩ := run_firstStopped (n := "s3/miniosv") (m := "s3/linux") any_of_stays
    (fun _ _ _ _ _ => trivial) (by decide)
  have h₁ := run_stay any_of_stays h (@Step.exit _ s 1 (-15) ⟨_, hs.procSnd, rfl⟩) nofun
  have hexit : (s.exit 1 (-15)).Exited 1 (-15) := ⟨_, congrArg (Option.map _) hs.procSnd, rfl⟩
  have h₂ := run_stay any_of_stays h₁ (.move hs.snd (.gone hexit)) nofun
  have h₃ := run_stay any_of_stays h₂ (.pop (i := snd) rfl) nofun
  have h₄ := h₃.snoc ⟨trivial, .ret (i := snd) (r := .failed) rfl (.failed hexit (by decide))⟩
  have hverdict : ∀ {w : State (pair "s3/miniosv" "s3/linux")},
      w.results = Function.update s.results "s3/linux" (some .failed) →
        (w.early (call snd)).or ((w.early (call fst)).or none) = some .stopped := by
    intro w hw
    rw [State.early, State.early, hw, hs.results]
    rfl
  obtain ⟨m, t, ht, hm, hprocs, hstatus, -⟩ := run_close any_of_stays h₄ hs.due hs.pending
    (fun i => by rcases eq_fst_or_snd i with rfl | rfl; exacts [hs.fst, rfl]) hs.main
    (congrArg (List.filter _) hs.table) (hverdict rfl) (by decide)
  have h₅ := run_stay any_of_stays ht (.sweep hm) stays_sweep
  have h₆ := run_stay any_of_stays h₅ (.finish rfl) stays_finish
  refine ⟨_, _, _, h₆.of_guarded, (congrFun hprocs 1).trans (congrArg (Option.map _) hs.procSnd),
    rfl, (fun hpass => by cases hpass), ?_, rfl, ?_⟩
  · exact List.mem_append_left _ (List.mem_append_left _ (List.mem_append_left _
      (List.mem_append_right _ (List.mem_singleton.mpr rfl))))
  · exact (Status.final_eq_iff (Or.inr rfl)).mpr
      ((congrFun hstatus snd).trans rfl)

end Children
