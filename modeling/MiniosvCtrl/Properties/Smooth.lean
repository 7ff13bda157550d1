import MiniosvCtrl.Properties.Owed

/-!
# Queues that nothing ends early

* `Event.Succeeds` — no child fails, and the queue is not to end
* `run_careful` — then no call that covers a run is given up
* `Between`, `Driving` — a queue between two calls, and in one, and how it gets from one to the
  other
-/

namespace Arms

open Infra Runner Experiment

variable {q : Setup} {N : Numerals} {s t : State q N} {ev : Event q N}

/-! ## Children that succeed -/

/-- No child fails or is refused, no run is invalid, and nothing ends the queue. -/
def Event.Succeeds (ev : Event q N) : Prop :=
  match ev with
  | .stop | .expire | .turnAway _ _ | .fail _ | .refuse _ | .credentials _ | .kill _ _ => False
  | .record _ _ _ valid => valid = true
  | _ => True

/-- No experiment has failed, and no call of this batch returned early. -/
structure Unbroken (s : State q N) : Prop where
  status : ∀ i, s.status i ≠ .failed
  results : ∀ i, s.results i = none

theorem unbroken_init (q : Setup) (files : String × String → Option (Csv N)) :
    Unbroken (State.init q files) :=
  ⟨nofun, fun _ => rfl⟩

theorem Unbroken.setStatus (h : Unbroken s) {i : q.Index} (st : Status) (hst : st ≠ .failed)
    (hstatus : t.status = (s.setStatus i st).status) (hresults : t.results = s.results) :
    Unbroken t := by
  refine ⟨fun j hj => ?_, fun j => hresults ▸ h.results j⟩
  rw [hstatus] at hj
  by_cases hij : j = i
  · exact hst (by simpa [State.setStatus, hij] using hj)
  · exact h.status j (by simpa [State.setStatus, hij] using hj)

theorem step_unbroken (h : Unbroken s) (hev : ev.Succeeds) (hstep : Step q N s ev t) :
    Unbroken t := by
  cases hstep with
  | begin _ _ _ _ => exact ⟨h.status, fun _ => rfl⟩
  | enter _ _ _ => exact ⟨h.status, h.results⟩
  | spawn _ _ _ => exact h.setStatus .running nofun rfl rfl
  | drive _ _ => exact ⟨h.status, h.results⟩
  | skip _ _ _ => exact ⟨h.status, h.results⟩
  | record _ _ _ => exact ⟨h.status, h.results⟩
  | leave _ _ => exact ⟨h.status, h.results⟩
  | succeed _ _ => exact h.setStatus .done nofun rfl rfl
  | close _ _ _ => exact ⟨h.status, h.results⟩
  | finish _ _ _ _ _ =>
    exact ⟨fun i hi => h.status i ((Status.final_eq_iff (Or.inr rfl)).mp hi), h.results⟩
  | stop | expire | turnAway _ _ | fail _ | refuse _ | credentials _ | kill _ _ => exact hev.elim

theorem Unbroken.batchVerdict (h : Unbroken s) : s.batchVerdict = none := by
  have hfold : ∀ l : List (Call q), l.foldl (fun v c => (s.results c.arm).or v) none = none := by
    intro l
    induction l with
    | nil => rfl
    | cons c l ih =>
      rw [List.foldl_cons, h.results, Option.none_or]
      exact ih
  exact hfold s.due

/-- While the children succeed, no call is given up but one that only plots. -/
theorem Unbroken.not_covers_of_lost (h : Unbroken s) (hev : ev.Succeeds) {c : Call q}
    (hlost : Lost s ev c) (p : Dict) (rep : Nat) : ¬ c.Covers p rep := by
  rintro ⟨-, hcovers⟩
  cases ev with
  | begin =>
    obtain ⟨b, rest, -, -, hdue⟩ := hlost
    unfold State.isDue at hdue
    split at hdue
    · cases hdue
    · exact h.status c.arm (by simpa using hdue)
    · rename_i hpass
      rw [hpass] at hcovers
      exact hcovers
  | close =>
    obtain ⟨hsome, -⟩ := hlost
    rw [h.batchVerdict] at hsome
    cases hsome
  | stop | expire | turnAway _ _ | fail _ | refuse _ | credentials _ | kill _ _ => exact hev.elim
  | enter _ | spawn _ | drive _ _ | skip _ _ | record _ _ _ _ | leave _ | succeed _ | finish =>
    exact hlost.elim

/-- The children succeed, and skip no run that their CSV has no row of. -/
def Smooth (s : State q N) (ev : Event q N) : Prop :=
  ev.Succeeds ∧ ∀ i run, ev = .skip i run → run ∈ s.held i

theorem Unbroken.careful (h : Unbroken s) (hsmooth : Smooth s ev) : Careful s ev := by
  obtain ⟨hev, hskip⟩ := hsmooth
  cases ev with
  | skip i run => exact hskip i run rfl
  | record i run boot valid => exact fun p _ => Or.inl hev
  | begin | close =>
    exact fun c hlost _ p rep hcovers => absurd hcovers (h.not_covers_of_lost hev hlost p rep)
  | stop | expire | turnAway _ _ | fail _ | refuse _ | credentials _ | kill _ _ => exact hev.elim
  | enter _ | spawn _ | drive _ _ | leave _ | succeed _ | finish =>
    exact fun c hlost => hlost.elim

/-- **A queue that nothing ends early is careful.** -/
theorem run_careful {files : String × String → Option (Csv N)} {l : List (Event q N)}
    (h : Infra.Run (Guarded (Step q N) Smooth) (.init q files) l s) :
    Infra.Run (Guarded (Step q N) Careful) (.init q files) l s ∧ Unbroken s := by
  induction h with
  | nil => exact ⟨Infra.Run.nil, unbroken_init q files⟩
  | snoc _ hstep ih =>
    obtain ⟨hsmooth, hstep⟩ := hstep
    obtain ⟨hrun, hunbroken⟩ := ih
    exact ⟨hrun.snoc ⟨hunbroken.careful hsmooth, hstep⟩,
      step_unbroken hunbroken hsmooth.1 hstep⟩

/-! ## From call to call -/

/-- Neither a run nor a reason to end. -/
def Event.Plain (ev : Event q N) : Prop :=
  match ev with
  | .begin | .enter _ | .spawn _ | .drive _ _ | .leave _ | .succeed _ | .close | .finish => True
  | _ => False

theorem smooth_of_plain (ev : Event q N) (h : ev.Plain) : Smooth s ev := by
  cases ev with
  | begin | enter _ | spawn _ | drive _ _ | leave _ | succeed _ | close | finish =>
    exact ⟨trivial, nofun⟩
  | stop | expire | turnAway _ _ | skip _ _ | record _ _ _ _ | fail _ | refuse _ | credentials _
  | kill _ _ => exact h.elim

/-- No batch is begun, and `rest` is to come. -/
structure Between (s : State q N) (rest : List (List (Call q))) : Prop where
  batches : s.batches = rest
  due : s.due = []
  pending : s.pending = []
  idle : s.Idle
  results : ∀ i, s.results i = none
  verdict : s.verdict = none
  stopping : s.stopping = false
  expired : s.expired = false
  returned : s.returned = false

theorem between_init (q : Setup) (files : String × String → Option (Csv N)) :
    Between (State.init q files) q.batches :=
  ⟨rfl, rfl, rfl, fun _ => rfl, fun _ => rfl, rfl, rfl, rfl, rfl⟩

/--
A call has a driver running and `argvs` to come; after it come `calls` of its batch, and then
`rest`.
-/
structure Driving (s : State q N) (c : Call q) (p : Process N) (argvs : List Argv)
    (calls : List (Call q)) (rest : List (List (Call q))) : Prop where
  live : s.live c.arm = some (c, .child argvs (some p))
  others : ∀ j, j ≠ c.arm → s.live j = none
  batches : s.batches = rest
  due : s.due = c :: calls
  pending : s.pending = calls
  results : ∀ i, s.results i = none
  stopping : s.stopping = false
  expired : s.expired = false
  returned : s.returned = false

theorem launches_append (l m : List (Event q N)) : launches (l ++ m) = launches l ++ launches m :=
  List.filterMap_append

variable {ok : State q N → Event q N → Prop} {c : Call q} {calls : List (Call q)}
  {rest : List (List (Call q))} {p : Process N} {argvs : List Argv} {a : Argv} {sw : Sweep}
  {run : Run}

/-- The first call of a batch gets its first driver. -/
theorem Between.drive (h : Between s ((c :: calls) :: rest)) (hok : ∀ s ev, ev.Plain → ok s ev)
    (hdue : ∀ c' ∈ c :: calls, s.isDue c' = true)
    (hmain : (q.arm c.arm).file.main c.only c.reps = some (a :: argvs))
    (hparse : Sweep.parse (q.arm c.arm).file.bench a = some sw) :
    ∃ l t, Infra.Run (Guarded (Step q N) ok) s l t ∧ launches l = [] ∧
      Driving t c (Process.start sw (s.csv c.arm)) argvs calls rest ∧ t.files = s.files ∧
      t.status = Function.update s.status c.arm .running := by
  have hfilter : (c :: calls).filter s.isDue = c :: calls := List.filter_eq_self.mpr hdue
  have hbegin : Guarded (Step q N) ok s .begin _ :=
    ⟨hok s .begin trivial, Step.begin h.batches h.due h.pending h.idle⟩
  rw [hfilter] at hbegin
  have h₁ := Infra.Run.single hbegin
  have h₂ := h₁.snoc ⟨hok _ (.enter c) trivial, Step.enter rfl (h.idle c.arm) (Or.inr h.idle)⟩
  have h₃ := h₂.snoc ⟨hok _ (.spawn c.arm) trivial,
    Step.spawn (i := c.arm) (c := c) (by simp [State.setLive]) h.stopping h.expired⟩
  rw [hmain] at h₃
  have h₄ := h₃.snoc ⟨hok _ (.drive c.arm sw) trivial,
    (Step.drive (by simp [State.setLive]) hparse :
      Step q N _ (.drive c.arm sw) (State.setLive _ c.arm c (.child argvs (some _))))⟩
  refine ⟨_, _, h₄, rfl, ⟨by simp [State.setLive]; rfl, ?_, rfl, rfl, rfl, fun _ => rfl, h.stopping,
    h.expired, h.returned⟩, rfl, rfl⟩
  intro j hj
  simpa [State.setLive, State.setStatus, hj] using h.idle j

theorem Driving.record (h : Driving s c p argvs calls rest)
    (ok : State q N → Event q N → Prop) (boot : Boot N) (hhead : p.todo.head? = some run)
    (hnew : done p.df run = false) (hok : ok s (.record c.arm run boot true)) :
    ∃ t, Infra.Run (Guarded (Step q N) ok) s [.record c.arm run boot true] t ∧
      Driving t c (p.record run boot true) argvs calls rest ∧
      t.csv c.arm = some (p.record run boot true).csv ∧ t.status = s.status := by
  refine ⟨_, Infra.Run.single ⟨hok, Step.record h.live hhead hnew⟩, ⟨by simp [State.setLive], ?_,
    h.batches, h.due, h.pending, h.results, h.stopping, h.expired, h.returned⟩, ?_, rfl⟩
  · intro j hj
    simpa [State.setLive, State.setFile, hj] using h.others j hj
  · simp [State.csv, State.setFile, State.setLive]

theorem Driving.skip (h : Driving s c p argvs calls rest)
    (ok : State q N → Event q N → Prop) (hhead : p.todo.head? = some run)
    (hdone : done p.df run = true) (hok : ok s (.skip c.arm run)) :
    ∃ t, Infra.Run (Guarded (Step q N) ok) s [.skip c.arm run] t ∧
      Driving t c p.skip argvs calls rest ∧ t.files = s.files ∧ t.status = s.status := by
  refine ⟨_, Infra.Run.single ⟨hok, Step.skip h.live hhead hdone⟩, ⟨by simp [State.setLive], ?_,
    h.batches, h.due, h.pending, h.results, h.stopping, h.expired, h.returned⟩, rfl, rfl⟩
  intro j hj
  simpa [State.setLive, hj] using h.others j hj

/-- The driver has nothing left to do, and the next one starts. -/
theorem Driving.next (h : Driving s c p (a :: argvs) calls rest)
    (hok : ∀ s ev, ev.Plain → ok s ev) (htodo : p.todo = [])
    (hparse : Sweep.parse (q.arm c.arm).file.bench a = some sw) :
    ∃ l t, Infra.Run (Guarded (Step q N) ok) s l t ∧ launches l = [] ∧
      Driving t c (Process.start sw (s.csv c.arm)) argvs calls rest ∧ t.files = s.files ∧
      t.status = s.status := by
  have hleave : Guarded (Step q N) ok s (.leave c.arm) _ :=
    ⟨hok s (.leave c.arm) trivial, Step.leave h.live htodo⟩
  have h₂ := (Infra.Run.single hleave).snoc ⟨hok _ (.drive c.arm sw) trivial,
    (Step.drive (by simp [State.setLive]) hparse :
      Step q N _ (.drive c.arm sw) (State.setLive _ c.arm c (.child argvs (some _))))⟩
  refine ⟨_, _, h₂, rfl, ⟨by simp [State.setLive]; rfl, ?_, h.batches, h.due, h.pending, h.results,
    h.stopping, h.expired, h.returned⟩, rfl, rfl⟩
  intro j hj
  simpa [State.setLive, hj] using h.others j hj

/-- The last driver of the batch has nothing left to do, and the call returns `done`. -/
theorem Driving.close (h : Driving s c p [] [] rest) (hok : ∀ s ev, ev.Plain → ok s ev)
    (htodo : p.todo = []) (hmain : ∃ l, (q.arm c.arm).file.main c.only c.reps = some l) :
    ∃ l t, Infra.Run (Guarded (Step q N) ok) s l t ∧ launches l = [] ∧ Between t rest ∧
      t.files = s.files ∧ t.status = Function.update s.status c.arm .done := by
  have hleave : Guarded (Step q N) ok s (.leave c.arm) _ :=
    ⟨hok s (.leave c.arm) trivial, Step.leave h.live htodo⟩
  have h₁ := Infra.Run.single hleave
  have h₂ := h₁.snoc ⟨hok _ (.succeed c.arm) trivial,
    Step.succeed (i := c.arm) (c := c) (by simp [State.setLive]) hmain⟩
  have hidle : (((s.setLive c.arm c (.child [] none)).setStatus c.arm .done).clear c.arm).Idle := by
    intro j
    by_cases hj : j = c.arm
    · simp [State.clear, hj]
    · simpa [State.clear, State.setStatus, State.setLive, hj] using h.others j hj
  have hverdict : (((s.setLive c.arm c (.child [] none)).setStatus c.arm .done).clear
      c.arm).batchVerdict = none := by
    show s.due.foldl (fun v c => (s.results c.arm).or v) none = none
    rw [h.due, List.foldl_cons, List.foldl_nil, h.results]
    rfl
  have h₃ := h₂.snoc ⟨hok _ .close trivial,
    Step.close (fun hnil => List.cons_ne_nil c [] (h.due.symm.trans hnil)) h.pending hidle⟩
  refine ⟨_, _, h₃, rfl, ⟨?_, rfl, h.pending, hidle, h.results, hverdict, h.stopping, h.expired,
    h.returned⟩, rfl, rfl⟩
  show (if _ then _ else _) = rest
  rw [hverdict]
  exact h.batches

theorem Between.finish (h : Between s []) (hok : ok s .finish) :
    ∃ t, Infra.Run (Guarded (Step q N) ok) s [.finish] t ∧ t.returned = true ∧ t.status = s.status ∧
      t.files = s.files := by
  refine ⟨_, Infra.Run.single ⟨hok, Step.finish h.batches h.due h.pending h.idle h.returned⟩, rfl,
    ?_, rfl⟩
  funext i
  show (s.status i).final s.verdict = s.status i
  rw [h.verdict]
  rfl

/-- The deadline passes between two calls, and the next one is not made. -/
theorem Between.expires (h : Between s ([c] :: rest)) (hpass : c.pass ≠ .plots)
    (hdue : s.isDue c = true) :
    ∃ l t, Infra.Run (Step q N) s l t ∧ launches l = [] ∧ t.returned = true ∧ t.files = s.files ∧
      ∀ i, s.status i = .done → t.status i = .done := by
  -- the batch begins, its call enters, is turned away, and the batch is closed
  let s₁ : State q N := { s with expired := true }
  let s₂ : State q N :=
    { s₁ with batches := rest, due := [c], pending := [c], results := fun _ => none }
  let s₃ : State q N := { s₂.setLive c.arm c .top with pending := [] }
  let s₄ : State q N := s₃.returnEarly c.arm c .expired
  have hbegin : Step q N s₁ .begin s₂ := by
    have hstep := Step.begin (s := s₁) h.batches h.due h.pending h.idle
    have hfilter : [c].filter s₁.isDue = [c] := by
      rw [List.filter_cons_of_pos (show s₁.isDue c = true from hdue)]
      rfl
    rwa [hfilter] at hstep
  have henter : Step q N s₂ (.enter c) s₃ :=
    Step.enter rfl (h.idle c.arm) (Or.inr h.idle)
  have haway : Step q N s₃ (.turnAway c.arm .expired) s₄ :=
    Step.turnAway (by simp [s₃, State.setLive]) (Or.inr ⟨h.stopping, rfl, rfl⟩)
  have hidle : s₄.Idle := by
    intro j
    by_cases hj : j = c.arm
    · simp [s₄, State.returnEarly, hpass, State.clear, hj]
    · simpa [s₄, s₃, State.returnEarly, hpass, State.clear, State.setLive, hj] using h.idle j
  have hpending : s₄.pending = [] :=
    List.sublist_nil.mp (pending_returnEarly (s := s₃) c.arm c .expired)
  have hdue' : s₄.due = [c] := due_returnEarly (s := s₃) c.arm c .expired
  have hverdict : s₄.batchVerdict = some .expired := by
    rw [State.batchVerdict, hdue', List.foldl_cons, List.foldl_nil]
    simp [s₄, State.returnEarly, hpass]
  have hclose := Step.close (s := s₄) (by simp [hdue']) hpending hidle
  rw [hverdict] at hclose
  have hover : s₄.returned = false := by
    rw [show s₄ = s₃.returnEarly c.arm c .expired from rfl, State.returnEarly, if_neg hpass]
    exact h.returned
  have hfinish := Step.finish (s := { s₄ with due := [], verdict := some .expired, batches := [] })
    rfl rfl hpending hidle hover
  refine ⟨_, _, (((((Infra.Run.single Step.expire).snoc hbegin).snoc henter).snoc haway).snoc
    hclose).snoc hfinish, rfl, rfl, files_returnEarly (s := s₃) c.arm c .expired, fun i hi => ?_⟩
  refine (Status.final_eq_iff (Or.inl rfl)).mpr ?_
  show s₄.status i = .done
  rw [status_returnEarly]
  exact hi

end Arms
