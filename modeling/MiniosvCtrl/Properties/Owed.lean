import MiniosvCtrl.Properties.Calls

/-!
# What a queue still owes an experiment

* `Recorded` — a point has a row for a rep in its CSV
* `Lost` — a step gives up a call
* `ChildInv` — every child is pledged to record what its call is for
* `owed_step` — a point's rep stays recorded or owed, unless the call that covers it is given up
-/

namespace Arms

open Infra Runner Experiment

variable {q : Setup} {N : Numerals} {s t : State q N} {ev : Event q N}

/-! ## What is recorded, and what is given up -/

/-- The arm's CSV holds a row for every run of the point at this rep, and there is one. -/
def Recorded (s : State q N) (i : q.Index) (p : Dict) (rep : Nat) : Prop :=
  (∃ run, (q.arm i).file.RunOf p rep run) ∧
    ∀ run, (q.arm i).file.RunOf p rep run → run ∈ s.held i

/-- The step gives up the call: it fails, or the queue ends before it returned. -/
def Lost (s : State q N) (ev : Event q N) (c : Call q) : Prop :=
  match ev with
  | .fail i => ∃ a, s.live i = some (c, a)
  | .turnAway i _ | .kill i _ | .credentials i => ∃ c₀ a, s.live i = some (c₀, a) ∧
    (c = c₀ ∨ c₀.pass ≠ .plots ∧ q.concurrent = false ∧ c ∈ s.pending)
  | .begin => ∃ b rest, s.batches = b :: rest ∧ c ∈ b ∧ s.isDue c = false
  | .close => s.batchVerdict.isSome = true ∧ ∃ b ∈ s.batches, c ∈ b
  | _ => False

/--
No driver skips a run that its CSV has no row of, or abandons one; and no call of an experiment
that is `done` is given up that still has a run to record.
-/
def Careful (s : State q N) (ev : Event q N) : Prop :=
  match ev with
  | .skip i run => run ∈ s.held i
  | .record i run _ valid => ∀ p, s.driver i = some p → valid = true ∨ p.sweep.keepGoing = true ∨
    ∀ r ∈ p.todo.tail, r ∈ s.held i ∨ r = run
  | ev => ∀ c, Lost s ev c → s.status c.arm = .done →
    ∀ p rep, c.Covers p rep → Recorded s c.arm p rep

/-- No value of an instance axis is blank: it names an instance type. -/
def Setup.NotBlank (q : Setup) : Prop :=
  ∀ i : q.Index, (q.arm i).file.axis = instanceAxis → ∀ p ∈ (q.arm i).file.points,
    ∃ u ∈ split ((q.arm i).file.axisValue p).text, strip u ≠ ""

theorem Recorded.mono {i : q.Index} {p : Dict} {rep : Nat} (h : Recorded s i p rep)
    (hheld : s.held i ⊆ t.held i) : Recorded t i p rep :=
  ⟨h.1, fun run hrun => hheld (h.2 run hrun)⟩

/-! ## What a child is to record -/

/-- The drivers to come record the point's rep, or the CSV and the plan that is run have it. -/
def Pledged (x : File) (held : List Run) (argvs : List Argv) (d : Option (Process N)) (p : Dict)
    (rep : Nat) : Prop :=
  (∃ a ∈ argvs, ∀ sw, Sweep.parse x.bench a = some sw →
    (∃ sw', Sweep.Reads x.bench (x.argv rep p) sw') ∧ ∀ run, x.RunOf p rep run → run ∈ sw.plan) ∨
  ((∃ sw', Sweep.Reads x.bench (x.argv rep p) sw') ∧
    ∀ run, x.RunOf p rep run → run ∈ held ∨ ∃ pr, d = some pr ∧ run ∈ pr.todo)

theorem Pledged.mono {x : File} {held held' : List Run} {argvs : List Argv}
    {d : Option (Process N)} {p : Dict} {rep : Nat} (h : Pledged x held argvs d p rep)
    (hsub : held ⊆ held') : Pledged x held' argvs d p rep := by
  rcases h with h | ⟨hreads, h⟩
  · exact Or.inl h
  · exact Or.inr ⟨hreads, fun run hrun => (h run hrun).imp_left fun hmem => hsub hmem⟩

/-- A driver took a run off its plan, and the CSV has it. -/
theorem Pledged.advance {x : File} {held held' : List Run} {argvs : List Argv} {pr pr' : Process N}
    {p : Dict} {rep : Nat} (h : Pledged x held argvs (some pr) p rep) (hsub : held ⊆ held')
    (htodo : ∀ run ∈ pr.todo, run ∈ held' ∨ run ∈ pr'.todo) :
    Pledged x held' argvs (some pr') p rep := by
  rcases h with h | ⟨hreads, h⟩
  · exact Or.inl h
  · refine Or.inr ⟨hreads, fun run hrun => ?_⟩
    rcases h run hrun with hmem | ⟨pr₀, hpr, hmem⟩
    · exact Or.inl (hsub hmem)
    · obtain rfl := Option.some_inj.mp hpr
      exact (htodo run hmem).imp_right fun hmem' => ⟨pr', rfl, hmem'⟩

/-- Every child is pledged to what its call is for. -/
def ChildInv (s : State q N) : Prop :=
  ∀ i c argvs d, s.live i = some (c, .child argvs d) →
    (∃ l, (q.arm i).file.main c.only c.reps = some l) →
    ∀ p ∈ (q.arm i).file.only c.only, ∀ rep, 1 ≤ rep → rep ≤ c.reps →
      Pledged (q.arm i).file (s.held i) argvs d p rep

theorem childInv_init (q : Setup) (files : String × String → Option (Csv N)) :
    ChildInv (State.init q files) := by
  intro i c argvs d hi
  cases hi

theorem ChildInv.mono (h : ChildInv s) (hheld : ∀ i, s.held i ⊆ t.held i)
    (hlive : ∀ {i c a}, t.live i = some (c, a) → s.live i = some (c, a)) : ChildInv t := by
  intro i c argvs d hi hmain p hp rep hpos hle
  exact (h _ _ _ _ (hlive hi) hmain p hp rep hpos hle).mono (hheld i)

/-- The child of arm `i` takes a step. -/
theorem ChildInv.setLive (h : ChildInv s) {i : q.Index} {c : Call q} {a : Attempt N}
    (hheld : ∀ i, s.held i ⊆ t.held i) (hlive : t.live = (s.setLive i c a).live)
    (ha : ∀ argvs d, a = .child argvs d → (∃ l, (q.arm i).file.main c.only c.reps = some l) →
      ∀ p ∈ (q.arm i).file.only c.only, ∀ rep, 1 ≤ rep → rep ≤ c.reps →
        Pledged (q.arm i).file (t.held i) argvs d p rep) : ChildInv t := by
  intro j c' argvs d hj hmain p hp rep hpos hle
  rw [hlive] at hj
  by_cases hij : j = i
  · subst hij
    have hc : some (c, a) = some (c', .child argvs d) := by simpa [State.setLive] using hj
    obtain ⟨rfl, rfl⟩ := Prod.mk.inj (Option.some_inj.mp hc)
    exact ha argvs d rfl hmain p hp rep hpos hle
  · have hj' : s.live j = some (c', .child argvs d) := by simpa [State.setLive, hij] using hj
    exact (h _ _ _ _ hj' hmain p hp rep hpos hle).mono (hheld j)

theorem step_childInv (hq : q.Apart) (hcalls : CallsInv s) (hfiles : FilesInv s) (h : ChildInv s)
    (hok : Careful s ev) (hstep : Step q N s ev t) : ChildInv t := by
  have hheld := held_mono hfiles hstep
  have hfiles' := step_filesInv hq hcalls hfiles hstep
  cases hstep with
  | stop => exact h.mono hheld fun hi => hi
  | expire => exact h.mono hheld fun hi => hi
  | begin _ _ _ _ => exact h.mono hheld fun hi => hi
  | @enter c rest _ _ _ => exact h.setLive (i := c.arm) (c := c) hheld rfl nofun
  | turnAway _ _ => exact h.mono hheld fun hi => (live_returnEarly hi).2
  | @spawn i c hi _ _ =>
    refine h.setLive hheld rfl fun argvs d ha hmain p hp rep hpos hle => ?_
    obtain ⟨l, hl⟩ := hmain
    obtain ⟨rfl, rfl⟩ := Attempt.child.inj ha
    rw [hl]
    exact Or.inl (File.exists_driver hl hp hpos hle)
  | @drive i c a argvs sw hi hparse =>
    refine h.setLive hheld rfl fun argvs' d ha hmain p hp rep hpos hle => ?_
    obtain ⟨rfl, rfl⟩ := Attempt.child.inj ha
    -- the driver that starts is the one for the point, or the point's is still to come
    rcases h _ _ _ _ hi hmain p hp rep hpos hle with ⟨a', ha', hdrives⟩ | ⟨hreads, hheld'⟩
    · rcases List.mem_cons.mp ha' with rfl | ha'
      · obtain ⟨hreads, hplan⟩ := hdrives sw hparse
        exact Or.inr ⟨hreads, fun run hrun => Or.inr ⟨_, rfl, hplan run hrun⟩⟩
      · exact Or.inl ⟨a', ha', hdrives⟩
    · refine Or.inr ⟨hreads, fun run hrun => Or.inl ?_⟩
      rcases hheld' run hrun with hmem | ⟨pr, hpr, -⟩
      · exact hmem
      · cases hpr
  | @skip i c argvs pr run hi hhead hdone =>
    refine h.setLive hheld rfl fun argvs' d ha hmain p hp rep hpos hle => ?_
    obtain ⟨rfl, rfl⟩ := Attempt.child.inj ha
    refine (h _ _ _ _ hi hmain p hp rep hpos hle).advance (hheld i) fun r hr => ?_
    obtain ⟨rest, hrest⟩ := List.head?_eq_some_iff.mp hhead
    rw [hrest] at hr
    rcases List.mem_cons.mp hr with rfl | hr
    · exact Or.inl (hheld i hok)
    · refine Or.inr ?_
      show r ∈ pr.todo.tail
      rw [hrest]
      exact hr
  | @record i c argvs pr run boot valid hi hhead hdone =>
    have hnew := hfiles' i _ (driver_setLive_self i c argvs (some (pr.record run boot valid)))
    refine h.setLive hheld rfl fun argvs' d ha hmain p hp rep hpos hle => ?_
    obtain ⟨rfl, rfl⟩ := Attempt.child.inj ha
    refine (h _ _ _ _ hi hmain p hp rep hpos hle).advance (hheld i) fun r hr => ?_
    obtain ⟨rest, hrest⟩ := List.head?_eq_some_iff.mp hhead
    have hrun : run ∈ (pr.record run boot valid).holds.map Prod.fst :=
      List.mem_map_of_mem (f := Prod.fst) (List.mem_append_right _ List.mem_cons_self)
    rw [hrest] at hr
    rcases List.mem_cons.mp hr with rfl | hr
    · exact Or.inl (hnew ▸ hrun)
    · have htail : r ∈ pr.todo.tail := by
        rw [hrest]
        exact hr
      -- an invalid row ends a sweep that does not keep going, so nothing may be left then
      by_cases hgo : (valid || pr.sweep.keepGoing) = true
      · refine Or.inr ?_
        show r ∈ if (valid || pr.sweep.keepGoing) = true then pr.todo.tail else []
        rw [if_pos hgo]
        exact htail
      · rcases hok pr (driver_of_live hi) with hv | hk | hall
        · simp [hv] at hgo
        · simp [hk] at hgo
        · rcases hall r htail with hmem | rfl
          · exact Or.inl (hheld i hmem)
          · exact Or.inl (hnew ▸ hrun)
  | @leave i c argvs pr hi htodo =>
    refine h.setLive hheld rfl fun argvs' d ha hmain p hp rep hpos hle => ?_
    obtain ⟨rfl, rfl⟩ := Attempt.child.inj ha
    rcases h _ _ _ _ hi hmain p hp rep hpos hle with hdrives | ⟨hreads, hheld'⟩
    · exact Or.inl hdrives
    · refine Or.inr ⟨hreads, fun run hrun => Or.inl ?_⟩
      rcases hheld' run hrun with hmem | ⟨pr', hpr, hmem⟩
      · exact hmem
      · obtain rfl := Option.some_inj.mp hpr
        rw [htodo] at hmem
        exact absurd hmem List.not_mem_nil
  | succeed _ _ => exact h.mono hheld fun hi => (live_clear (s := s) hi).2
  | fail _ => exact h.mono hheld fun hi => (live_clear (s := s) hi).2
  | refuse _ => exact h.setLive hheld rfl nofun
  | credentials _ => exact h.mono hheld fun hi => (live_returnEarly (s := s.setStatus _ _) hi).2
  | kill _ _ => exact h.mono hheld fun hi => (live_returnEarly hi).2
  | close _ _ _ => exact h.mono hheld fun hi => hi
  | finish _ _ _ _ _ => exact h.mono hheld fun hi => hi

/-- A sweep of a point has a value. -/
theorem values_ne_nil (hq : q.NotBlank) {i : q.Index} {p : Dict}
    (hp : p ∈ (q.arm i).file.points) {rep : Nat} {sw : Sweep}
    (h : Sweep.Reads (q.arm i).file.bench ((q.arm i).file.argv rep p) sw) : sw.values ≠ [] := by
  have hvalues : (q.arm i).file.bench.values (q.arm i).file.axis
      ((q.arm i).file.axisValue p).text = some sw.values := h.values
  unfold Bench.values at hvalues
  split at hvalues
  · rename_i haxis
    obtain ⟨u, hu, hne⟩ := hq i haxis p hp
    have hmem : strip u ∈ ((split ((q.arm i).file.axisValue p).text).map strip).filter (· ≠ "") :=
      List.mem_filter.mpr ⟨List.mem_map_of_mem hu, by simpa using hne⟩
    rw [← Option.some_inj.mp hvalues]
    exact List.ne_nil_of_mem (List.mem_map_of_mem hmem)
  · split at hvalues
    · intro hnil
      rw [hnil] at hvalues
      obtain ⟨u, us, hsplit⟩ := List.exists_cons_of_ne_nil
        (File.split_ne_nil ((q.arm i).file.axisValue p).text)
      rename_i knob _
      rw [hsplit, List.mapM_cons] at hvalues
      cases hf : knob.parser u with
      | none => simp [hf] at hvalues
      | some v => cases hm : us.mapM knob.parser <;> simp [hf, hm] at hvalues
    · cases hvalues

/-- A child that returns 0 has recorded what its call is for. -/
theorem recorded_of_succeed (hblank : q.NotBlank) (h : ChildInv s) {i : q.Index} {c : Call q}
    (hi : s.live i = some (c, .child [] none))
    (hmain : ∃ l, (q.arm i).file.main c.only c.reps = some l) {p : Dict}
    (hp : p ∈ (q.arm i).file.only c.only) {rep : Nat} (hpos : 1 ≤ rep) (hle : rep ≤ c.reps) :
    Recorded s i p rep := by
  rcases h _ _ _ _ hi hmain p hp rep hpos hle with ⟨a, ha, -⟩ | ⟨⟨sw, hsw⟩, hheld⟩
  · exact absurd ha List.not_mem_nil
  · obtain ⟨v, hv⟩ := List.exists_mem_of_ne_nil _
      (values_ne_nil hblank (File.mem_points_of_only hp) hsw)
    refine ⟨⟨_, sw, hsw, v, hv, rfl⟩, fun run hrun => ?_⟩
    rcases hheld run hrun with hmem | ⟨pr, hpr, -⟩
    · exact hmem
    · cases hpr

/-! ## What the queue still owes an arm -/

/-- The call is running, or still to come. -/
def Out (s : State q N) (c : Call q) : Prop :=
  (∃ a, s.live c.arm = some (c, a)) ∨ c ∈ s.pending ∨ ∃ b ∈ s.batches, c ∈ b

/-- The point's rep is recorded, or a call that covers it is running or still to come. -/
def Owed (s : State q N) (i : q.Index) (p : Dict) (rep : Nat) : Prop :=
  Recorded s i p rep ∨ ∃ c, Out s c ∧ c.arm = i ∧ c.Covers p rep

theorem out_of_setLive {i : q.Index} {c c₀ : Call q} {a a₀ : Attempt N}
    (hi : s.live i = some (c₀, a₀)) (hlive : t.live = (s.setLive i c₀ a).live)
    (hpending : t.pending = s.pending) (hbatches : t.batches = s.batches) (h : Out s c) :
    Out t c := by
  rcases h with ⟨a', ha'⟩ | h
  · refine Or.inl ?_
    rw [hlive]
    by_cases hij : c.arm = i
    · rw [hij, hi] at ha'
      obtain ⟨rfl, -⟩ := Prod.mk.inj (Option.some_inj.mp ha')
      exact ⟨a, by simp [State.setLive, hij]⟩
    · exact ⟨a', by simpa [State.setLive, hij] using ha'⟩
  · rw [← hpending, ← hbatches] at h
    exact Or.inr h

theorem out_clear {i : q.Index} {c : Call q} (h : Out s c) :
    Out (s.clear i) c ∨ ∃ a, s.live i = some (c, a) := by
  rcases h with ⟨a, ha⟩ | h
  · by_cases hij : c.arm = i
    · exact Or.inr ⟨a, hij ▸ ha⟩
    · exact Or.inl (Or.inl ⟨a, by simpa [State.clear, hij] using ha⟩)
  · exact Or.inl (Or.inr h)

theorem out_returnEarly (i : q.Index) {c : Call q} (c₀ : Call q) (v : Early) (h : Out s c) :
    Out (s.returnEarly i c₀ v) c ∨ (∃ a, s.live i = some (c, a)) ∨
      (c₀.pass ≠ .plots ∧ q.concurrent = false ∧ c ∈ s.pending) := by
  rcases out_clear (i := i) h with hout | hlive
  · unfold State.returnEarly
    split
    · exact Or.inl hout
    · rename_i hplots
      rcases hout with hlive | hpending | hbatches
      · exact Or.inl (Or.inl hlive)
      · cases hq : q.concurrent with
        | true => exact Or.inl (Or.inr (Or.inl hpending))
        | false => exact Or.inr (Or.inr ⟨hplots, rfl, hpending⟩)
      · exact Or.inl (Or.inr (Or.inr hbatches))
  · exact Or.inr (Or.inl hlive)

/-- A call goes on, is given up, or returns `done`. -/
theorem out_step (hcalls : CallsInv s) (hstep : Step q N s ev t) {c : Call q} (h : Out s c) :
    Out t c ∨ Lost s ev c ∨
      (s.live c.arm = some (c, .child [] none) ∧
        ∃ l, (q.arm c.arm).file.main c.only c.reps = some l) := by
  cases hstep with
  | stop => exact Or.inl h
  | expire => exact Or.inl h
  | @begin b rest hbatches hdue hpending hidle =>
    -- a call of the batch that is not due is given up
    rcases h with ⟨a, ha⟩ | hp | ⟨b', hb', hc⟩
    · rw [hidle c.arm] at ha
      cases ha
    · rw [hpending] at hp
      exact absurd hp List.not_mem_nil
    · rw [hbatches] at hb'
      rcases List.mem_cons.mp hb' with rfl | hb'
      · cases hd : s.isDue c with
        | true => exact Or.inl (Or.inr (Or.inl (List.mem_filter.mpr ⟨hc, hd⟩)))
        | false => exact Or.inr (Or.inl ⟨b', rest, hbatches, hc, hd⟩)
      · exact Or.inl (Or.inr (Or.inr ⟨b', hb', hc⟩))
  | @enter c₀ rest hpending hnone _ =>
    refine Or.inl ?_
    rcases h with ⟨a, ha⟩ | hp | hb
    · have hne : c.arm ≠ c₀.arm := by
        intro heq
        rw [heq, hnone] at ha
        cases ha
      exact Or.inl ⟨a, by simpa [State.setLive, hne] using ha⟩
    · rw [hpending] at hp
      rcases List.mem_cons.mp hp with rfl | hp
      · exact Or.inl ⟨.top, by simp [State.setLive]⟩
      · exact Or.inr (Or.inl hp)
    · exact Or.inr (Or.inr hb)
  | @turnAway i c₀ v hi _ =>
    rcases out_returnEarly i c₀ v h with hout | ⟨a, ha⟩ | hp
    · exact Or.inl hout
    · exact Or.inr (Or.inl ⟨c, a, ha, Or.inl rfl⟩)
    · exact Or.inr (Or.inl ⟨c₀, _, hi, Or.inr hp⟩)
  | spawn hi _ _ => exact Or.inl (out_of_setLive hi rfl rfl rfl h)
  | drive hi _ => exact Or.inl (out_of_setLive hi rfl rfl rfl h)
  | skip hi _ _ => exact Or.inl (out_of_setLive hi rfl rfl rfl h)
  | record hi _ _ => exact Or.inl (out_of_setLive hi rfl rfl rfl h)
  | leave hi _ => exact Or.inl (out_of_setLive hi rfl rfl rfl h)
  | @succeed i c₀ hi hmain =>
    rcases out_clear (s := s) (i := i) h with hout | ⟨a, ha⟩
    · exact Or.inl hout
    · rw [hi] at ha
      -- the call that ends is this one
      obtain ⟨rfl, rfl⟩ := Prod.mk.inj (Option.some_inj.mp ha)
      obtain ⟨harm, -, -⟩ := hcalls.live hi
      subst harm
      exact Or.inr (Or.inr ⟨hi, hmain⟩)
  | @fail i c₀ argvs d hi =>
    rcases out_clear (s := s) (i := i) h with hout | ha
    · exact Or.inl hout
    · exact Or.inr (Or.inl ha)
  | refuse hi => exact Or.inl (out_of_setLive hi rfl rfl rfl h)
  | @credentials i c₀ argvs d hi =>
    rcases out_returnEarly (s := s.setStatus i .credentialsExpired) i c₀ .credentials h with
      hout | ⟨a, ha⟩ | hp
    · exact Or.inl hout
    · exact Or.inr (Or.inl ⟨c, a, ha, Or.inl rfl⟩)
    · exact Or.inr (Or.inl ⟨c₀, _, hi, Or.inr hp⟩)
  | @kill i c₀ argvs d v hi _ =>
    rcases out_returnEarly i c₀ v h with hout | ⟨a, ha⟩ | hp
    · exact Or.inl hout
    · exact Or.inr (Or.inl ⟨c, a, ha, Or.inl rfl⟩)
    · exact Or.inr (Or.inl ⟨c₀, _, hi, Or.inr hp⟩)
  | close _ _ _ =>
    rcases h with hl | hp | hb
    · exact Or.inl (Or.inl hl)
    · exact Or.inl (Or.inr (Or.inl hp))
    -- an early verdict gives up every batch that is left
    · cases hv : s.batchVerdict.isSome with
      | true => exact Or.inr (Or.inl ⟨hv, hb⟩)
      | false => exact Or.inl (Or.inr (Or.inr hb))
  | finish _ _ _ _ _ => exact Or.inl h

/-- A point's rep stays owed, unless the call that covers it is given up. -/
theorem owed_step (hblank : q.NotBlank) (hcalls : CallsInv s) (hfiles : FilesInv s)
    (hchild : ChildInv s) (hstep : Step q N s ev t) {i : q.Index} {p : Dict} {rep : Nat}
    (h : Owed s i p rep)
    (hlost : ∀ c, Lost s ev c → c.arm = i → c.Covers p rep → Recorded s i p rep) :
    Owed t i p rep := by
  have hheld := held_mono hfiles hstep i
  rcases h with hrec | ⟨c, hout, rfl, hcovers⟩
  · exact Or.inl (hrec.mono hheld)
  · rcases out_step hcalls hstep hout with hout' | hl | ⟨hlive, hmain⟩
    · exact Or.inr ⟨c, hout', rfl, hcovers⟩
    · exact Or.inl ((hlost c hl rfl hcovers).mono hheld)
    · exact Or.inl ((recorded_of_succeed hblank hchild hlive hmain hcovers.1 hcovers.pos
        hcovers.le).mono hheld)

end Arms
