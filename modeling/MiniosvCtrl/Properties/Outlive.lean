import MiniosvCtrl.Properties.Children

/-!
# Nothing outlives the stop

A child is on the way to its end when `run_one` has just spawned it, when it stands in the table,
or when an `end_child` has taken it and not signalled it yet. The table's keys are the experiments'
names, so a registration or a `pop` may drop the child of another experiment of the same name.

* `State.Held` — some thread, the table or `main` will deal with the child
* `State.Keeps` — the step drops no running child from the table
* `swept_of_keeps` — if no step does, every child has exited or is signalled when `sweep` is called
* `keeps_of_distinct` — and no step does, if experiments that run side by side differ in name
* `unswept_namesakes` — a run with two experiments of one name
-/

namespace Children

open Infra Arms

variable {u : Setup} {s t : State u} {ev : Event u} {k : ChildId} {i : u.q.Index}

/-! ## Who holds a child -/

/-- The thread has the child in hand, and the table does not have it. -/
def Pc.Holds (k : ChildId) : Pc → Prop
  | .spawned x => x = k
  | .signalling _ todo => k ∈ todo
  | _ => False

def Main.Holds (k : ChildId) : Main → Prop
  | .signalling todo => k ∈ todo
  | _ => False

/-- The child has exited, or was signalled. -/
def Proc.Ended (p : Proc u) : Prop := p.exited ≠ none ∨ p.signalled = true

namespace State

/-- Some thread, the table or `main` has the child. -/
def Held (s : State u) (k : ChildId) : Prop :=
  (∃ i c pc, s.thread i = some (c, pc) ∧ pc.Holds k) ∨ (∃ n, (n, k) ∈ s.table) ∨ s.main.Holds k

/-- The step takes no running child out of the table. -/
def Keeps (s : State u) : Event u → Prop
  | .register i | .pop i => ∀ x, (u.name i, x) ∈ s.table → ¬ s.Runs x
  | _ => True

end State

/-! ## Every child is accounted for -/

namespace State

/-- Every child is at its end, or on the way to it. -/
def Accounted (s : State u) : Prop := ∀ k p, s.procs k = some p → p.Ended ∨ s.Held k

theorem Held.mono (h : s.Held k)
    (hthread : ∀ i c pc, s.thread i = some (c, pc) → pc.Holds k → t.Held k)
    (htable : ∀ n, (n, k) ∈ s.table → t.Held k) (hmain : s.main.Holds k → t.Held k) :
    t.Held k := by
  rcases h with ⟨i, c, pc, hi, hpc⟩ | ⟨n, hn⟩ | hm
  · exact hthread i c pc hi hpc
  · exact htable n hn
  · exact hmain hm

/-- A thread that has nothing in hand may go anywhere. -/
theorem Held.update {o : Option (Call u.q × Pc)} (h : s.Held k)
    (hi : ∀ c pc, s.thread i = some (c, pc) → ¬ pc.Holds k)
    (hthread : t.thread = Function.update s.thread i o) (htable : t.table = s.table)
    (hmain : t.main = s.main) : t.Held k := by
  refine h.mono (fun j c pc hj hpc => ?_) (fun n hn => Or.inr (Or.inl ⟨n, htable ▸ hn⟩))
    fun hm => Or.inr (Or.inr (hmain ▸ hm))
  have hne : j ≠ i := by
    rintro rfl
    exact hi c pc hj hpc
  exact Or.inl ⟨j, c, pc, by rw [hthread, Function.update_of_ne hne, hj], hpc⟩

theorem Held.setThread {c : Call u.q} {pc pc' : Pc} (h : s.Held k)
    (hi : s.thread i = some (c, pc)) (hpc : ¬ pc.Holds k) : (s.setThread i c pc').Held k := by
  refine h.update (i := i) (fun c' pc'' hi' => ?_) rfl rfl rfl
  rw [hi] at hi'
  cases hi'
  exact hpc

theorem Held.of_main (h : s.Held k) (hm : ¬ s.main.Holds k) (hthread : t.thread = s.thread)
    (htable : t.table = s.table) : t.Held k :=
  h.mono (fun i c pc hi hpc => Or.inl ⟨i, c, pc, hthread ▸ hi, hpc⟩)
    (fun n hn => Or.inr (Or.inl ⟨n, htable ▸ hn⟩)) fun h => absurd h hm

end State

theorem Moves.not_holds {pc pc' : Pc} (h : Moves s pc pc') : ¬ pc.Holds k := by
  cases h <;> exact id

theorem Returns.not_holds {pc : Pc} {r : Result} (h : Returns s pc r) : ¬ pc.Holds k := by
  cases h <;> first | exact id | exact List.not_mem_nil

/-- A child that `SIGTERM` is sent to has exited before, or is signalled now. -/
theorem ended_signal {p : Proc u} (h : (s.signal k).procs k = some p) : p.Ended := by
  simp only [State.signal, Function.update_self, Option.map_eq_some_iff] at h
  obtain ⟨p', -, rfl⟩ := h
  split
  · exact Or.inr rfl
  · exact Or.inl ‹_›

theorem ended_exit {rc : Int} {p : Proc u} (h : (s.exit k rc).procs k = some p) : p.Ended := by
  simp only [State.exit, Function.update_self, Option.map_eq_some_iff] at h
  obtain ⟨p', -, rfl⟩ := h
  exact Or.inl (Option.some_ne_none rc)

/-- What leaves the table under a name has exited, if no running child does. -/
theorem dropped {n : String} {p : Proc u} (hk : ∀ x, (u.name i, x) ∈ s.table → ¬ s.Runs x)
    (hp : s.procs k = some p) (hn : (n, k) ∈ s.table) :
    p.Ended ∨ (n, k) ∈ s.table.filter (·.1 ≠ u.name i) := by
  by_cases hname : n = u.name i
  · exact Or.inl (Or.inl fun hnone => hk k (hname ▸ hn) ⟨p, hp, hnone⟩)
  · exact Or.inr (List.mem_filter.mpr ⟨hn, decide_eq_true hname⟩)

theorem accounted_init : (State.init u).Accounted := nofun

theorem accounted_step (ha : s.Accounted) (hk : s.Keeps ev) (h : Step s ev t) :
    t.Accounted := by
  intro k p hp
  cases h with
  | stop | expire | begin | close => exact ha k p hp
  | @exit x rc hx =>
    by_cases hkx : k = x
    · exact Or.inl (ended_exit (hkx ▸ hp))
    · exact ha k p ((Function.update_of_ne hkx _ _).symm.trans hp)
  | @enter c rest hpend hnone =>
    refine (ha k p hp).imp_right fun hheld => hheld.update (i := c.arm) ?_ rfl rfl rfl
    intro c' pc hc'
    rw [hnone] at hc'
    cases hc'
  | move hi hm => exact (ha k p hp).imp_right fun hheld => hheld.setThread hi hm.not_holds
  | start hi | refuse hi => exact (ha k p hp).imp_right fun hheld => hheld.setThread hi id
  | @spawn i c hi =>
    by_cases hkn : k = s.next
    · exact Or.inr (Or.inl ⟨i, c, _, Function.update_self .., hkn.symm⟩)
    · replace hp : s.procs k = some p := (Function.update_of_ne hkn _ _).symm.trans hp
      exact (ha k p hp).imp_right fun hheld => hheld.setThread hi id
  | @register i c x hi =>
    refine (ha k p hp).elim Or.inl fun hheld => ?_
    rcases hheld with ⟨j, c', pc, hj, hpc⟩ | ⟨n, hn⟩ | hm
    · by_cases hji : j = i
      · -- what the thread had in hand is in the table now
        subst hji
        rw [hi] at hj
        cases hj
        exact Or.inr (Or.inr (Or.inl ⟨u.name j, List.mem_append_right _ (by rw [← hpc]; simp)⟩))
      · exact Or.inr (Or.inl ⟨j, c', pc, (Function.update_of_ne hji _ _).trans hj, hpc⟩)
    · exact (dropped hk hp hn).imp_right fun h => Or.inr (Or.inl ⟨n, List.mem_append_left _ h⟩)
    · exact Or.inr (Or.inr (Or.inr hm))
  | @take i c x hi =>
    refine (ha k p hp).imp_right fun hheld => hheld.mono (fun j c' pc hj hpc => ?_)
      (fun n hn => ?_) fun hm => Or.inr (Or.inr hm)
    · have hji : j ≠ i := by
        rintro rfl
        rw [hi] at hj
        cases hj
        exact hpc
      exact Or.inl ⟨j, c', pc, (Function.update_of_ne hji _ _).trans hj, hpc⟩
    · exact Or.inl ⟨i, c, _, Function.update_self .., List.mem_map.mpr ⟨_, hn, rfl⟩⟩
  | @signal i c j x todo hi =>
    by_cases hkx : k = x
    · exact Or.inl (ended_signal (hkx ▸ hp))
    · replace hp : s.procs k = some p := (Function.update_of_ne hkx _ _).symm.trans hp
      refine (ha k p hp).imp_right fun hheld => hheld.mono (fun j' c' pc hj hpc => ?_)
        (fun n hn => Or.inr (Or.inl ⟨n, hn⟩)) fun hm => Or.inr (Or.inr hm)
      by_cases hji : j' = i
      · subst hji
        rw [hi] at hj
        cases hj
        exact Or.inl ⟨j', c, _, Function.update_self .., (List.mem_cons.mp hpc).resolve_left hkx⟩
      · exact Or.inl ⟨j', c', pc, (Function.update_of_ne hji _ _).trans hj, hpc⟩
  | @pop i c x hi =>
    refine (ha k p hp).elim Or.inl fun hheld => ?_
    rcases hheld with ⟨j, c', pc, hj, hpc⟩ | ⟨n, hn⟩ | hm
    · have hji : j ≠ i := by
        rintro rfl
        rw [hi] at hj
        cases hj
        exact hpc
      exact Or.inr (Or.inl ⟨j, c', pc, (Function.update_of_ne hji _ _).trans hj, hpc⟩)
    · exact (dropped hk hp hn).imp_right fun h => Or.inr (Or.inl ⟨n, h⟩)
    · exact Or.inr (Or.inr (Or.inr hm))
  | @ret i c pc r hi hr =>
    refine (ha k p hp).imp_right fun hheld => hheld.update (i := i) ?_ rfl rfl rfl
    intro c' pc' hi'
    rw [hi] at hi'
    cases hi'
    exact hr.not_holds
  | conclude hm | mainGo hm | sweep hm | finish hm =>
    exact (ha k p hp).imp_right fun hheld => hheld.of_main (by rw [hm]; nofun) rfl rfl
  | mainTake hm =>
    refine (ha k p hp).imp_right fun hheld => hheld.mono
      (fun j c pc hj hpc => Or.inl ⟨j, c, pc, hj, hpc⟩) (fun n hn => ?_) (by rw [hm]; nofun)
    exact Or.inr (Or.inr (List.mem_map.mpr ⟨_, hn, rfl⟩))
  | @mainSignal x todo hm =>
    by_cases hkx : k = x
    · exact Or.inl (ended_signal (hkx ▸ hp))
    · replace hp : s.procs k = some p := (Function.update_of_ne hkx _ _).symm.trans hp
      refine (ha k p hp).imp_right fun hheld => hheld.mono
        (fun j c pc hj hpc => Or.inl ⟨j, c, pc, hj, hpc⟩) (fun n hn => Or.inr (Or.inl ⟨n, hn⟩)) ?_
      rw [hm]
      exact fun hmem => Or.inr (Or.inr ((List.mem_cons.mp hmem).resolve_left hkx))

/-! ## When `main` sweeps -/

/-- `main` has emptied the table. -/
def Main.HasTaken : Main → Prop
  | .signalling _ | .sweeping => True
  | _ => False

namespace State

def Cleared (s : State u) : Prop := s.main.HasTaken → s.table = []

/-- What holds in every run whose steps all keep the table. -/
structure Orderly (s : State u) : Prop where
  parked : s.Parked
  accounted : s.Accounted
  cleared : s.Cleared

end State

theorem Main.HasTaken.ne_working {m : Main} (h : m.HasTaken) : m ≠ .working := by
  rintro rfl
  exact h

theorem cleared_step (hp : s.Parked) (hc : s.Cleared) (h : Step s ev t) : t.Cleared := by
  cases h with
  | stop | expire | exit | begin | enter | close => exact hc
  | move hi | start hi | spawn hi | register hi | take hi | signal hi | pop hi | refuse hi
  | ret hi =>
    -- no call is running any more
    intro hm
    rw [(hp (Main.HasTaken.ne_working hm)).1] at hi
    cases hi
  | conclude =>
    intro hm
    dsimp only at hm
    split at hm <;> exact hm.elim
  | mainTake => exact fun _ => rfl
  | mainSignal hm | mainGo hm => exact fun _ => hc (by rw [hm]; trivial)
  | sweep | finish => exact False.elim

theorem orderly_init : (State.init u).Orderly := ⟨parked_init, accounted_init, False.elim⟩

theorem orderly_step (ho : s.Orderly) (h : Guarded Step State.Keeps s ev t) : t.Orderly :=
  ⟨parked_step ho.parked h.2, accounted_step ho.accounted h.1 h.2,
    cleared_step ho.parked ho.cleared h.2⟩

theorem orderly {l : List (Event u)}
    (h : Run (Guarded Step State.Keeps) (State.init u) l s) : s.Orderly :=
  h.invariant orderly_init fun _ _ _ => orderly_step

/-- Nobody has a child in hand when `main` calls `sweep`. -/
theorem not_held (ho : s.Orderly) (hm : s.main = .sweeping) : ¬ s.Held k := by
  rintro (⟨i, c, pc, hi, -⟩ | ⟨n, hn⟩ | h)
  · rw [(ho.parked (by rw [hm]; nofun)).1] at hi
    cases hi
  · rw [ho.cleared (by rw [hm]; trivial)] at hn
    cases hn
  · rw [hm] at h
    exact h

/-! ## And afterwards -/

theorem ne_working_step (hp : s.Parked) (hm : s.main ≠ .working) (h : Step s ev t) :
    t.main ≠ .working ∧ ∀ i, ev ≠ .spawn i := by
  cases h with
  | stop | expire | exit | enter | move | start | register | take | signal | pop | refuse | ret
  | close => exact ⟨hm, nofun⟩
  | begin h | conclude h => exact absurd h hm
  | spawn hi =>
    rw [(hp hm).1] at hi
    cases hi
  | mainTake | mainSignal | sweep | finish => exact ⟨nofun, nofun⟩
  | mainGo =>
    refine ⟨?_, nofun⟩
    dsimp only
    split <;> nofun

theorem no_spawn {l : List (Event u)} (hp : s.Parked) (hm : s.main ≠ .working)
    (h : Run Step s l t) : t.Parked ∧ t.main ≠ .working ∧ ∀ i, Event.spawn i ∉ l := by
  induction h with
  | nil => exact ⟨hp, hm, fun _ => List.not_mem_nil⟩
  | snoc _ hstep ih =>
    obtain ⟨hp', hm', hnot⟩ := ih
    obtain ⟨hmain, hev⟩ := ne_working_step hp' hm' hstep
    refine ⟨parked_step hp' hstep, hmain, fun i hi => ?_⟩
    rcases List.mem_append.mp hi with hi | hi
    · exact hnot i hi
    · exact hev i (List.mem_singleton.mp hi).symm

/--
When `main` calls `sweep`, every child that was ever spawned has exited or is signalled, and
nothing spawns one afterwards: in every run in which no registration and no `pop` takes a running
child out of the table.
-/
theorem swept_of_keeps {l : List (Event u)}
    (h : Run (Guarded Step State.Keeps) (State.init u) l s) (hm : s.main = .sweeping) :
    (∀ k p, s.procs k = some p → p.exited ≠ none ∨ p.signalled = true) ∧
      ∀ l' t, Run Step s l' t → ∀ i, Event.spawn i ∉ l' := by
  have ho := orderly h
  constructor
  · intro k p hp
    exact (ho.accounted k p hp).resolve_right (not_held ho hm)
  · intro l' t hrun
    exact (no_spawn ho.parked (by rw [hm]; nofun) hrun).2.2

/-! ## Experiments that differ in name -/

/-- The names of experiments that run side by side differ. -/
def Setup.Distinct (u : Setup) : Prop :=
  u.q.concurrent = true → ∀ b ∈ u.q.batches, ∀ c ∈ b, ∀ c' ∈ b,
    u.name c.arm = u.name c'.arm → c.arm = c'.arm

/-- The thread waits for the child, and put it in the table. -/
def Pc.Watches (k : ChildId) : Pc → Prop
  | .polling x | .checking x | .taking x | .exited x => x = k
  | _ => False

/-- Each entry of the table was put there by a thread that still waits for its child. -/
structure State.Seated (s : State u) : Prop where
  fresh : ∀ k, s.next ≤ k → s.procs k = none
  gone : ∀ i c k, s.thread i = some (c, .exited k) → ∃ p, s.procs k = some p ∧ p.exited ≠ none
  entry : ∀ n k, (n, k) ∈ s.table →
    ∃ i c pc, s.thread i = some (c, pc) ∧ u.name i = n ∧ pc.Watches k

theorem seated_init : (State.init u).Seated := ⟨fun _ _ => rfl, nofun, nofun⟩

theorem Moves.watches {pc pc' : Pc} (h : Moves s pc pc') (hw : pc.Watches k) : pc'.Watches k := by
  cases h <;> exact hw

theorem Returns.not_watches {pc : Pc} {r : Result} (h : Returns s pc r) : ¬ pc.Watches k := by
  cases h <;> exact id

theorem gone_step (hs : s.Seated) (h : Step s ev t) {c : Call u.q}
    (hi : t.thread i = some (c, .exited k)) : ∃ p, t.procs k = some p ∧ p.exited ≠ none := by
  have hkeep : s.thread i = some (c, .exited k) → ∃ p, t.procs k = some p ∧ p.exited ≠ none :=
    fun hi => exited_step hs.fresh h.grow (hs.gone i c k hi)
  have hmoved : ∀ {j : u.q.Index} {o : Option (Call u.q × Pc)},
      t.thread = Function.update s.thread j o →
      (o = some (c, .exited k) → ∃ p, t.procs k = some p ∧ p.exited ≠ none) →
      ∃ p, t.procs k = some p ∧ p.exited ≠ none := by
    intro j o ht ho
    by_cases hij : i = j
    · rw [hij, ht, Function.update_self] at hi
      exact ho hi
    · rw [ht, Function.update_of_ne hij] at hi
      exact hkeep hi
  cases h with
  | stop | expire | exit | begin | close | conclude | mainTake | mainSignal | mainGo | sweep
  | finish => exact hkeep hi
  | enter | start | spawn | register | take | signal | pop | refuse | ret =>
    exact hmoved rfl nofun
  | move _ hm =>
    refine hmoved rfl fun ho => ?_
    cases ho
    cases hm with
    | gone hexit =>
      obtain ⟨p, hp, hrc⟩ := hexit
      exact ⟨p, hp, by rw [hrc]; exact Option.some_ne_none _⟩

theorem entry_step (hs : s.Seated) (h : Step s ev t) {n : String} (hk : (n, k) ∈ t.table) :
    ∃ i c pc, t.thread i = some (c, pc) ∧ u.name i = n ∧ pc.Watches k := by
  -- a thread that does not wait for the child may go anywhere
  have hkeep : ∀ {j : u.q.Index} {o : Option (Call u.q × Pc)},
      t.thread = Function.update s.thread j o → (n, k) ∈ s.table →
      (∀ c pc, s.thread j = some (c, pc) → ¬ pc.Watches k ∨ u.name j ≠ n) →
      ∃ i c pc, t.thread i = some (c, pc) ∧ u.name i = n ∧ pc.Watches k := by
    intro j o ht hmem hj
    obtain ⟨i, c, pc, hi, hn, hw⟩ := hs.entry n k hmem
    refine ⟨i, c, pc, ?_, hn, hw⟩
    rw [ht, Function.update_of_ne ?_, hi]
    rintro rfl
    exact (hj c pc hi).elim (absurd hw) (absurd hn)
  cases h with
  | stop | expire | exit | begin | close | conclude | mainSignal | mainGo | sweep | finish =>
    exact hs.entry n k hk
  | mainTake => cases hk
  | @take => cases hk
  | enter _ hnone =>
    refine hkeep rfl hk fun c pc hc => ?_
    rw [hnone] at hc
    cases hc
  | @move i c pc pc' hi hm =>
    obtain ⟨j, c', pc'', hj, hn, hw⟩ := hs.entry n k hk
    by_cases hji : j = i
    · subst hji
      rw [hi] at hj
      cases hj
      exact ⟨j, c, pc', Function.update_self .., hn, hm.watches hw⟩
    · exact ⟨j, c', pc'', (Function.update_of_ne hji _ _).trans hj, hn, hw⟩
  | start hi | spawn hi | signal hi | refuse hi =>
    refine hkeep rfl hk fun c pc hc => Or.inl ?_
    rw [hi] at hc
    cases hc
    exact id
  | @register i c x hi =>
    rcases List.mem_append.mp hk with hk | hk
    · refine hkeep rfl (List.mem_filter.mp hk).1 fun c' pc hc => Or.inl ?_
      rw [hi] at hc
      cases hc
      exact id
    · cases List.mem_singleton.mp hk
      exact ⟨i, c, _, Function.update_self .., rfl, rfl⟩
  | @pop i c x hi =>
    obtain ⟨hmem, hne⟩ := List.mem_filter.mp hk
    exact hkeep rfl hmem fun _ _ _ => Or.inr (Ne.symm (of_decide_eq_true hne))
  | ret hi hr =>
    refine hkeep rfl hk fun c pc hc => Or.inl ?_
    rw [hi] at hc
    cases hc
    exact hr.not_watches

theorem seated_step (hs : s.Seated) (h : Step s ev t) : t.Seated :=
  ⟨fresh_step hs.fresh h.grow, fun _ _ _ => gone_step hs h, fun _ _ => entry_step hs h⟩

/-- Two experiments of one name do not run at the same time. -/
theorem eq_of_name {j : u.q.Index} (hd : u.Distinct) (hs : s.Called)
    {c c' : Call u.q} {pc pc' : Pc} (hi : s.thread i = some (c, pc))
    (hj : s.thread j = some (c', pc')) (hname : u.name i = u.name j) : i = j := by
  cases hconc : u.q.concurrent with
  | false =>
    exact hs.alone hconc i j (by rw [hi]; exact Option.some_ne_none _)
      (by rw [hj]; exact Option.some_ne_none _)
  | true =>
    obtain ⟨rfl, hc, -⟩ := hs.thread i c pc hi
    obtain ⟨rfl, hc', -⟩ := hs.thread j c' pc' hj
    obtain ⟨b, hb, hcb, hcb'⟩ := hs.due c hc c' hc'
    exact hd hconc b hb c hcb c' hcb' hname

theorem keeps_of_called (hd : u.Distinct) (hc : s.Called) (hs : s.Seated) (h : Step s ev t) :
    s.Keeps ev := by
  -- an entry under the thread's name is of the thread itself
  have hown : ∀ {i c pc x}, s.thread i = some (c, pc) → (u.name i, x) ∈ s.table → pc.Watches x := by
    intro i c pc x hi hx
    obtain ⟨j, c', pc', hj, hn, hw⟩ := hs.entry _ _ hx
    obtain rfl := eq_of_name hd hc hi hj hn.symm
    rw [hi] at hj
    cases hj
    exact hw
  cases h with
  | register hi => exact fun x hx => (hown hi hx).elim
  | @pop i c k hi =>
    intro x hx
    obtain rfl : k = x := hown hi hx
    obtain ⟨p, hp, hgone⟩ := hs.gone i c k hi
    rintro ⟨p', hp', hruns⟩
    rw [hp] at hp'
    cases hp'
    exact hgone hruns
  | _ => trivial

/-- If experiments that run side by side differ in name, no step drops a running child. -/
theorem keeps_of_distinct (hd : u.Distinct) {l : List (Event u)}
    (h : Run Step (State.init u) l s) : Run (Guarded Step State.Keeps) (State.init u) l s := by
  induction h with
  | nil => exact Run.nil
  | snoc hrun hstep ih =>
    have hseated := hrun.invariant seated_init fun _ _ _ => seated_step
    exact ih.snoc ⟨keeps_of_called hd (run_called hrun) hseated hstep, hstep⟩

theorem distinct_pair {n m : String} (h : n ≠ m) : (pair n m).Distinct := by
  intro _ b _ c _ c' _ hname
  rcases pair.eq_fst_or_snd c.arm with hc | hc <;> rcases pair.eq_fst_or_snd c'.arm with hc' | hc'
    <;> rw [hc, hc'] at hname ⊢
  · exact absurd hname h
  · exact absurd hname.symm h

/-- Two experiments with names of their own, whose children are both signalled. -/
theorem swept_of_keeps_sideBySide :
    ∃ (l : List (Event (pair "s3/miniosv" "s3/linux"))) (s : State _),
      Run (Guarded Step State.Keeps) (State.init _) l s ∧ s.main = .sweeping ∧
        s.procs 0 ≠ none ∧ s.procs 1 ≠ none ∧
        (∀ k p, s.procs k = some p → p.exited ≠ none ∨ p.signalled = true) ∧
        ∀ l' t, Run Step s l' t → ∀ i, Event.spawn i ∉ l' := by
  have hne : "s3/miniosv" ≠ "s3/linux" := by decide
  obtain ⟨l, s, h, hm, h0, h1⟩ := run_bothStopped any_of_stays (fun _ _ _ _ _ => trivial) hne
  have hkept := keeps_of_distinct (distinct_pair hne) h.of_guarded
  refine ⟨l, s, hkept, hm, ?_, ?_, swept_of_keeps hkept hm⟩
  · rw [h0]
    exact Option.some_ne_none _
  · rw [h1]
    exact Option.some_ne_none _

open pair in
/--
Two experiments of one name: the second child takes the first one's place in the table, and the
first one runs on.
-/
theorem unswept_namesakes :
    ∃ (l : List (Event (pair "s3/miniosv" "s3/miniosv"))) (s : State _) (k : ChildId) (p : Proc _),
      Run Step (State.init _) l s ∧ s.main = .sweeping ∧ s.procs k = some p ∧ p.exited = none ∧
        p.signalled = false := by
  obtain ⟨l, s, h, hs⟩ := run_sideBySide (n := "s3/miniosv") (m := "s3/miniosv") any_of_stays
  have htable : s.table = [("s3/miniosv", 1)] := by simp [hs.table]
  have h₁ := run_stay any_of_stays h (.move hs.fst (.runs ⟨_, hs.procFst, rfl⟩)) nofun
  have h₂ := run_stay any_of_stays h₁ (.move (i := fst) rfl (.giveUp (Or.inl hs.stopping))) nofun
  have h₃ := run_stay any_of_stays h₂ (step_take (i := fst) rfl htable) nofun
  have h₄ := run_stay any_of_stays h₃ (.signal (i := fst) rfl) nofun
  have h₅ := h₄.snoc ⟨trivial, .ret (i := fst) rfl (.ended hs.stopping)⟩
  have h₆ := run_stay any_of_stays h₅ (.move (i := snd) hs.snd
    (.runs ⟨_, congrArg (Option.map _) hs.procSnd, rfl⟩)) nofun
  have h₇ := run_stay any_of_stays h₆ (.move (i := snd) rfl (.giveUp (Or.inl hs.stopping))) nofun
  have h₈ := run_stay any_of_stays h₇ (step_take (i := snd) rfl rfl) nofun
  have h₉ := h₈.snoc ⟨trivial, .ret (i := snd) rfl (.ended hs.stopping)⟩
  obtain ⟨m, t, ht, hm, hprocs, -⟩ := run_close any_of_stays h₉ hs.due hs.pending
    (fun i => by rcases eq_fst_or_snd i with rfl | rfl <;> rfl) hs.main rfl
    (early_or rfl) nofun
  exact ⟨_, t, 0, _, ht.of_guarded, hm, (congrFun hprocs 0).trans hs.procFst, rfl, rfl⟩

end Children
