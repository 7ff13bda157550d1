import MiniosvCtrl.Experiment.Drivers
import MiniosvCtrl.Properties.Points
import MiniosvCtrl.Properties.ResumeSound

/-!
# After an invalid row

An experiment that does not set `keep_going` is to launch nothing more once an invalid row was
recorded. A driver looks at the last row of a run only, and exits with 0 when it abandons its plan,
so that the drivers of the remaining points are started all the same.

* `Idle` — all that is still planned is found by `done`
* `step_idle`, `run_idle` — then nothing is launched
* `exists_launch` — else something may be
* `LastRun` — the condition on a record
* `stops_iff` — nothing is launched after an invalid row exactly when its run was the last
-/

namespace Experiment.Drivers

open Infra Runner

variable {N : Numerals} {b : Bench} {s t w : Drivers N} {ev : Event N} {l : List (Event N)}

/-! ## Nothing left to launch -/

/-- The frame that a driver starts with. -/
def frame (file : Option (Csv N)) : Frame N := file.elim (Frame.empty N) Csv.read

/-- Every run that is still planned is one that `done` finds. -/
structure Idle (b : Bench) (s : Drivers N) : Prop where
  live : ∀ p, s.live = some p → ∀ r ∈ p.todo, done p.df r = true
  todo : ∀ r ∈ planned b s.todo, done (frame s.file) r = true

theorem planned_cons {a : Argv} {sw : Sweep} (h : Sweep.parse b a = some sw) (todo : List Argv) :
    planned b (a :: todo) = sw.plan ++ planned b todo := by
  rw [planned, h]

theorem step_idle (h : Idle b s) (hstep : Step b s ev t) : Idle b t ∧ ev.launched = none := by
  cases hstep with
  | @start file a todo sw hparse =>
    have hplanned := h.todo
    rw [planned_cons hparse] at hplanned
    refine ⟨⟨fun p hp r hr => ?_, fun r hr => ?_⟩, rfl⟩
    · obtain rfl := Option.some_inj.mp hp
      exact hplanned r (List.mem_append_left _ hr)
    · exact hplanned r (List.mem_append_right _ hr)
  | refuse _ => exact ⟨⟨nofun, nofun⟩, rfl⟩
  | @skip file p todo run _ _ =>
    refine ⟨⟨fun p' hp r hr => ?_, h.todo⟩, rfl⟩
    obtain rfl := Option.some_inj.mp hp
    exact h.live p rfl r (List.mem_of_mem_tail hr)
  | @record file p todo run tries boot valids hhead hdone _ _ _ =>
    have hfound := h.live p rfl run (List.mem_of_head? hhead)
    rw [hdone] at hfound
    cases hfound
  | @raise file p todo run tries hhead hdone _ _ =>
    have hfound := h.live p rfl run (List.mem_of_head? hhead)
    rw [hdone] at hfound
    cases hfound
  | exit _ => exact ⟨⟨nofun, h.todo⟩, rfl⟩
  | fail => exact ⟨⟨nofun, nofun⟩, rfl⟩

/-- From there on nothing is launched. -/
theorem run_idle (h : Idle b s) (hrun : Infra.Run (Step b) s l t) :
    Idle b t ∧ ∀ ev ∈ l, ev.launched = none := by
  induction hrun with
  | nil => exact ⟨h, nofun⟩
  | snoc _ hstep ih =>
    obtain ⟨hidle, hlaunched⟩ := step_idle ih.1 hstep
    refine ⟨hidle, fun ev hev => ?_⟩
    rcases List.mem_append.mp hev with hev | hev
    · exact ih.2 ev hev
    · obtain rfl := List.mem_singleton.mp hev
      exact hlaunched

/-! ## Something left to launch -/

/-- The state may go on to launch something. -/
def Launches (b : Bench) (s : Drivers N) : Prop :=
  ∃ l t, Infra.Run (Step b) s l t ∧ ∃ ev ∈ l, ev.launched ≠ none

theorem Launches.after (hrun : Infra.Run (Step b) s l t) (h : Launches b t) : Launches b s := by
  obtain ⟨m, w, hm, ev, hev, hne⟩ := h
  exact ⟨l ++ m, w, hrun.append hm, ev, List.mem_append_right _ hev, hne⟩

/-- A driver skips what is found, and launches the first run that is not. -/
theorem launches_of_live {file : Option (Csv N)} {p : Process N} {todo : List Argv}
    (h : ∃ r ∈ p.todo, done p.df r = false) : Launches b ⟨file, some p, todo⟩ := by
  obtain ⟨sw, df, holds, runs⟩ := p
  induction runs with
  | nil =>
    obtain ⟨r, hr, -⟩ := h
    exact absurd hr List.not_mem_nil
  | cons run runs ih =>
    cases hrun : done df run with
    | false =>
      exact ⟨_, _, Infra.Run.single (Step.raise rfl hrun le_rfl (by decide)), _,
        List.mem_singleton.mpr rfl, Option.some_ne_none _⟩
    | true =>
      obtain ⟨r, hr, hdone⟩ := h
      rcases List.mem_cons.mp hr with rfl | hr
      · have hdone : done df r = false := hdone
        rw [hrun] at hdone
        cases hdone
      · exact (ih ⟨r, hr, hdone⟩).after (Infra.Run.single (Step.skip rfl hrun))

/-- A driver that has nothing to launch skips its plan and exits. -/
theorem run_exit (b : Bench) (todo : List Argv) (p : Process N) (file : Option (Csv N))
    (h : ∀ r ∈ p.todo, done p.df r = true) :
    ∃ l, Infra.Run (Step b) ⟨file, some p, todo⟩ l ⟨file, none, todo⟩ := by
  obtain ⟨sw, df, holds, runs⟩ := p
  induction runs with
  | nil => exact ⟨_, Infra.Run.single (Step.exit rfl)⟩
  | cons run runs ih =>
    obtain ⟨l, hl⟩ := ih fun r hr => h r (List.mem_cons_of_mem _ hr)
    exact ⟨_, hl.cons (Step.skip rfl (h run List.mem_cons_self))⟩

/-- The drivers are started in turn, up to the one that launches something. -/
theorem launches_of_todo {file : Option (Csv N)} {todo : List Argv}
    (h : ∃ r ∈ planned b todo, done (frame file) r = false) : Launches b ⟨file, none, todo⟩ := by
  induction todo with
  | nil =>
    obtain ⟨r, hr, -⟩ := h
    exact absurd hr List.not_mem_nil
  | cons a todo ih =>
    cases hparse : Sweep.parse b a with
    | none =>
      obtain ⟨r, hr, -⟩ := h
      rw [planned, hparse] at hr
      exact absurd hr List.not_mem_nil
    | some sw =>
      have hstart : Infra.Run (Step b) ⟨file, none, a :: todo⟩ [.start sw]
          ⟨file, some (Process.start sw file), todo⟩ := Infra.Run.single (Step.start hparse)
      refine Launches.after hstart ?_
      by_cases hall : ∀ r ∈ sw.plan, done (frame file) r = true
      · obtain ⟨l, hl⟩ := run_exit b todo (Process.start sw file) file hall
        obtain ⟨r, hr, hdone⟩ := h
        rw [planned_cons hparse] at hr
        rcases List.mem_append.mp hr with hr | hr
        · rw [hall r hr] at hdone
          cases hdone
        · exact (ih ⟨r, hr, hdone⟩).after hl
      · push Not at hall
        obtain ⟨r, hr, hdone⟩ := hall
        have hdone : done (frame file) r = false := by simpa using hdone
        exact launches_of_live ⟨r, hr, hdone⟩

theorem exists_launch (h : ¬ Idle b s) : Launches b s := by
  obtain ⟨file, live, todo⟩ := s
  cases live with
  | none =>
    have htodo : ¬ ∀ r ∈ planned b todo, done (frame file) r = true := fun htodo =>
      h ⟨nofun, htodo⟩
    push Not at htodo
    obtain ⟨r, hr, hdone⟩ := htodo
    exact launches_of_todo ⟨r, hr, by simpa using hdone⟩
  | some p =>
    by_cases hlive : ∀ r ∈ p.todo, done p.df r = true
    · obtain ⟨l, hl⟩ := run_exit b todo p file hlive
      have htodo : ¬ ∀ r ∈ planned b todo, done (frame file) r = true := fun htodo =>
        h ⟨fun p' hp => Option.some_inj.mp hp ▸ hlive, htodo⟩
      push Not at htodo
      obtain ⟨r, hr, hdone⟩ := htodo
      exact (launches_of_todo ⟨r, hr, by simpa using hdone⟩).after hl
    · push Not at hlive
      obtain ⟨r, hr, hdone⟩ := hlive
      exact launches_of_live ⟨r, hr, by simpa using hdone⟩

/-! ## Experiments without `keep_going` -/

/-- No driver was told to keep going, and none will be. -/
structure Stops (s : Drivers N) : Prop where
  live : ∀ p, s.live = some p → p.sweep.keepGoing = false
  todo : ∀ a ∈ s.todo, a.keepGoing = false

theorem step_stops (h : Stops s) (hstep : Step b s ev t) : Stops t := by
  cases hstep with
  | @start file a todo sw hparse =>
    refine ⟨fun p hp => ?_, fun a' ha' => h.todo a' (List.mem_cons_of_mem _ ha')⟩
    obtain rfl := Option.some_inj.mp hp
    exact (Sweep.parsed_of_parse hparse).keepGoing.trans (h.todo a List.mem_cons_self)
  | refuse _ => exact ⟨nofun, nofun⟩
  | @skip file p todo run _ _ =>
    refine ⟨fun p' hp => ?_, h.todo⟩
    obtain rfl := Option.some_inj.mp hp
    exact h.live p rfl
  | @record file p todo run tries boot valids _ _ _ _ _ =>
    refine ⟨fun p' hp => ?_, h.todo⟩
    obtain rfl := Option.some_inj.mp hp
    exact h.live p rfl
  | raise _ _ _ _ => exact ⟨nofun, nofun⟩
  | exit _ => exact ⟨nofun, h.todo⟩
  | fail => exact ⟨nofun, nofun⟩

theorem stops_init {x : File} (hkeep : x.keepGoing = false) {o : Option (Name × String)}
    {reps : Nat} {argvs : List Argv} (hmain : x.main o reps = some argvs)
    (file : Option (Csv N)) : Stops (init file argvs) := by
  refine ⟨nofun, fun a ha => ?_⟩
  have ha : a ∈ argvs := ha
  rw [File.main_eq_some hmain] at ha
  obtain ⟨p, -, rfl⟩ := List.mem_map.mp ha
  exact hkeep

/--
The run that is recorded is the last that the experiment has left to launch: of the rest of its
driver's plan, unless the run's last row is invalid, and of the plans of the drivers for the
remaining points, `done` finds every run.
-/
structure LastRun (b : Bench) (s : Drivers N) (run : Run) (boot : Boot N) (valids : List Bool) :
    Prop where
  sweep : lastValid valids = true →
    ∀ p, s.live = some p → ∀ r ∈ p.todo.tail, done (record p.df run boot) r = true
  points : ∀ p, s.live = some p →
    ∀ r ∈ planned b s.todo, done (record p.df run boot).reread r = true

/-- The driver abandons its plan when the last row is invalid. -/
theorem idle_iff_lastRun (h : Stops s) {run : Run} {tries : Nat} {boot : Boot N}
    {valids : List Bool} (hstep : Step b s (.record run tries boot valids) t) :
    Idle b t ↔ LastRun b s run boot valids := by
  cases hstep with
  | @record file p todo run tries boot valids _ _ _ _ _ =>
    have hkeep : p.sweep.keepGoing = false := h.live p rfl
    have htodo : (p.record run boot (lastValid valids)).todo =
        if lastValid valids = true then p.todo.tail else [] := by
      show (if (lastValid valids || p.sweep.keepGoing) = true then _ else _) = _
      rw [hkeep, Bool.or_false]
    constructor
    · intro hidle
      refine ⟨fun hvalid p' hp r hr => ?_, fun p' hp r hr => ?_⟩
      · obtain rfl := Option.some_inj.mp hp
        refine hidle.live _ rfl r ?_
        rw [htodo, if_pos hvalid]
        exact hr
      · obtain rfl := Option.some_inj.mp hp
        exact hidle.todo r hr
    · intro hlast
      refine ⟨fun p' hp r hr => ?_, hlast.points p rfl⟩
      obtain rfl := Option.some_inj.mp hp
      rw [htodo] at hr
      split at hr
      · rename_i hvalid
        exact hlast.sweep hvalid p rfl r hr
      · exact absurd hr List.not_mem_nil

/--
**Without `keep_going`, nothing is launched after a run with an invalid row, whatever happens
next, exactly when that run was the last that the experiment had left to launch.**
-/
theorem stops_iff {x : File} (hkeep : x.keepGoing = false) {o : Option (Name × String)}
    {reps : Nat} {argvs : List Argv} (hmain : x.main o reps = some argvs)
    {file : Option (Csv N)} (hrun : Infra.Run (Step x.bench) (init file argvs) l s)
    {run : Run} {tries : Nat} {boot : Boot N} {valids : List Bool}
    (hstep : Step x.bench s (.record run tries boot valids) t) :
    (false ∈ valids →
      ∀ m w, Infra.Run (Step x.bench) t m w → ∀ ev ∈ m, ev.launched = none) ↔
      (false ∈ valids → LastRun x.bench s run boot valids) := by
  have hstops : Stops s :=
    hrun.invariant (stops_init hkeep hmain file) fun _ _ _ h hstep => step_stops h hstep
  rw [← idle_iff_lastRun hstops hstep]
  constructor
  · intro hnone hinvalid
    by_contra hidle
    obtain ⟨m, w, hm, ev, hev, hne⟩ := exists_launch hidle
    exact hne (hnone hinvalid m w hm ev hev)
  · exact fun hidle hinvalid m w hm => (run_idle (hidle hinvalid) hm).2

/-! ## Two points -/

/-- A thread sweep that stops at an invalid row. -/
def stopFile (points : List Dict)
    (h : ∀ p ∈ points, ("threads" :: p.map Prod.fst).Nodup := by simp) : File :=
  { threadFile points h with keepGoing := false }

/-- The sweep of its first point. -/
def stopSweep : Sweep := { pointSweep "r6in.8xlarge" 1 with keepGoing := false }

def stopProcess : Process Numerals.whole := Process.start stopSweep none

/-- The first driver of such an experiment records an invalid row. -/
theorem run_invalid (a : Argv) (todo : List Argv)
    (hparse : Sweep.parse threadBench a = some stopSweep) :
    ∃ s t : Drivers Numerals.whole,
      Infra.Run (Step threadBench) (init none (a :: todo)) [.start stopSweep] s ∧
      Step threadBench s (.record (stopSweep.run (.int 64) 1) 1 oneRow [false]) t ∧
      s.live = some stopProcess ∧ s.todo = todo ∧
      t = ⟨some (stopProcess.record (stopSweep.run (.int 64) 1) oneRow false).csv,
        some (stopProcess.record (stopSweep.run (.int 64) 1) oneRow false), todo⟩ :=
  ⟨_, _, Infra.Run.single (Step.start hparse),
    Step.record rfl rfl le_rfl (by decide) rfl, rfl, rfl, rfl⟩

/-- An experiment of one point, whose invalid row is the last thing that it does. -/
theorem stops_iff_onePoint :
    ∃ s t : Drivers Numerals.whole,
      Infra.Run (Step threadBench) (init none [(stopFile [[]]).argv 1 [("threads", .int 64)]])
        [.start stopSweep] s ∧
      Step threadBench s (.record (stopSweep.run (.int 64) 1) 1 oneRow [false]) t ∧
      ∀ m w, Infra.Run (Step threadBench) t m w → ∀ ev ∈ m, ev.launched = none := by
  obtain ⟨s, t, hrun, hstep, hlive, htodo, -⟩ := run_invalid
    ((stopFile [[]]).argv 1 [("threads", .int 64)]) [] (by decide)
  have hlast : LastRun threadBench s (stopSweep.run (.int 64) 1) oneRow [false] := by
    refine ⟨nofun, fun p _ r hr => ?_⟩
    rw [htodo] at hr
    exact absurd hr List.not_mem_nil
  have hkeep : (stopFile [[]]).keepGoing = false := rfl
  have hmain : (stopFile [[]]).main none 1 =
      some [(stopFile [[]]).argv 1 [("threads", .int 64)]] := rfl
  exact ⟨s, t, hrun, hstep, (stops_iff hkeep hmain hrun hstep).mpr
      (fun _ => hlast) (by decide)⟩

/-- Two points: the first one's row is invalid, and the second one's run is launched. -/
theorem launched_after_invalid :
    ∃ (argvs : List Argv) (s t w : Drivers Numerals.whole) (m : List (Event Numerals.whole)),
      (stopFile [[], [("query", .int 6)]]).keepGoing = false ∧
      (stopFile [[], [("query", .int 6)]]).main none 1 = some argvs ∧
      Infra.Run (Step threadBench) (init none argvs) [.start stopSweep] s ∧
      Step threadBench s (.record (stopSweep.run (.int 64) 1) 1 oneRow [false]) t ∧
      Infra.Run (Step threadBench) t m w ∧ ∃ ev ∈ m, ev.launched ≠ none := by
  obtain ⟨s, t, hrun, hstep, -, htodo, ht⟩ :=
    run_invalid ((stopFile [[], [("query", .int 6)]]).argv 1 [("threads", .int 64)])
      [(stopFile [[], [("query", .int 6)]]).argv 1 [("threads", .int 64), ("query", .int 6)]]
      (by decide)
  have hlaunches : Launches threadBench t := by
    rw [ht]
    refine exists_launch fun hidle => ?_
    have hfound := hidle.todo
    revert hfound
    decide
  obtain ⟨m, w, hm, hev⟩ := hlaunches
  exact ⟨_, s, t, w, m, rfl, rfl, hrun, hstep, hm, hev⟩

end Experiment.Drivers
