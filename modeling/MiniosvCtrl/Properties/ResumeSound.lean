import MiniosvCtrl.Experiment.Main
import MiniosvCtrl.Infra.Whole
import MiniosvCtrl.Properties.Rows

/-!
# A run is skipped only if it was recorded

* `Descends` — where `done` looks, every row is alike to what was recorded for some run
* `Resembles` — a recorded row that a run's `done` may take for its own
* `Distinct` — the condition on a step
* `resume_sound` — while no recorded row resembles another planned run, `done` finds no run but a
  recorded one
* `done_other_instance` — a point that differs in its instance type only is skipped
-/

namespace Runner

open Infra

variable {N : Numerals} {df : Frame N} {run r : Run} {boot : Boot N}

/-! ## Where the rows come from -/

/-- Where `done` looks, the cells of a bench's rows. -/
def Bench.columns (b : Bench) : List Name :=
  ["axis", "axis_value", "rep"] ++ b.knobs.map Knob.name

/-- Every row is one of a recorded run, its cells alike. -/
def Descends (b : Bench) (df : Frame N) (holds : List (Run × Boot N)) : Prop :=
  ∀ r ∈ df.rows, ∃ rb ∈ holds, ∃ own ∈ rb.2.rows,
    ∀ k ∈ b.columns, Alike N (r k).text (rb.1.recorded own k).text

/-- What holds of a frame whose rows are a bench's. -/
structure Provenance (b : Bench) (df : Frame N) (holds : List (Run × Boot N)) : Prop where
  descends : Descends b df holds
  columns : df.rows ≠ [] → ∀ k ∈ b.columns, k ∈ df.columns

theorem provenance_empty (b : Bench) : Provenance b (Frame.empty N) [] :=
  ⟨fun _ hr => absurd hr List.not_mem_nil, fun h => absurd rfl h⟩

theorem Provenance.reread {b : Bench} {holds : List (Run × Boot N)} (h : Provenance b df holds) :
    Provenance b df.reread holds := by
  constructor
  · intro r' hr'
    rw [Frame.rows_reread] at hr'
    obtain ⟨r, hr, rfl⟩ := List.mem_map.mp hr'
    obtain ⟨rb, hrb, own, hown, halike⟩ := h.descends r hr
    refine ⟨rb, hrb, own, hown, fun k hk => ?_⟩
    have hread : Alike N (reprint N (df.laterKind k) (r k).text) (r k).text := by
      rw [Frame.laterKind_eq]
      exact alike_reprint (text_mem_laterKind hr k)
    exact hread.trans (halike k hk)
  · intro hne
    refine h.columns fun hnil => hne ?_
    rw [Frame.rows_reread, hnil]
    rfl

theorem Provenance.record {b : Bench} {holds : List (Run × Boot N)} (h : Provenance b df holds)
    (hrun : run.lookedAt = b.columns) (boot : Boot N) :
    Provenance b (record df run boot) (holds ++ [(run, boot)]) := by
  constructor
  · intro r hr
    rcases mem_rows_record.mp hr with ⟨r₀, hr₀, rfl⟩ | ⟨r₁, hr₁, rfl⟩
    · obtain ⟨rb, hrb, own, hown, halike⟩ := h.descends r₀ hr₀
      exact ⟨rb, List.mem_append_left _ hrb, own, hown, fun k hk =>
        (alike_cast _ _).trans (halike k hk)⟩
    · obtain ⟨row, hrows, hrow⟩ := rows_newRows run boot
      rw [hrows] at hr₁
      obtain ⟨own, hown, rfl⟩ := List.mem_map.mp hr₁
      refine ⟨(run, boot), List.mem_append_right _ List.mem_cons_self, own, hown, fun k hk => ?_⟩
      show Alike N ((row own k).cast _).text (run.recorded own k).text
      rw [hrow own hown k (hrun ▸ hk)]
      exact alike_cast _ _
  · intro _ k hk
    exact lookedAt_columns_record (hrun ▸ hk) df boot

/-! ## What `done` takes for a run -/

/-- The row recorded for `run` tells no knob, axis value or rep of `r` from its own. -/
def Resembles (run r : Run) (own : Row N) : Prop :=
  ∀ kv ∈ r.keys ++ r.others, Alike N (run.recorded own kv.1).text kv.2.text

theorem alike_of_eqValue {c : Cell N} {v : Value} (h : eqValue c v = true) :
    Alike N c.text v.text := by
  cases c with
  | int n =>
    cases v with
    | int m =>
      obtain rfl : n = m := by simpa [eqValue] using h
      exact Alike.refl _
    | str t => simp [eqValue] at h
  | real x =>
    cases v with
    | int m =>
      obtain rfl : x = N.ofInt m := by simpa [eqValue] using h
      exact Or.inr ⟨N.ofInt m, N.realOf_showReal _, N.realOf_toString m⟩
    | str t => simp [eqValue] at h
  | str t =>
    cases v with
    | int m => simp [eqValue] at h
    | str u =>
      obtain rfl : t = u := by simpa [eqValue] using h
      exact Alike.refl _
  | missing => cases v <;> simp [eqValue] at h

/-- A row that `done` takes for `r` was recorded for a run, and resembles `r`. -/
theorem Provenance.resembles {b : Bench} {holds : List (Run × Boot N)} (h : Provenance b df holds)
    (hr : r.lookedAt = b.columns) (hdone : done df r = true) :
    ∃ rb ∈ holds, ∃ own ∈ rb.2.rows, Resembles rb.1 r own := by
  obtain ⟨row, hrow, hkeys, hknobs⟩ := done_iff.mp hdone
  obtain ⟨rb, hrb, own, hown, halike⟩ := h.descends row hrow
  refine ⟨rb, hrb, own, hown, fun kv hkv => ?_⟩
  rcases List.mem_append.mp hkv with hmem | hmem
  · have hk : kv.1 ∈ b.columns := hr ▸ Run.mem_lookedAt_of_keys hmem
    exact (halike kv.1 hk).symm.trans (alike_of_eqValue (hkeys kv hmem))
  · have hk : kv.1 ∈ b.columns := hr ▸ Run.mem_lookedAt_of_cfg (Run.mem_cfg_of_others hmem)
    have htext := hknobs kv hmem (h.columns (List.ne_nil_of_mem hrow) kv.1 hk)
    exact (halike kv.1 hk).symm.trans (Or.inl htext)

/-! ## Over a session of one experiment -/

theorem Sweep.lookedAt_run {b : Bench} {s : Sweep}
    (h : s.base.map Prod.fst = b.knobs.map Knob.name) (v : Value) (rep : Nat) :
    (s.run v rep).lookedAt = b.columns := by
  have hcfg : (s.run v rep).cfg.map Prod.fst = s.base.map Prod.fst := by
    show (if s.axis = instanceAxis then s.base else s.cfg v).map Prod.fst = _
    split
    · rfl
    · exact s.map_fst_cfg v
  rw [Run.lookedAt, hcfg, h]
  rfl

variable {x : Experiment.File}

theorem lookedAt_of_mem_plan {s : Sweep} (hs : x.Sweeps s) (hr : r ∈ s.plan) :
    r.lookedAt = x.bench.columns := by
  obtain ⟨o, reps, argvs, -, a, -, hparse⟩ := hs
  obtain ⟨v, -, rep, -, -, rfl⟩ := Sweep.mem_plan.mp hr
  exact Sweep.lookedAt_run (Sweep.parsed_of_parse hparse).names v rep

/-- No row of the boot resembles a run of the experiment other than the one it is recorded for. -/
def Distinct (x : Experiment.File) (_ : Session N) (ev : Session.Event N) : Prop :=
  match ev with
  | .record run boot _ =>
    ∀ r, x.Planned r → ∀ own ∈ boot.rows, Resembles run r own → r = run
  | _ => True

/-- What is recorded resembles no other run of the experiment. -/
def Apart (x : Experiment.File) (holds : List (Run × Boot N)) : Prop :=
  ∀ rb ∈ holds, ∀ r, x.Planned r → ∀ own ∈ rb.2.rows, Resembles rb.1 r own → r = rb.1

/-- What holds of a session whose records are all distinct. -/
structure SoundInv (x : Experiment.File) (s : Session N) : Prop where
  file : ∀ c, s.file = some c → Provenance x.bench c.read c.holds ∧ Apart x c.holds
  live : ∀ p, s.live = some p → Provenance x.bench p.df p.holds ∧ Apart x p.holds ∧
    ∀ r ∈ p.todo, r.lookedAt = x.bench.columns

theorem soundInv_init (x : Experiment.File) : SoundInv x (Session.init none : Session N) :=
  ⟨nofun, nofun⟩

theorem step_soundInv {s t : Session N} {ev : Session.Event N} (h : SoundInv x s)
    (hdistinct : Distinct x s ev) (hstep : Session.Step x.Sweeps s ev t) : SoundInv x t := by
  cases hstep with
  | @start file sw hsw =>
    refine ⟨h.file, fun p hp => ?_⟩
    obtain rfl := Option.some_inj.mp hp
    have htodo : ∀ r ∈ sw.plan, r.lookedAt = x.bench.columns := fun r hr =>
      lookedAt_of_mem_plan hsw hr
    cases file with
    | none => exact ⟨provenance_empty _, fun _ hrb => absurd hrb List.not_mem_nil, htodo⟩
    | some c => exact ⟨(h.file c rfl).1, (h.file c rfl).2, htodo⟩
  | @skip file p run _ _ =>
    refine ⟨h.file, fun p' hp' => ?_⟩
    obtain rfl := Option.some_inj.mp hp'
    obtain ⟨hprov, hapart, htodo⟩ := h.live p rfl
    exact ⟨hprov, hapart, fun r hr => htodo r (List.mem_of_mem_tail hr)⟩
  | @record file p run boot valid hhead _ =>
    obtain ⟨hprov, hapart, htodo⟩ := h.live p rfl
    have hprov' := hprov.record (htodo run (List.mem_of_mem_head? hhead)) boot
    -- the new row is apart from the others by `hdistinct`
    have hapart' : Apart x (p.holds ++ [(run, boot)]) := by
      intro rb hrb
      rcases List.mem_append.mp hrb with hrb | hrb
      · exact hapart rb hrb
      · obtain rfl := List.mem_singleton.mp hrb
        exact hdistinct
    refine ⟨fun c hc => ?_, fun p' hp' => ?_⟩
    · obtain rfl := Option.some_inj.mp hc
      exact ⟨hprov'.reread, hapart'⟩
    · obtain rfl := Option.some_inj.mp hp'
      refine ⟨hprov', hapart', fun r hr => htodo r ?_⟩
      have hr' : r ∈ if valid || p.sweep.keepGoing then p.todo.tail else [] := hr
      split at hr'
      · exact List.mem_of_mem_tail hr'
      · exact absurd hr' List.not_mem_nil
  | raise _ _ => exact ⟨h.file, nofun⟩
  | exit _ => exact ⟨h.file, nofun⟩
  | kill => exact ⟨h.file, nofun⟩

theorem run_soundInv {l : List (Session.Event N)} {s : Session N}
    (h : Infra.Run (Guarded (Session.Step x.Sweeps) (Distinct x)) (.init none) l s) :
    SoundInv x s :=
  h.invariant (soundInv_init x) fun _ _ _ hinv hstep => step_soundInv hinv hstep.1 hstep.2

theorem mem_of_done {b : Bench} {holds : List (Run × Boot N)} (h : Provenance b df holds)
    (hapart : Apart x holds) (hr : x.Planned r) (hlooked : r.lookedAt = b.columns)
    (hdone : done df r = true) : ∃ boot, (r, boot) ∈ holds := by
  obtain ⟨rb, hrb, own, hown, hres⟩ := h.resembles hlooked hdone
  obtain rfl := hapart rb hrb r hr own hown hres
  exact ⟨rb.2, hrb⟩

/--
**While no recorded row resembles another run of the experiment, `done` finds no run but one that
the CSV holds a row of: the same axis, axis value, rep, instance type and knobs.**
-/
theorem resume_sound {l : List (Session.Event N)} {s : Session N}
    (h : Infra.Run (Guarded (Session.Step x.Sweeps) (Distinct x)) (.init none) l s) {r : Run}
    (hr : x.Planned r) :
    (∀ c, s.file = some c → done c.read r = true → ∃ boot, (r, boot) ∈ c.holds) ∧
      ∀ p, s.live = some p → done p.df r = true → ∃ boot, (r, boot) ∈ p.holds := by
  have hinv := run_soundInv h
  obtain ⟨sw, hsw, hplan⟩ := hr
  have hlooked := lookedAt_of_mem_plan hsw hplan
  refine ⟨fun c hc => ?_, fun p hp => ?_⟩
  · obtain ⟨hprov, hapart⟩ := hinv.file c hc
    exact mem_of_done hprov hapart ⟨sw, hsw, hplan⟩ hlooked
  · obtain ⟨hprov, hapart, -⟩ := hinv.live p hp
    exact mem_of_done hprov hapart ⟨sw, hsw, hplan⟩ hlooked

/-! ## A thread sweep -/

def parseInt (t : String) : Option Value := (Numerals.whole.intOf t).map .int

/-- Two of the knobs of the TPC-H bench. -/
def threadBench : Bench :=
  { knobs := [⟨"query", parseInt, .int 6⟩, ⟨"threads", parseInt, .int 0⟩]
    nodup := by simp
    not_main := by simp [mainColumns] }

/-- Query 9 with 64 threads, a point for each table of further keys. -/
def threadFile (points : List Experiment.Dict)
    (h : ∀ p ∈ points, ("threads" :: p.map Prod.fst).Nodup := by simp) : Experiment.File :=
  { subject := "sf100-threads-http"
    stem := "miniosv"
    bench := threadBench
    axis := "threads"
    points := points.map fun p => ("threads", .int 64) :: p
    fixed := [("query", .int 9)]
    inst := "r6in.8xlarge"
    reps := 1
    keepGoing := true
    interleave := false
    axis_mem := fun p hp => by
      obtain ⟨p', -, rfl⟩ := List.mem_map.mp hp
      exact List.mem_cons_self
    nodup := fun p hp => by
      obtain ⟨p', hp', rfl⟩ := List.mem_map.mp hp
      exact h p' hp' }

/-- The sweep of such a point, on an instance. -/
def pointSweep (inst : String) (reps : Nat) : Sweep :=
  { axis := "threads"
    values := [.int 64]
    base := [("query", .int 9), ("threads", .int 0)]
    reps
    inst
    keepGoing := true
    interleave := false
    nodup := by simp
    not_main := by simp [mainColumns] }

def oneRow : Boot Numerals.whole :=
  { columns := [], rows := [fun _ => .missing], nonempty := List.cons_ne_nil _ _
    query := fun own hown => by
      obtain rfl := List.mem_singleton.mp hown
      exact Or.inl rfl }

theorem sweeps_onePoint {s : Sweep} (h : (threadFile [[]]).Sweeps s) :
    s = pointSweep "r6in.8xlarge" s.reps := by
  obtain ⟨o, reps, argvs, hmain, a, ha, hparse⟩ := h
  have hargvs : ((threadFile [[]]).tables o).map ((threadFile [[]]).argv reps) = argvs := by
    unfold Experiment.File.main at hmain
    split at hmain
    · cases hmain
    · exact Option.some_inj.mp hmain
  obtain ⟨p, hp, rfl⟩ := List.mem_map.mp (hargvs ▸ ha)
  have hp' : p ∈ (threadFile [[]]).points := by
    cases o with
    | none => exact hp
    | some o =>
      have hfilter : p ∈ (threadFile [[]]).points.filter fun q =>
          (threadFile [[]]).shown o.1 q = o.2 := hp
      exact List.mem_of_mem_filter hfilter
  obtain rfl := List.mem_singleton.mp hp'
  have hs := Sweep.parsed_of_parse hparse
  obtain ⟨axis, values, base, r, inst, kg, il, nodup, not_main⟩ := s
  obtain rfl : axis = "threads" := hs.axis
  obtain rfl : inst = "r6in.8xlarge" := hs.inst
  obtain rfl : kg = true := hs.keepGoing
  obtain rfl : il = false := hs.interleave
  have hvalues : threadBench.values "threads" "64" = some [.int 64] := by decide
  have hbase : threadBench.base [("query", "9")] =
      some [("query", .int 9), ("threads", .int 0)] := by decide
  obtain rfl := Option.some_inj.mp (hvalues.symm.trans hs.values)
  obtain rfl := Option.some_inj.mp (hbase.symm.trans hs.base)
  rfl

/-- Two whole numbers that are alike are one. -/
theorem eq_of_alike_whole {a b : Int} (h : Alike Numerals.whole (toString a) (toString b)) :
    a = b := by
  rcases h with h | ⟨x, ha, hb⟩
  · have hi := Numerals.whole.intOf_toString a
    rw [h, Numerals.whole.intOf_toString] at hi
    exact (Option.some_inj.mp hi).symm
  · rw [Numerals.realOf_toString] at ha hb
    exact (Option.some_inj.mp ha).trans (Option.some_inj.mp hb).symm

/-- The point's first rep resembles no other run of the experiment. -/
theorem distinct_onePoint (s : Session Numerals.whole) : Distinct (threadFile [[]]) s
    (.record ((pointSweep "r6in.8xlarge" 1).run (.int 64) 1) oneRow true) := by
  rintro r ⟨sw, hsw, hr⟩ own - hres
  obtain ⟨v, hv, rep, -, -, rfl⟩ := Sweep.mem_plan.mp hr
  have heq := sweeps_onePoint hsw
  have hrep := hres ("rep", .int rep) (List.mem_append_left _ (by simp [Run.keys, Sweep.run]))
  have hone : (1 : Int) = rep := eq_of_alike_whole hrep
  rw [heq] at hv ⊢
  obtain rfl : v = .int 64 := List.mem_singleton.mp hv
  obtain rfl : rep = 1 := by omega
  rfl

/-- A session of one point, whose run is recorded, and no other is found. -/
theorem resume_sound_onePoint :
    ∃ (l : List (Session.Event Numerals.whole)) (s : Session Numerals.whole) (c : Csv _),
      s.file = some c ∧
      Infra.Run (Guarded (Session.Step (threadFile [[]]).Sweeps) (Distinct (threadFile [[]])))
        (.init none) l s ∧
      c.holds.map Prod.fst = [(pointSweep "r6in.8xlarge" 1).run (.int 64) 1] ∧
      (done c.read ((pointSweep "r6in.8xlarge" 2).run (.int 64) 2) = true →
        ∃ boot, ((pointSweep "r6in.8xlarge" 2).run (.int 64) 2, boot) ∈ c.holds) := by
  have hsweep : ∀ reps, reps = 1 ∨ reps = 2 →
      (threadFile [[]]).Sweeps (pointSweep "r6in.8xlarge" reps) := by
    intro reps hreps
    refine ⟨none, reps, _, rfl, _, List.mem_singleton.mpr rfl, ?_⟩
    rcases hreps with rfl | rfl
    · decide
    · decide
  let run := (pointSweep "r6in.8xlarge" 1).run (.int 64) 1
  let p : Process Numerals.whole := Process.start (pointSweep "r6in.8xlarge" 1) none
  have hdistinct : Distinct (threadFile [[]]) ⟨none, some p⟩ (.record run oneRow true) :=
    distinct_onePoint _
  have h₁ : Infra.Run (Guarded (Session.Step (threadFile [[]]).Sweeps)
      (Distinct (threadFile [[]]))) (.init none) [.start (pointSweep "r6in.8xlarge" 1)]
      ⟨none, some p⟩ :=
    Infra.Run.single ⟨by trivial, Session.Step.start (hsweep 1 (Or.inl rfl))⟩
  have h₂ := h₁.snoc (a := .record run oneRow true) ⟨hdistinct, Session.Step.record rfl rfl⟩
  refine ⟨_, _, _, rfl, h₂, rfl, ?_⟩
  have hplanned : (threadFile [[]]).Planned ((pointSweep "r6in.8xlarge" 2).run (.int 64) 2) :=
    ⟨_, hsweep 2 (Or.inr rfl),
      Sweep.mem_plan.mpr ⟨_, List.mem_cons_self, 2, by omega, le_refl 2, rfl⟩⟩
  exact (resume_sound h₂ hplanned).1 _ rfl

/-- Two points that differ in the instance type only: one is recorded, and the other is found. -/
theorem done_other_instance :
    ∃ (l : List (Session.Event Numerals.whole)) (s : Session Numerals.whole)
      (p : Process Numerals.whole) (r : Run),
      Infra.Run (Session.Step (threadFile [[], [("instance", .str "r6in.4xlarge")]]).Sweeps)
        (.init none) l s ∧ s.live = some p ∧
      (threadFile [[], [("instance", .str "r6in.4xlarge")]]).Planned r ∧
      done p.df r = true ∧ r ∉ p.holds.map Prod.fst := by
  have hsweep : ∀ inst, inst = "r6in.8xlarge" ∨ inst = "r6in.4xlarge" →
      (threadFile [[], [("instance", .str "r6in.4xlarge")]]).Sweeps (pointSweep inst 1) := by
    rintro inst (rfl | rfl)
    · exact ⟨none, 1, _, rfl, _, List.mem_cons_self, by decide⟩
    · exact ⟨none, 1, _, rfl, _, List.mem_cons_of_mem _ List.mem_cons_self, by decide⟩
  let run := (pointSweep "r6in.8xlarge" 1).run (.int 64) 1
  let p : Process Numerals.whole := Process.start (pointSweep "r6in.8xlarge" 1) none
  have h₁ : Infra.Run (Session.Step (threadFile [[], [("instance", .str "r6in.4xlarge")]]).Sweeps)
      (.init none) [.start (pointSweep "r6in.8xlarge" 1)] ⟨none, some p⟩ :=
    Infra.Run.single (Session.Step.start (hsweep _ (Or.inl rfl)))
  have h₂ := h₁.snoc (a := .record run oneRow true) (Session.Step.record rfl rfl)
  refine ⟨_, _, _, (pointSweep "r6in.4xlarge" 1).run (.int 64) 1, h₂, rfl, ?_, by decide,
    by decide⟩
  exact ⟨_, hsweep _ (Or.inr rfl), Sweep.mem_plan.mpr ⟨_, List.mem_cons_self, 1, by omega,
    le_refl 1, rfl⟩⟩

end Runner
