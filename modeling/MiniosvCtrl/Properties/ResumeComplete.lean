import MiniosvCtrl.Infra.Whole
import MiniosvCtrl.Properties.Rows

/-!
# A recorded run is not launched again

* `Stays` — a record leaves the columns of an earlier run as that run needs them
* `Lasting` — the condition on a step
* `resume_complete` — a run that was just recorded is found, now and by a later process, exactly
  when the CSV keeps its texts; while every record keeps them, no recorded run is launched again
* `done_after_boot` — a boot of two queries is not found
-/

namespace Runner

open Infra

variable {N : Numerals} {df g : Frame N} {run r : Run} {boot : Boot N}

/-! ## What a record does to the runs before it -/

/--
From `df` to `g`, no knob's column of integers becomes one of floats, and what a later process
reads are the run's own texts.
-/
structure Stays (df g : Frame N) (r : Run) : Prop where
  kinds : ∀ kv ∈ r.others, df.kind kv.1 = .ints → g.kind kv.1 ≠ .reals
  found : Found g r

theorem text_cast_record {r₀ : Row N} (hr₀ : r₀ ∈ df.rows) {k : Name}
    (hkind : df.kind k = .ints → (record df run boot).kind k ≠ .reals) :
    ((r₀ k).cast ((record df run boot).kind k)).text = (r₀ k).text := by
  by_cases hreals : (record df run boot).kind k = .reals
  · cases hc : r₀ k with
    | int n =>
      have htyped := df.typed k r₀ hr₀
      rw [hc] at htyped
      cases hk : df.kind k with
      | ints => exact absurd hreals (hkind hk)
      | reals =>
        rw [show kindOf (df.rows.map (· k)) = .reals from hk] at htyped
        cases htyped
      | object =>
        obtain ⟨c, hc, hs⟩ := kindOf_eq_object_iff.mp hk
        rw [record, Frame.kind_concat,
          kindOf_eq_object_iff.mpr ⟨c, List.mem_append_left _ hc, hs⟩] at hreals
        cases hreals
    | real x => rw [Cell.cast_of_not_isInt rfl]
    | str t => rw [Cell.cast_str]
    | missing => rw [Cell.cast_missing]
  · rw [Cell.cast_of_ne_reals hreals]

theorem done_record_of_stays (hdone : done df r = true) (hcols : ∀ kv ∈ r.others, kv.1 ∈ df.columns)
    (h : Stays df (record df run boot) r) : done (record df run boot) r = true := by
  obtain ⟨r₀, hr₀, hkeys, hknobs⟩ := done_iff.mp hdone
  refine done_iff.mpr ⟨_, mem_rows_record.mpr (Or.inl ⟨r₀, hr₀, rfl⟩), ?_, ?_⟩
  · intro kv hkv
    exact eqValue_cast (hkeys kv hkv) _
  · intro kv hkv _
    show ((r₀ kv.1).cast _).text = kv.2.text
    rw [text_cast_record hr₀ (h.kinds kv hkv)]
    exact hknobs kv hkv (hcols kv hkv)

/-! ## Over a session -/

/-- Every recorded run is found in the frame, and will be in the one a later process reads. -/
def Resumes (df : Frame N) (holds : List (Run × Boot N)) : Prop :=
  ∀ rb ∈ holds, (∀ kv ∈ rb.1.others, kv.1 ∈ df.columns) ∧ done df rb.1 = true ∧
    done df.reread rb.1 = true

/-- A record keeps the new run's texts, and those of every run recorded before. -/
def Lasting (s : Session N) (ev : Session.Event N) : Prop :=
  match s.live, ev with
  | some p, .record run boot _ =>
    Kept (record p.df run boot) run boot ∧ Found (record p.df run boot) run ∧
      ∀ rb ∈ p.holds, Stays p.df (record p.df run boot) rb.1
  | _, _ => True

theorem Resumes.reread {holds : List (Run × Boot N)} (h : Resumes df holds) :
    Resumes df.reread holds := by
  intro rb hrb
  obtain ⟨hcols, hdone, hlater⟩ := h rb hrb
  refine ⟨hcols, hlater, ?_⟩
  rw [Frame.reread_reread]
  exact hlater

theorem Resumes.record {holds : List (Run × Boot N)} (h : Resumes df holds)
    (hkept : Kept (record df run boot) run boot) (hfound : Found (record df run boot) run)
    (hstays : ∀ rb ∈ holds, Stays df (record df run boot) rb.1) :
    Resumes (record df run boot) (holds ++ [(run, boot)]) := by
  intro rb hrb
  rcases List.mem_append.mp hrb with hrb | hrb
  · obtain ⟨hcols, hdone, -⟩ := h rb hrb
    have hdone' := done_record_of_stays hdone hcols (hstays rb hrb)
    exact ⟨fun kv hkv => columns_record_of_mem (hcols kv hkv) run boot, hdone',
      done_reread_of_found hdone' (hstays rb hrb).found⟩
  · obtain rfl := List.mem_singleton.mp hrb
    have hdone := done_record_of_kept hkept
    exact ⟨fun kv hkv => lookedAt_columns_record
      (Run.mem_lookedAt_of_cfg (Run.mem_cfg_of_others hkv)) df boot, hdone,
      done_reread_of_found hdone hfound⟩

/-- What holds of a session whose records are all lasting. -/
structure ResumeInv (s : Session N) : Prop where
  file : ∀ c, s.file = some c → Resumes c.read c.holds
  live : ∀ p, s.live = some p → Resumes p.df p.holds ∧ p.holds = s.recorded

theorem resumeInv_init (table : Option Table) : ResumeInv (Session.init table : Session N) := by
  refine ⟨fun c hc => ?_, nofun⟩
  cases table with
  | none => cases hc
  | some t =>
    obtain rfl := Option.some_inj.mp hc
    exact fun rb hrb => absurd hrb List.not_mem_nil

theorem step_resumeInv {allowed : Sweep → Prop} {s t : Session N} {ev : Session.Event N}
    (h : ResumeInv s) (hlast : Lasting s ev) (hstep : Session.Step allowed s ev t) :
    ResumeInv t := by
  cases hstep with
  | @start file sw _ =>
    refine ⟨h.file, fun p hp => ?_⟩
    obtain rfl := Option.some_inj.mp hp
    refine ⟨?_, rfl⟩
    cases file with
    | none => exact fun rb hrb => absurd hrb List.not_mem_nil
    | some c => exact h.file c rfl
  | @skip file p run _ _ =>
    refine ⟨h.file, fun p' hp' => ?_⟩
    obtain rfl := Option.some_inj.mp hp'
    exact h.live p rfl
  | @record file p run boot valid _ _ =>
    obtain ⟨hkept, hfound, hstays⟩ := hlast
    have hres := (h.live p rfl).1.record hkept hfound hstays
    refine ⟨fun c hc => ?_, fun p' hp' => ?_⟩
    · obtain rfl := Option.some_inj.mp hc
      exact hres.reread
    · obtain rfl := Option.some_inj.mp hp'
      exact ⟨hres, rfl⟩
  | raise _ _ => exact ⟨h.file, nofun⟩
  | exit _ => exact ⟨h.file, nofun⟩
  | kill => exact ⟨h.file, nofun⟩

theorem run_resumeInv {allowed : Sweep → Prop} {table : Option Table} {l : List (Session.Event N)}
    {s : Session N} (h : Infra.Run (Guarded (Session.Step allowed) Lasting) (.init table) l s) :
    ResumeInv s :=
  h.invariant (resumeInv_init table) fun _ _ _ hinv hstep => step_resumeInv hinv hstep.1 hstep.2

/-- A driver launches what `done` does not find. -/
theorem done_of_launched {allowed : Sweep → Prop} {s t : Session N} {ev : Session.Event N}
    (hstep : Session.Step allowed s ev t) {run : Run} (hev : ev.launched = some run) :
    ∃ p, s.live = some p ∧ done p.df run = false := by
  cases hstep with
  | record _ hdone =>
    obtain rfl := Option.some_inj.mp hev
    exact ⟨_, rfl, hdone⟩
  | raise _ hdone =>
    obtain rfl := Option.some_inj.mp hev
    exact ⟨_, rfl, hdone⟩
  | start _ => cases hev
  | skip _ _ => cases hev
  | exit _ => cases hev
  | kill => cases hev

/--
**A run that was just recorded is found, in memory and by a later process, exactly when a row has
its texts and the columns are typed so that they tell them. While every record keeps the texts of
all that was recorded, every recorded run is found, and none is launched again.**
-/
theorem resume_complete :
    (∀ {df : Frame N} {run : Run} {boot : Boot N}, done df run = false →
      ((done (record df run boot) run = true ∧ done (record df run boot).reread run = true) ↔
        Kept (record df run boot) run boot ∧ Found (record df run boot) run)) ∧
    ∀ {allowed : Sweep → Prop} {table : Option Table} {l : List (Session.Event N)} {s : Session N},
      Infra.Run (Guarded (Session.Step allowed) Lasting) (.init table) l s →
      (∀ rb ∈ s.recorded, (∀ c, s.file = some c → done c.read rb.1 = true) ∧
        ∀ p, s.live = some p → done p.df rb.1 = true) ∧
      ∀ ev t run, Session.Step allowed s ev t → ev.launched = some run →
        ∀ rb ∈ s.recorded, rb.1 ≠ run := by
  constructor
  · intro df run boot hnew
    rw [done_record_iff hnew]
    constructor
    · rintro ⟨hkept, hlater⟩
      exact ⟨hkept, found_of_done_reread hlater fun kv hkv => lookedAt_columns_record
        (Run.mem_lookedAt_of_cfg (Run.mem_cfg_of_others hkv)) df boot⟩
    · rintro ⟨hkept, hfound⟩
      exact ⟨hkept, done_reread_of_found (done_record_of_kept hkept) hfound⟩
  · intro allowed table l s hrun
    have hinv := run_resumeInv hrun
    have hlive : ∀ rb ∈ s.recorded, ∀ p, s.live = some p → done p.df rb.1 = true := by
      intro rb hrb p hp
      obtain ⟨hres, hholds⟩ := hinv.live p hp
      exact (hres rb (hholds ▸ hrb)).2.1
    refine ⟨fun rb hrb => ⟨fun c hc => ?_, hlive rb hrb⟩, ?_⟩
    · have hmem : rb ∈ c.holds := by
        have hrec : s.recorded = c.holds := by
          rw [Session.recorded, hc]
          rfl
        exact hrec ▸ hrb
      exact (hinv.file c hc rb hmem).2.1
    · rintro ev t run hstep hev rb hrb rfl
      obtain ⟨p, hp, hdone⟩ := done_of_launched hstep hev
      rw [hlive rb hrb p hp] at hdone
      cases hdone

/-! ## A thread sweep -/

/-- A sweep over 64 threads, each boot for `query`. -/
def threadSweep (query : Value) : Sweep :=
  { axis := "threads"
    values := [.int 64]
    base := [("query", query), ("sf", .str "100"), ("threads", .int 0), ("memlimit", .str ""),
      ("httplog", .str ""), ("cpuprobe", .str ""), ("profile", .str ""), ("workers", .int 4),
      ("conns", .int 128), ("tls", .int 0)]
    reps := 2
    inst := "r6in.8xlarge"
    keepGoing := true
    interleave := false
    nodup := by simp
    not_main := by simp [mainColumns] }

/-- A boot with a row for each of `queries`. -/
def bootOf (queries : List Int) (h : queries ≠ []) : Boot Numerals.whole :=
  { columns := ["query"]
    rows := queries.map fun q k => if k = "query" then .int q else .missing
    nonempty := by simpa using h
    query := fun own hown => by
      obtain ⟨q, -, rfl⟩ := List.mem_map.mp hown
      exact Or.inr ⟨q, rfl⟩ }

/-- The boot for query 9 is recorded, and so it is not launched again. -/
theorem resume_complete_oneQuery :
    ∃ (l : List (Session.Event Numerals.whole)) (s : Session Numerals.whole),
      Infra.Run (Guarded (Session.Step fun _ => True) Lasting) (.init none) l s ∧
      s.recorded.map Prod.fst = [(threadSweep (.int 9)).run (.int 64) 1] ∧
      ∀ ev t, Session.Step (fun _ => True) s ev t →
        ev.launched ≠ some ((threadSweep (.int 9)).run (.int 64) 1) := by
  let run := (threadSweep (.int 9)).run (.int 64) 1
  let boot := bootOf [9] (by simp)
  have hkept : Kept (record (Frame.empty _) run boot) run boot :=
    ⟨fun k => if k = "query" then .int 9 else .missing, List.mem_cons_self, by decide⟩
  have hfound : Found (record (Frame.empty _) run boot) run :=
    ⟨by decide, by decide⟩
  let p : Process Numerals.whole := Process.start (threadSweep (.int 9)) none
  have h₁ : Infra.Run (Guarded (Session.Step fun _ => True) Lasting) (.init none)
      [.start (threadSweep (.int 9))] ⟨none, some p⟩ :=
    Infra.Run.single ⟨by trivial, Session.Step.start trivial⟩
  have hlast : Lasting ⟨none, some p⟩ (.record run boot true) :=
    ⟨hkept, hfound, fun rb hrb => absurd hrb List.not_mem_nil⟩
  have h₂ := h₁.snoc ⟨hlast, Session.Step.record rfl rfl⟩
  refine ⟨_, _, h₂, rfl, fun ev t hstep hev => ?_⟩
  exact (resume_complete (N := Numerals.whole)).2 h₂ |>.2 ev t run hstep hev (run, boot)
    List.mem_cons_self rfl

/-- The boot for queries 9 and 13 is recorded as a row for each, and neither is found. -/
theorem done_after_boot :
    done (record (Frame.empty Numerals.whole) ((threadSweep (.str "9 13")).run (.int 64) 1)
      (bootOf [9, 13] (by simp))) ((threadSweep (.str "9 13")).run (.int 64) 1) = false := by
  rw [Bool.eq_false_iff, ne_eq, done_record_iff rfl]
  rintro ⟨own, hown, hknobs⟩
  have hquery := hknobs ("query", .str "9 13") (by decide)
  have hnine : ∀ k : Kind, ((Cell.int 9 : Cell Numerals.whole).cast k).text ≠ "9 13" := by
    intro k
    cases k <;> decide
  have hthirteen : ∀ k : Kind, ((Cell.int 13 : Cell Numerals.whole).cast k).text ≠ "9 13" := by
    intro k
    cases k <;> decide
  rcases List.mem_cons.mp hown with rfl | hown
  · exact hnine _ hquery
  · rcases List.mem_cons.mp hown with rfl | hown
    · exact hthirteen _ hquery
    · exact absurd hown List.not_mem_nil

end Runner
