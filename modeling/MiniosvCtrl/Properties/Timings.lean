import Mathlib.Data.List.Chain
import MiniosvCtrl.DuckdbLinux.Probe
import MiniosvCtrl.Infra.Lists

/-!
# Whose time a probe reports

A time goes to the marker last seen, and the statement before a step is timed too. So where a step
fails, the time of the next one's preparation is taken for its own.

* `StepRun`, `transcript` — steps, and what DuckDB printed of them
* `read_transcript` — what the loop makes of it
* `belongs_iff`
-/

open Infra Runner

namespace Probe

variable {B : Builtins}

/-! ## A run of the steps -/

/-- A step and how it went. -/
structure StepRun (B : Builtins) where
  step : Step
  pre : Option (Outcome B)
  own : Outcome B
  pre_iff : pre.isSome = step.runsPre

namespace StepRun

variable (r : StepRun B)

def outcomes : List (Outcome B) := r.pre.toList ++ [r.own]

def lines : List (List Char) :=
  r.pre.toList.flatMap Outcome.lines ++ (marker ++ r.step.name) :: r.own.lines

def succeeded : Bool := r.own.time.isSome

/-- The time of the statement before the step. -/
def preTime : Option (Time B) := r.pre.bind Outcome.time

end StepRun

/-- What DuckDB prints, with what it writes of the statements that fail. -/
def transcript (runs : List (StepRun B)) (errors : List (List Char)) : List (List Char) :=
  session (script (runs.map StepRun.step)) (runs.flatMap StepRun.outcomes) ++ [] :: errors

theorem session_steps (runs : List (StepRun B)) :
    session ((runs.map StepRun.step).flatMap Step.commands) (runs.flatMap StepRun.outcomes) =
      runs.flatMap StepRun.lines := by
  induction runs with
  | nil => rfl
  | cons r runs ih =>
    rw [List.map_cons, List.flatMap_cons, List.flatMap_cons, List.flatMap_cons, ← ih, Step.commands,
      ← r.pre_iff, StepRun.outcomes, StepRun.lines]
    cases r.pre <;> simp [session]

/-! ## The lines -/

/-- A time is taken. -/
def State.take (s : State B) (t : Time B) : State B :=
  if s.pending = [] then s
  else
    { pending := []
      seen := insert s.pending s.seen
      said := s.said ++ [.timed s.pending t.seconds] }

def State.takes (s : State B) (t : Option (Time B)) : State B := t.elim s s.take

theorem readLine_other (s : State B) {l : List Char} (h : Other l) : readLine s l = some s := by
  rw [readLine, if_neg (by rw [h.1]; exact Bool.false_ne_true),
    if_neg fun h' => Bool.false_ne_true (h.2.symm.trans h'.2)]

theorem readLine_time (s : State B) (t : Time B) : readLine s t.line = some (s.take t) := by
  rw [readLine, if_neg (by rw [t.not_marker]; exact Bool.false_ne_true), State.take]
  by_cases hp : s.pending = []
  · rw [if_neg fun h => h.1 hp, if_pos hp]
  · rw [if_pos ⟨hp, t.is_time⟩, if_neg hp]
    obtain ⟨f, hf, hfigures⟩ := Option.map_eq_some_iff.mp t.reads
    rw [hf]
    show (figures B f.2).map _ = _
    rw [hfigures]
    rfl

theorem stripped_marker (step : Step) : stripped (marker ++ step.name) = marker ++ step.name := by
  have hfront : (marker ++ step.name).dropWhile isSpace = marker ++ step.name := by
    show ('P' :: _).dropWhile isSpace = _
    exact List.dropWhile_cons_of_neg (by decide)
  rw [stripped, hfront, List.rdropWhile_eq_self_iff]
  intro hne
  rw [List.getLast_append_of_ne_nil hne step.name_ne_nil,
    step.name_solid _ (List.getLast_mem step.name_ne_nil)]
  exact Bool.false_ne_true

theorem afterWord_marker (step : Step) : afterWord (marker ++ step.name) = step.name := by
  have hword : ∀ c ∈ "PROBE_BEGIN".toList, (!isSpace c) = true :=
    List.all_eq_true.mp (by decide)
  have hmarker : marker ++ step.name = "PROBE_BEGIN".toList ++ (' ' :: step.name) := rfl
  rw [afterWord, hmarker, List.dropWhile_append_of_pos hword,
    List.dropWhile_cons_of_neg (by decide), List.dropWhile_cons_of_pos (by decide)]
  cases hname : step.name with
  | nil => exact absurd hname step.name_ne_nil
  | cons c name =>
    have hc := step.name_solid c (hname ▸ List.mem_cons_self)
    exact List.dropWhile_cons_of_neg (by rw [hc]; exact Bool.false_ne_true)

theorem readLine_marker (s : State B) (step : Step) :
    readLine s (marker ++ step.name) = some { s with pending := step.name } := by
  have hmarker : isMarker (marker ++ step.name) = true :=
    List.isPrefixOf_iff_prefix.mpr (List.prefix_append marker step.name)
  rw [readLine, stripped_marker, if_pos hmarker, afterWord_marker]

theorem read_others (s : State B) {ls : List (List Char)} (h : ∀ l ∈ ls, Other l) :
    ls.foldlM readLine s = some s := by
  induction ls with
  | nil => rfl
  | cons l ls ih =>
    obtain ⟨hl, hls⟩ := List.forall_mem_cons.mp h
    rw [List.foldlM_cons, readLine_other s hl, Option.bind_eq_bind, Option.bind_some, ih hls]

/-- **An outcome's time is taken if there is one.** -/
theorem read_outcome (s : State B) (o : Outcome B) :
    o.lines.foldlM readLine s = some (s.takes o.time) := by
  rw [Outcome.lines, List.foldlM_append, List.foldlM_append, read_others s o.before_other,
    Option.bind_eq_bind, Option.bind_some]
  cases o.time with
  | none => exact read_others s o.after_other
  | some t =>
    show ((readLine s t.line).bind fun s => some s).bind _ = _
    rw [readLine_time, Option.bind_some, Option.bind_some]
    exact read_others _ o.after_other

/-- What the loop makes of a step. -/
def State.step (s : State B) (r : StepRun B) : State B :=
  State.takes { s.takes r.preTime with pending := r.step.name } r.own.time

theorem read_step (s : State B) (r : StepRun B) :
    r.lines.foldlM readLine s = some (s.step r) := by
  have hpre : (r.pre.toList.flatMap Outcome.lines).foldlM readLine s =
      some (s.takes r.preTime) := by
    rw [StepRun.preTime]
    cases r.pre with
    | none => rfl
    | some o =>
      rw [Option.toList_some, List.flatMap_singleton]
      exact read_outcome s o
  rw [StepRun.lines, List.foldlM_append, hpre, Option.bind_eq_bind, Option.bind_some,
    List.foldlM_cons, readLine_marker, Option.bind_eq_bind, Option.bind_some, read_outcome]
  rfl

/-- **What the loop makes of a transcript.** -/
theorem read_transcript (runs : List (StepRun B)) {errors : List (List Char)}
    (herrors : ∀ l ∈ errors, Other l) :
    (transcript runs errors).foldlM readLine State.start =
      some (runs.foldl State.step State.start) := by
  have hsteps : ∀ s : State B, (runs.flatMap StepRun.lines).foldlM readLine s =
      some (runs.foldl State.step s) := by
    induction runs with
    | nil => exact fun _ => rfl
    | cons r runs ih =>
      intro s
      rw [List.flatMap_cons, List.foldlM_append, read_step, Option.bind_eq_bind, Option.bind_some,
        ih, List.foldl_cons]
  have hend : ∀ l ∈ [] :: errors, Other l := by
    rintro l (_ | ⟨_, hl⟩)
    · exact ⟨rfl, rfl⟩
    · exact herrors l hl
  have hsession : session (script (runs.map StepRun.step)) (runs.flatMap StepRun.outcomes) =
      runs.flatMap StepRun.lines := session_steps runs
  rw [transcript, hsession, List.foldlM_append, hsteps, Option.bind_eq_bind, Option.bind_some,
    read_others _ hend]

/-! ## Whose times they are -/

/-- A name and the seconds that are reported for it. -/
abbrev Entry (B : Builtins) := List Char × (B.Float × B.Float × B.Float)

/-- The time of the statement before a step goes to the step that is still waiting for one. -/
def StepRun.borrowed (waiting : List Char) (r : StepRun B) : List (Entry B) :=
  if waiting = [] then [] else (r.preTime.map fun t => (waiting, t.seconds)).toList

def StepRun.entry (r : StepRun B) : List (Entry B) :=
  (r.own.time.map fun t => (r.step.name, t.seconds)).toList

/-- Who waits behind a step. -/
def StepRun.waiting (r : StepRun B) : List Char := if r.succeeded then [] else r.step.name

/-- What is reported. -/
def entries : List Char → List (StepRun B) → List (Entry B)
  | _, [] => []
  | waiting, r :: runs => r.borrowed waiting ++ r.entry ++ entries r.waiting runs

/-- What should be. -/
def ownEntries (runs : List (StepRun B)) : List (Entry B) := runs.flatMap StepRun.entry

def Entry.line (e : Entry B) : Line B := .timed e.1 e.2

/-- The state once these are reported. -/
def State.report (s : State B) (waiting : List Char) (es : List (Entry B)) : State B :=
  { pending := waiting
    seen := (es.map Prod.fst).toFinset ∪ s.seen
    said := s.said ++ es.map Entry.line }

theorem report_report (s : State B) (waiting waiting' : List Char) (es es' : List (Entry B)) :
    (s.report waiting es).report waiting' es' = s.report waiting' (es ++ es') := by
  simp only [State.report, List.map_append, List.toFinset_append, List.append_assoc,
    State.mk.injEq, true_and, and_true]
  rw [← Finset.union_assoc, Finset.union_comm (es'.map Prod.fst).toFinset]

theorem step_eq (s : State B) (r : StepRun B) :
    s.step r = s.report r.waiting (r.borrowed s.pending ++ r.entry) := by
  have hpre : ({ s.takes r.preTime with pending := r.step.name } : State B) =
      s.report r.step.name (r.borrowed s.pending) := by
    rw [StepRun.borrowed]
    cases r.preTime with
    | none => by_cases hp : s.pending = [] <;> simp [State.takes, State.report, hp]
    | some t =>
      by_cases hp : s.pending = []
      · simp [State.takes, State.take, State.report, hp]
      · simp [State.takes, State.take, State.report, hp, Entry.line]
  rw [State.step, hpre, ← report_report s r.step.name, StepRun.waiting, StepRun.succeeded,
    StepRun.entry]
  cases r.own.time with
  | none => simp [State.takes, State.report]
  | some t =>
    simp [State.takes, State.take, State.report, r.step.name_ne_nil, Entry.line]

theorem exists_fold (runs : List (StepRun B)) (s : State B) : ∃ waiting,
    runs.foldl State.step s = s.report waiting (entries s.pending runs) := by
  induction runs generalizing s with
  | nil => exact ⟨s.pending, by simp [State.report, entries]⟩
  | cons r runs ih =>
    obtain ⟨waiting, hfold⟩ := ih (s.step r)
    refine ⟨waiting, ?_⟩
    have hpending : (s.step r).pending = r.waiting := by rw [step_eq]; rfl
    rw [List.foldl_cons, hfold, hpending, step_eq, report_report, entries]

/-- **What is printed of a transcript.** -/
theorem cpuProbe_transcript (runs : List (StepRun B)) {errors : List (List Char)}
    (herrors : ∀ l ∈ errors, Other l) :
    cpuProbe (runs.map StepRun.step) (transcript runs errors) =
      let seen := ((entries [] runs).map Prod.fst).toFinset
      let complete := seen.card == runs.length
      some ((entries [] runs).map Entry.line ++
        ((runs.filter fun r => r.step.name ∉ seen).map fun r => .failed r.step.name) ++
        [.verdict complete seen.card runs.length], if complete then 0 else 1) := by
  obtain ⟨waiting, hfold⟩ := exists_fold runs State.start
  rw [cpuProbe, read_transcript runs herrors, hfold]
  simp [State.report, State.start, List.filter_map, Function.comp_def]

/-! ## When they are their own -/

/-- No step that fails is followed by one whose preparation is timed. -/
def Alone (runs : List (StepRun B)) : Prop :=
  runs.IsChain fun r r' => r.succeeded = false → r'.preTime = none

theorem borrowed_eq_nil_iff {waiting : List Char} {r : StepRun B} :
    r.borrowed waiting = [] ↔ (waiting ≠ [] → r.preTime = none) := by
  rw [StepRun.borrowed]
  by_cases hw : waiting = []
  · rw [if_pos hw]
    exact iff_of_true rfl fun h => absurd hw h
  · rw [if_neg hw]
    cases r.preTime <;> simp [hw]

theorem waiting_ne_nil_iff {r : StepRun B} : r.waiting ≠ [] ↔ r.succeeded = false := by
  rw [StepRun.waiting]
  cases r.succeeded with
  | true => simp
  | false => simp [r.step.name_ne_nil]

theorem length_ownEntries_le (waiting : List Char) (runs : List (StepRun B)) :
    (ownEntries runs).length ≤ (entries waiting runs).length := by
  induction runs generalizing waiting with
  | nil => exact Nat.le_refl _
  | cons r runs ih =>
    have htail := ih r.waiting
    rw [ownEntries] at htail
    rw [ownEntries, List.flatMap_cons, entries, List.length_append, List.length_append,
      List.length_append]
    omega

/-- **The times are the steps' own if nobody borrows one.** -/
theorem entries_eq_iff (waiting : List Char) (runs : List (StepRun B)) :
    entries waiting runs = ownEntries runs ↔
      (waiting ≠ [] → ∀ r ∈ runs.head?, r.preTime = none) ∧ Alone runs := by
  induction runs generalizing waiting with
  | nil => exact iff_of_true rfl ⟨fun _ _ h => absurd h (Option.not_mem_none _), List.isChain_nil⟩
  | cons r runs ih =>
    have hown : ownEntries (r :: runs) = r.entry ++ ownEntries runs := List.flatMap_cons
    have halone : Alone (r :: runs) ↔
        (r.waiting ≠ [] → ∀ r' ∈ runs.head?, r'.preTime = none) ∧ Alone runs := by
      rw [Alone, List.isChain_cons, waiting_ne_nil_iff]
      exact and_congr_left fun _ => ⟨fun h hf r' hr' => h r' hr' hf, fun h r' hr' hf => h hf r' hr'⟩
    have hhead : (waiting ≠ [] → ∀ r' ∈ (r :: runs).head?, r'.preTime = none) ↔
        r.borrowed waiting = [] := by
      rw [borrowed_eq_nil_iff]
      simp
    rw [hhead, halone, ← ih, entries, hown]
    constructor
    · intro h
      have hlength := congrArg List.length h
      have hle := length_ownEntries_le r.waiting runs
      rw [List.length_append, List.length_append, List.length_append] at hlength
      have hnil : r.borrowed waiting = [] := List.eq_nil_of_length_eq_zero (by omega)
      rw [hnil, List.nil_append] at h
      exact ⟨hnil, List.append_cancel_left h⟩
    · rintro ⟨hnil, h⟩
      rw [hnil, h, List.nil_append]

def Line.timed? : Line B → Option (Entry B)
  | timed name seconds => some (name, seconds)
  | failed _ => none
  | verdict _ _ _ => none

def Line.failed? : Line B → Option (List Char)
  | timed _ _ => none
  | failed name => some name
  | verdict _ _ _ => none

def Line.complete : Line B → Bool
  | timed _ _ => false
  | failed _ => false
  | verdict complete _ _ => complete

/-- Steps that ran, and what DuckDB wrote to its standard error. -/
structure Printed (B : Builtins) where
  runs : List (StepRun B)
  errors : List (List Char)
  errors_other : ∀ l ∈ errors, Other l

namespace Printed

variable (t : Printed B)

def steps : List Step := t.runs.map StepRun.step

def lines : List (List Char) := transcript t.runs t.errors

/-- A line for each step, with its own time or that it failed, and the verdict. -/
structure Belongs (out : Option (List (Line B) × Nat)) : Prop where
  exists_lines : ∃ said code, out = some (said, code) ∧
    said.filterMap Line.timed? = ownEntries t.runs ∧
    said.filterMap Line.failed? =
      (t.runs.filter fun r => !r.succeeded).map (fun r => r.step.name) ∧
    (said.any Line.complete = true ↔ ∀ r ∈ t.runs, r.succeeded = true)

/-- Nobody borrows a time, steps of one name go alike, and where all succeed their names differ. -/
structure Separate : Prop where
  alone : Alone t.runs
  alike : ∀ r ∈ t.runs, ∀ r' ∈ t.runs, r.step.name = r'.step.name → r.succeeded = r'.succeeded
  nodup : (∀ r ∈ t.runs, r.succeeded = true) → (t.runs.map fun r => r.step.name).Nodup

end Printed

section

variable (es : List (Entry B)) (names : List (List Char)) (complete : Bool) (ok total : Nat)

theorem filterMap_timed :
    (es.map Entry.line ++ names.map Line.failed ++
      [Line.verdict complete ok total]).filterMap Line.timed? = es := by
  have hfailed : (names.map Line.failed).filterMap (Line.timed? (B := B)) = [] := by
    simp [List.filterMap_eq_nil_iff, Line.timed?]
  have htimed : (es.map Entry.line).filterMap Line.timed? = es := by
    rw [List.filterMap_map]
    exact List.filterMap_some
  rw [List.filterMap_append, List.filterMap_append, hfailed, htimed]
  simp [Line.timed?]

theorem filterMap_failed :
    (es.map Entry.line ++ names.map Line.failed ++
      [Line.verdict complete ok total]).filterMap Line.failed? = names := by
  have htimed : (es.map Entry.line).filterMap Line.failed? = [] := by
    simp [List.filterMap_eq_nil_iff, Line.failed?, Entry.line]
  have hfailed : (names.map Line.failed).filterMap (Line.failed? (B := B)) = names := by
    rw [List.filterMap_map]
    exact List.filterMap_some
  rw [List.filterMap_append, List.filterMap_append, hfailed, htimed]
  simp [Line.failed?]

theorem any_complete :
    (es.map Entry.line ++ names.map Line.failed ++
      [Line.verdict complete ok total]).any Line.complete = complete := by
  have htimed : (es.map Entry.line).any Line.complete = false := by
    simp [Line.complete, Entry.line]
  have hfailed : (names.map Line.failed).any (Line.complete (B := B)) = false := by
    simp [Line.complete]
  rw [List.any_append, List.any_append, htimed, hfailed]
  simp [Line.complete]

end

/-! ## The names that have a time -/

theorem names_ownEntries (runs : List (StepRun B)) : (ownEntries runs).map Prod.fst =
    (runs.filter StepRun.succeeded).map fun r => r.step.name := by
  induction runs with
  | nil => rfl
  | cons r runs ih =>
    rw [ownEntries, List.flatMap_cons, List.map_append, List.filter_cons, StepRun.succeeded,
      StepRun.entry, ← ownEntries, ih]
    cases r.own.time <;> rfl

section

variable {runs : List (StepRun B)}

/-- The names of the steps that succeed. -/
def timedNames (runs : List (StepRun B)) : Finset (List Char) :=
  ((ownEntries runs).map Prod.fst).toFinset

theorem mem_timedNames {name : List Char} :
    name ∈ timedNames runs ↔ ∃ r ∈ runs, r.succeeded = true ∧ r.step.name = name := by
  rw [timedNames, List.mem_toFinset, names_ownEntries]
  simp [and_assoc]

theorem failed_eq_iff :
    (runs.filter fun r => r.step.name ∉ timedNames runs).map (fun r => r.step.name) =
      (runs.filter fun r => !r.succeeded).map (fun r => r.step.name) ↔
    ∀ r ∈ runs, ∀ r' ∈ runs, r.step.name = r'.step.name → r.succeeded = r'.succeeded := by
  have himp : ∀ r ∈ runs,
      decide (r.step.name ∉ timedNames runs) = true → (!r.succeeded) = true := by
    intro r hr hnot
    by_contra hs
    exact of_decide_eq_true hnot (mem_timedNames.mpr ⟨r, hr, by simpa using hs, rfl⟩)
  constructor
  · intro heq r hr r' hr' hname
    have hlength := congrArg List.length heq
    rw [List.length_map, List.length_map, ← List.countP_eq_length_filter,
      ← List.countP_eq_length_filter] at hlength
    have hall := (countP_eq_countP_iff himp).mp hlength
    have hsame : ∀ r ∈ runs, r.succeeded = decide (r.step.name ∈ timedNames runs) := by
      intro r hr
      have h := hall r hr
      by_cases hmem : r.step.name ∈ timedNames runs <;> simp_all
    rw [hsame r hr, hsame r' hr', hname]
  · intro halike
    refine congrArg (List.map _) (List.filter_congr fun r hr => ?_)
    rw [Bool.eq_iff_iff]
    refine ⟨himp r hr, fun hs => decide_eq_true fun hmem => ?_⟩
    obtain ⟨r', hr', hs', hname⟩ := mem_timedNames.mp hmem
    rw [halike r hr r' hr' hname.symm, hs'] at hs
    cases hs

theorem card_timedNames_iff : (timedNames runs).card = runs.length ↔
    (∀ r ∈ runs, r.succeeded = true) ∧ (runs.map fun r => r.step.name).Nodup := by
  have hcard : (timedNames runs).card ≤ (runs.filter StepRun.succeeded).length := by
    have h := List.toFinset_card_le ((ownEntries runs).map Prod.fst)
    rwa [← timedNames, names_ownEntries, List.length_map] at h
  have hfilter : (runs.filter StepRun.succeeded).length ≤ runs.length := List.length_filter_le _ _
  have hnames : (∀ r ∈ runs, r.succeeded = true) →
      timedNames runs = (runs.map fun r => r.step.name).toFinset := by
    intro hall
    rw [timedNames, names_ownEntries, List.filter_eq_self.mpr hall]
  constructor
  · intro h
    have hall : ∀ r ∈ runs, r.succeeded = true :=
      List.length_filter_eq_length_iff.mp (by omega)
    refine ⟨hall, ?_⟩
    rw [hnames hall] at h
    rw [List.card_toFinset] at h
    have hdedup := (List.dedup_sublist (runs.map fun r => r.step.name)).eq_of_length
      (by rw [h, List.length_map])
    exact hdedup ▸ List.nodup_dedup _
  · rintro ⟨hall, hnodup⟩
    rw [hnames hall, List.toFinset_card_of_nodup hnodup, List.length_map]

end

section

variable (t : Printed B)

theorem entries_own_iff : entries [] t.runs = ownEntries t.runs ↔ Alone t.runs := by
  rw [entries_eq_iff]
  exact ⟨And.right, fun h => ⟨fun hne => absurd rfl hne, h⟩⟩

theorem complete_iff : ((timedNames t.runs).card == t.runs.length) = true ↔
    (∀ r ∈ t.runs, r.succeeded = true) ∧ (t.runs.map fun r => r.step.name).Nodup :=
  beq_iff_eq.trans card_timedNames_iff

theorem map_failed (seen : Finset (List Char)) :
    ((t.runs.filter fun r => r.step.name ∉ seen).map fun r => Line.failed (B := B) r.step.name) =
      ((t.runs.filter fun r => r.step.name ∉ seen).map fun r => r.step.name).map Line.failed :=
  (List.map_map ..).symm

theorem separate_of_belongs (h : t.Belongs (cpuProbe t.steps t.lines)) : t.Separate := by
  rw [Printed.steps, Printed.lines, cpuProbe_transcript t.runs t.errors_other] at h
  simp only [map_failed] at h
  obtain ⟨said, code, hsaid, htimed, hnames, hverdict⟩ := h
  obtain ⟨rfl, -⟩ := Prod.mk.inj (Option.some_inj.mp hsaid)
  rw [filterMap_timed] at htimed
  rw [filterMap_failed, htimed] at hnames
  rw [any_complete, htimed] at hverdict
  exact
    { alone := (entries_own_iff t).mp htimed
      alike := failed_eq_iff.mp hnames
      nodup := fun hall => ((complete_iff t).mp (hverdict.mpr hall)).2 }

theorem belongs_of_separate (h : t.Separate) : t.Belongs (cpuProbe t.steps t.lines) := by
  have hown := (entries_own_iff t).mpr h.alone
  rw [Printed.steps, Printed.lines, cpuProbe_transcript t.runs t.errors_other]
  simp only [map_failed]
  refine ⟨_, _, rfl, ?_, ?_, ?_⟩
  · rw [filterMap_timed]
    exact hown
  · rw [filterMap_failed, hown]
    exact failed_eq_iff.mpr h.alike
  · rw [any_complete, hown]
    exact (complete_iff t).trans ⟨And.left, fun hall => ⟨hall, h.nodup hall⟩⟩

end

/-- **The times belong to their steps in these transcripts only.** -/
theorem belongs_iff (t : Printed B) : t.Belongs (cpuProbe t.steps t.lines) ↔ t.Separate :=
  ⟨separate_of_belongs t, belongs_of_separate t⟩

/-! ## A time that is borrowed -/

theorem solid_of_all {l : List Char} (h : l.all (fun c => !isSpace c) = true) :
    ∀ c ∈ l, isSpace c = false :=
  fun c hc => Bool.not_eq_true' _ |>.mp (List.all_eq_true.mp h c hc)

/-- A step that fails. -/
def failing : StepRun Builtins.exact where
  step :=
    { name := "hash_agg".toList, pre := none, sql := "SELECT count(*) FROM range(250000000)",
      name_ne_nil := by decide, name_solid := solid_of_all (by decide) }
  pre := none
  own :=
    { before := [], time := none, after := [], before_other := fun _ h => absurd h List.not_mem_nil,
      after_other := fun _ h => absurd h List.not_mem_nil }
  pre_iff := rfl

/-- A time that the timer prints. -/
def zeroTime : Time Builtins.exact where
  line := "Run Time (s): real 0.000 user 0.000000 sys 0.000000".toList
  seconds := ((0 : Rat), (0 : Rat), (0 : Rat))
  not_marker := by
    rw [String.toList_ofList]
    decide
  is_time := by
    rw [String.toList_ofList]
    decide
  reads := by
    rw [String.toList_ofList]
    decide

def timedOutcome : Outcome Builtins.exact where
  before := []
  time := some zeroTime
  after := []
  before_other := fun _ h => absurd h List.not_mem_nil
  after_other := fun _ h => absurd h List.not_mem_nil

/-- The next one, prepared by a statement. -/
def prepared : StepRun Builtins.exact where
  step :=
    { name := "par_t1".toList, pre := some "SET threads=1", sql := "SELECT count(*) FROM lineitem",
      name_ne_nil := by decide, name_solid := solid_of_all (by decide) }
  pre := some timedOutcome
  own := timedOutcome
  pre_iff := by decide

def borrowing : Printed Builtins.exact where
  runs := [failing, prepared]
  errors := []
  errors_other := fun _ h => absurd h List.not_mem_nil

theorem not_belongs_borrowing : ¬ borrowing.Belongs (cpuProbe borrowing.steps borrowing.lines) := by
  intro h
  have halone : Alone [failing, prepared] := (separate_of_belongs borrowing h).alone
  cases (List.isChain_cons_cons.mp halone).1 rfl

end Probe
