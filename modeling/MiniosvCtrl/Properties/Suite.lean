import MiniosvCtrl.Infra.Lists
import MiniosvCtrl.DuckdbLinux.Instance

/-!
# What the verdict of the duckdb-linux instance means

`main` prints COMPLETE when as many queries ran as were asked for and as many results matched as
were checked. A result without rows is checked and never matches, though its line says
`match=unchecked`: one such query makes the boot INCOMPLETE.

* `loop_ok`, `loop_checked`, `loop_matched` — what the three counters count
* `says_iff` — when COMPLETE is printed
* `meant_iff` — when the verdict is what the queries' lines say
-/

open Infra

namespace Suite

variable {B : Builtins} (N : Numbers B) (b : Boot B)

/-! ## What the queries came to -/

def Outcome.result : Outcome B → Option (Result B)
  | raised _ => none
  | ran _ result _ => some result

/-- `result_matches`, where it is called. -/
def compared (a : Int × Outcome B) : Option (Option Bool) := do
  let result ← a.2.result
  let ans ← b.answers a.1
  return resultMatches N result ans

/-- The result was found to differ from the canned answer. -/
def Differs (a : Int × Outcome B) : Prop := compared N b a = some (some false)

/-- The query has a canned answer, and its result has no rows. -/
def Empty (a : Int × Outcome B) : Prop :=
  ∃ result, a.2.result = some result ∧ result.rows = [] ∧ (b.answers a.1).isSome

def Line.saysFail : Line B → Bool
  | fail .. => true
  | _ => false

/-- `match=no` -/
def Line.saysNo : Line B → Bool
  | ran _ _ _ m => m == .no
  | _ => false

/-- A line begins with `COMPLETE:`. -/
def Says : Prop := ∃ t ∈ (main N b).1, "COMPLETE:".toList <+: t

/-- COMPLETE is printed when every query ran and none was found to differ, and then only; the lines
tell the same. -/
structure Meant : Prop where
  queries : Says N b ↔ (∀ a ∈ b.attempts, a.2.result ≠ none) ∧ ∀ a ∈ b.attempts, ¬ Differs N b a
  lines : Says N b ↔ ∀ l ∈ printed N b, l.saysFail = false ∧ l.saysNo = false

theorem resultMatches_eq_none {result : Result B} {ans : String} :
    resultMatches N result ans = none ↔ result.rows = [] := by
  unfold resultMatches
  split
  case h_1 h => simp [h]
  case h_2 h =>
    dsimp only
    rw [h]
    split <;> simp

theorem empty_iff {a : Int × Outcome B} : Empty b a ↔ compared N b a = some none := by
  unfold Empty compared
  cases hr : a.2.result with
  | none => simp
  | some result =>
    cases ha : b.answers a.1 with
    | none => simp
    | some ans => simp [resultMatches_eq_none]

/-! ## The loop -/

/-- What one query says. -/
def said : Int × Outcome B → List (Line B)
  | (qn, .raised e) => [.fail qn e]
  | (qn, .ran ms result reports) =>
    .ran qn ms result.rows.length
      (match compared N b (qn, .ran ms result reports) with
        | some (some true) => .yes
        | some (some false) => .no
        | _ => .unchecked) ::
      if b.profiled then reports.map .report else []

/-- What one query does to the state. -/
structure Attempted (s : State B) (a : Int × Outcome B) (t : State B) : Prop where
  ok : t.ok = s.ok + if a.2.result.isSome then 1 else 0
  checked : t.checked = s.checked + if (compared N b a).isSome then 1 else 0
  matched : t.matched = s.matched + if compared N b a = some (some true) then 1 else 0
  said : t.said = s.said ++ Suite.said N b a

theorem attempted (s : State B) (a : Int × Outcome B) : Attempted N b s a (attempt N b s a) := by
  obtain ⟨qn, e | ⟨ms, result, reports⟩⟩ := a
  · exact ⟨rfl, rfl, rfl, rfl⟩
  · cases ha : b.answers qn with
    | none =>
      have hc : compared N b (qn, .ran ms result reports) = none := by
        simp [compared, Outcome.result, ha]
      constructor <;> simp [attempt, ha, hc, State.say, said, Outcome.result]
    | some ans =>
      have hc : compared N b (qn, .ran ms result reports) = some (resultMatches N result ans) := by
        simp [compared, Outcome.result, ha]
      rcases hm : resultMatches N result ans with _ | _ | _ <;>
        constructor <;> simp [attempt, ha, hc, hm, State.say, said, Outcome.result]

/-- What the queries so far did. -/
structure Looped (s : State B) (l : List (Int × Outcome B)) (t : State B) : Prop where
  ok : t.ok = s.ok + l.countP fun a => a.2.result.isSome
  checked : t.checked = s.checked + l.countP fun a => (compared N b a).isSome
  matched : t.matched = s.matched + l.countP fun a => compared N b a = some (some true)
  said : t.said = s.said ++ l.flatMap (Suite.said N b)

theorem looped (s : State B) (l : List (Int × Outcome B)) :
    Looped N b s l (l.foldl (attempt N b) s) := by
  induction l generalizing s with
  | nil => constructor <;> simp
  | cons a l ih =>
    have hstep := attempted N b s a
    have hrest := ih (attempt N b s a)
    rw [List.foldl_cons]
    constructor
    · rw [hrest.ok, hstep.ok, List.countP_cons]
      omega
    · rw [hrest.checked, hstep.checked, List.countP_cons]
      omega
    · rw [hrest.matched, hstep.matched, List.countP_cons]
      simp only [decide_eq_true_eq]
      omega
    · rw [hrest.said, hstep.said, List.flatMap_cons, List.append_assoc]

theorem loop_ok : (loop N b).ok = b.attempts.countP fun a => a.2.result.isSome := by
  rw [loop, (looped N b .start b.attempts).ok, State.start, Nat.zero_add]

theorem loop_checked : (loop N b).checked = b.attempts.countP fun a => (compared N b a).isSome := by
  rw [loop, (looped N b .start b.attempts).checked, State.start, Nat.zero_add]

theorem loop_matched :
    (loop N b).matched = b.attempts.countP fun a => compared N b a = some (some true) := by
  rw [loop, (looped N b .start b.attempts).matched, State.start, Nat.zero_add]

theorem loop_said : (loop N b).said = b.attempts.flatMap (said N b) := by
  rw [loop, (looped N b .start b.attempts).said, State.start, List.nil_append]

/-! ## The verdict -/

/-- Every query ran, and every result that was compared matched. -/
theorem complete_iff : complete N b = true ↔ (∀ a ∈ b.attempts, a.2.result ≠ none) ∧
    ∀ a ∈ b.attempts, ∀ m, compared N b a = some m → m = some true := by
  have himp : ∀ a ∈ b.attempts, decide (compared N b a = some (some true)) = true →
      (compared N b a).isSome = true := by
    intro a _ h
    simp [of_decide_eq_true h]
  rw [complete, Bool.and_eq_true, beq_iff_eq, beq_iff_eq, loop_ok, loop_checked, loop_matched,
    List.countP_eq_length, countP_eq_countP_iff himp]
  refine and_congr (forall₂_congr fun a _ => ?_) (forall₂_congr fun a _ => ?_)
  · cases a.2.result <;> simp
  · cases compared N b a <;> simp

/-- No other line begins as the verdict does. -/
theorem text_complete {l : Line B} : "COMPLETE:".toList <+: l.text N ↔
    ∃ sf ok total, l = .verdict true sf ok total := by
  cases l with
  | verdict complete sf ok total =>
    cases complete with
    | true =>
      have hcolon : "COMPLETE:".toList <+: "COMPLETE".toList ++ ": tpch sf=".toList := by decide
      refine ⟨fun _ => ⟨sf, ok, total, rfl⟩, fun _ => hcolon.trans ?_⟩
      rw [Line.text, Line.pieces, List.flatMap_cons, List.flatMap_cons, ← List.append_assoc]
      exact List.prefix_append _ _
    | false => simp [Line.text, Line.pieces, word]
  | report r => cases r <;> simp [Line.text, Line.pieces, Report.pieces]
  | _ => simp [Line.text, Line.pieces]

/-- A query does not print the verdict. -/
theorem not_verdict_of_mem_said {a : Int × Outcome B} {complete : Bool} {sf : String}
    {ok total : Nat} : Line.verdict complete sf ok total ∉ said N b a := by
  obtain ⟨qn, e | ⟨ms, result, reports⟩⟩ := a
  · simp [said]
  · simp only [said, List.mem_cons, reduceCtorEq, false_or]
    split <;> simp

theorem mem_printed {l : Line B} : l ∈ printed N b ↔
    (∃ a ∈ b.attempts, l ∈ said N b a) ∨ l = .blank ∨
      l = .summary (loop N b).ok b.attempts.length (loop N b).totalMs (loop N b).checked
        (loop N b).matched ∨
      l = .verdict (complete N b) b.sf (loop N b).ok b.attempts.length := by
  simp only [printed, loop_said, List.mem_append, List.mem_flatMap, List.mem_cons,
    List.not_mem_nil, or_false]

theorem says_iff : Says N b ↔ complete N b = true := by
  have hmem : Says N b ↔ ∃ l ∈ printed N b, "COMPLETE:".toList <+: l.text N := by
    simp [Says, main]
  rw [hmem]
  constructor
  · rintro ⟨l, hl, hprefix⟩
    obtain ⟨sf, ok, total, rfl⟩ := (text_complete N).mp hprefix
    rcases (mem_printed N b).mp hl with ⟨a, -, ha⟩ | h | h | h
    · exact absurd ha (not_verdict_of_mem_said N b)
    · cases h
    · cases h
    · injection h with h
      exact h.symm
  · intro h
    refine ⟨.verdict true b.sf (loop N b).ok b.attempts.length, ?_,
      (text_complete N).mpr ⟨_, _, _, rfl⟩⟩
    rw [mem_printed, h]
    exact .inr (.inr (.inr rfl))

/-! ## The lines -/

/-- The lines of one query tell whether it ran, and whether it was found to differ. -/
theorem said_iff (a : Int × Outcome B) :
    (∀ l ∈ said N b a, l.saysFail = false ∧ l.saysNo = false) ↔
      a.2.result ≠ none ∧ ¬ Differs N b a := by
  obtain ⟨qn, e | ⟨ms, result, reports⟩⟩ := a
  · simp [said, Outcome.result, Line.saysFail]
  · have hreports : ∀ l ∈ (if b.profiled then reports.map Line.report else [] : List (Line B)),
        l.saysFail = false ∧ l.saysNo = false := by
      intro l hl
      split at hl
      · obtain ⟨r, -, rfl⟩ := List.mem_map.mp hl
        exact ⟨rfl, rfl⟩
      · cases hl
    simp only [said, List.forall_mem_cons, and_iff_left hreports, Differs, Outcome.result]
    rcases compared N b (qn, .ran ms result reports) with _ | _ | _ | _ <;>
      simp [Line.saysFail, Line.saysNo]

theorem lines_iff : (∀ l ∈ printed N b, l.saysFail = false ∧ l.saysNo = false) ↔
    (∀ a ∈ b.attempts, a.2.result ≠ none) ∧ ∀ a ∈ b.attempts, ¬ Differs N b a := by
  rw [← forall₂_and]
  constructor
  · intro h a ha
    exact (said_iff N b a).mp fun l hl => h l ((mem_printed N b).mpr (.inl ⟨a, ha, hl⟩))
  · intro h l hl
    rcases (mem_printed N b).mp hl with ⟨a, ha, hl⟩ | rfl | rfl | rfl
    · exact (said_iff N b a).mpr (h a ha) l hl
    all_goals exact ⟨rfl, rfl⟩

/-! ## Results without rows -/

/-- **The verdict is what the queries' lines say, exactly when some query failed or was found to
differ, or no query with a canned answer returned a result without rows.** -/
theorem meant_iff : Meant N b ↔ (∃ a ∈ b.attempts, a.2.result = none) ∨
    (∃ a ∈ b.attempts, Differs N b a) ∨ ∀ a ∈ b.attempts, ¬ Empty b a := by
  have hmeant : Meant N b ↔ (complete N b = true ↔
      (∀ a ∈ b.attempts, a.2.result ≠ none) ∧ ∀ a ∈ b.attempts, ¬ Differs N b a) := by
    rw [← says_iff]
    exact ⟨fun h => h.queries, fun h => ⟨h, h.trans (lines_iff N b).symm⟩⟩
  rw [hmeant, complete_iff]
  constructor
  · intro h
    by_contra hnot
    push Not at hnot
    obtain ⟨hran, hsame, a, ha, hempty⟩ := hnot
    have hnone := (h.mpr ⟨hran, hsame⟩).2 a ha none ((empty_iff N b).mp hempty)
    cases hnone
  · intro h
    refine and_congr_right fun hran => ⟨fun hall a ha hdiffers => ?_, fun hsame a ha m hm => ?_⟩
    · cases hall a ha _ hdiffers
    · rcases h with ⟨a', ha', hnone⟩ | ⟨a', ha', hdiffers⟩ | hrows
      · exact absurd hnone (hran a' ha')
      · exact absurd hdiffers (hsame a' ha')
      · rcases m with _ | _ | _
        · exact absurd ((empty_iff N b).mpr hm) (hrows a ha)
        · exact absurd hm (hsame a ha)
        · rfl

/-- One query whose canned answer has a header only, and whose result has no rows. -/
def emptyBoot : Boot Builtins.exact :=
  { sf := "1"
    profiled := false
    answers := fun qn => if qn = 15 then some "s_suppkey|total_revenue" else none
    attempts := [(15, .ran (0 : Rat) ⟨[], fun _ h => absurd h List.not_mem_nil,
      fun _ h => absurd h List.not_mem_nil⟩ [])] }

/-- It ran and nothing was found to differ, and yet it is INCOMPLETE. -/
theorem meant_empty : ¬ Meant Numbers.exact emptyBoot := by
  intro h
  have hran : ∀ a ∈ emptyBoot.attempts, a.2.result ≠ none := by
    intro a ha
    rw [List.mem_singleton.mp ha]
    exact fun h => by cases h
  have hsame : ∀ a ∈ emptyBoot.attempts, ¬ Differs Numbers.exact emptyBoot a := by
    intro a ha
    rw [List.mem_singleton.mp ha]
    exact fun h => by cases h
  have hcomplete := (says_iff _ _).mp (h.queries.mpr ⟨hran, hsame⟩)
  cases hcomplete

end Suite
