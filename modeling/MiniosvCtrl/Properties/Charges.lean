import Mathlib.Algebra.Order.BigOperators.Group.Finset
import Mathlib.Tactic.Linarith
import Mathlib.Tactic.NormNum
import MiniosvCtrl.Bench.Cost
import MiniosvCtrl.Infra.Python

/-!
# What boots are charged

An empty cell counts as a time of zero, so that a row without `query_ms` is charged nothing, and a
boot is what a file name and a log name tell apart.

* `charged_eq` — the charge, boot by boot as the keys tell them
* `billed_iff`
-/

open Infra

namespace Cost

variable {float : Floats} {β : Type}

/-- A cell is empty, or holds a time. -/
def IsTime (float : Floats) (t : String) : Prop := t = "" ∨ ∃ v, float t = some v ∧ 0 ≤ v

/-- A row, and the boot that it is of. -/
structure Recorded (float : Floats) (β : Type) where
  row : Row
  boot : β
  query_time : IsTime float (cell row "query_ms")
  elapsed_time : IsTime float (cell row "elapsed_s")

structure Source (float : Floats) (β : Type) where
  name : String
  isFile : Bool
  rows : List (Recorded float β)

def Source.file (f : Source float β) : File :=
  { name := f.name, isFile := f.isFile, rows := f.rows.map Recorded.row }

/-- A row in a file of this name. -/
abbrev Entry (float : Floats) (β : Type) := String × Recorded float β

/-- The rows of all files. -/
def entries (files : List (Source float β)) : List (Entry float β) :=
  (files.filter Source.isFile).flatMap fun f => f.rows.map (Prod.mk f.name)

namespace Entry

variable (x : Entry float β)

def key : String × String := Cost.key x.1 x.2.row

def boot : β := x.2.boot

/-- The seconds that are charged. -/
def chargedS : Rat := rowMs float x.2.row / 1000

/-- `elapsed_s`, if it is there. -/
def elapsedS : Rat := (number float (cell x.2.row "elapsed_s")).getD 0

/-- The seconds that were recorded: `query_ms` if it is there, and `elapsed_s` if not. -/
def recordedS : Rat :=
  if cell x.2.row "query_ms" ≠ "" then (float (cell x.2.row "query_ms")).getD 0 / 1000
  else x.elapsedS

end Entry

/-! ## The charge -/

theorem gather_eq (files : List (Source float β)) : gather float (files.map Source.file) =
    (entries files).foldl (fun runs x => bill float x.1 runs x.2.row) [] := by
  rw [gather, entries, List.foldl_flatMap, List.filter_map, List.foldl_map]
  refine List.foldl_ext _ _ _ fun runs f _ => ?_
  rw [List.foldl_map, Source.file, List.foldl_map]

/-- **The rows are gathered by key.** -/
theorem gathered (l : List (Entry float β)) : Gathered Entry.key Entry.chargedS
    (fun g : Run => g.ms / 1000) l (l.foldl (fun runs x => bill float x.1 runs x.2.row) []) := by
  induction l using List.reverseRecOn with
  | nil => exact gathered_nil
  | append_singleton l x ih =>
    rw [List.foldl_append, List.foldl_cons, List.foldl_nil]
    refine ih.upsert (y := x) (zero_div 1000) fun g => ?_
    exact add_div _ _ _

theorem sum_byInst (d : List (String × Instance)) (runs : List ((String × String) × Run)) :
    ((runs.foldl (fun d g => upsert g.2.inst Instance.start (fun b => b.add g.2) d) d).map
      fun e => e.2.s).sum = (d.map fun e => e.2.s).sum + (runs.map fun g => g.2.charge).sum := by
  induction runs generalizing d with
  | nil => simp
  | cons g runs ih =>
    rw [List.foldl_cons, ih, sum_upsert (m := Instance.s) (c := g.2.charge) rfl fun _ => rfl,
      List.map_cons, List.sum_cons, add_assoc]

/-- What a boot is charged that ran for so long. -/
def boots (seconds : Rat) : Rat := max 60 (90 + seconds)

/-- **What is charged**, boot by boot as the keys tell them. -/
theorem charged_eq (files : List (Source float β)) : charged float (files.map Source.file) =
    ∑ k ∈ ((entries files).map Entry.key).toFinset,
      boots (weightOf Entry.key Entry.chargedS (entries files) k) := by
  have hcharge : ∀ g : Run, g.charge = boots (g.ms / 1000) := by
    intro g
    rw [Run.charge, boots, minBillS, bootS, add_comm]
  rw [charged, byInst, sum_byInst, List.map_nil, List.sum_nil, zero_add, gather_eq]
  simp only [hcharge]
  exact sum_gathered (gathered (entries files)) boots

/-! ## What was recorded -/

section

variable {x : Entry float β}

theorem number_nonneg {t : String} (h : IsTime float t) : ∃ v, number float t = some v ∧ 0 ≤ v := by
  rcases h with rfl | ⟨v, hv, hnonneg⟩
  · exact ⟨0, if_pos rfl, le_refl 0⟩
  · by_cases ht : t = ""
    · exact ⟨0, if_pos ht, le_refl 0⟩
    · exact ⟨v, (if_neg ht).trans hv, hnonneg⟩

theorem elapsedS_nonneg (x : Entry float β) : 0 ≤ x.elapsedS := by
  obtain ⟨v, hv, hnonneg⟩ := number_nonneg x.2.elapsed_time
  rw [Entry.elapsedS, hv]
  exact hnonneg

/-- A row is charged its `query_ms`, and nothing without. -/
theorem chargedS_eq (x : Entry float β) :
    x.chargedS = if cell x.2.row "query_ms" ≠ "" then x.recordedS else 0 := by
  obtain ⟨v, hv, -⟩ := number_nonneg x.2.query_time
  have hms : rowMs float x.2.row = v := by rw [rowMs, hv]
  by_cases hcell : cell x.2.row "query_ms" = ""
  · rw [number, if_pos hcell] at hv
    rw [Entry.chargedS, hms, ← Option.some_inj.mp hv, zero_div, if_neg (not_not_intro hcell)]
  · rw [number, if_neg hcell] at hv
    rw [Entry.chargedS, hms, if_pos hcell, Entry.recordedS, if_pos hcell, hv, Option.getD_some]

theorem chargedS_nonneg (x : Entry float β) : 0 ≤ x.chargedS := by
  obtain ⟨v, hv, hnonneg⟩ := number_nonneg x.2.query_time
  rw [Entry.chargedS, rowMs, hv]
  exact div_nonneg hnonneg (by norm_num)

theorem chargedS_le (x : Entry float β) : x.chargedS ≤ x.recordedS := by
  rw [chargedS_eq]
  by_cases hcell : cell x.2.row "query_ms" = ""
  · rw [if_neg (not_not_intro hcell), Entry.recordedS, if_neg (not_not_intro hcell)]
    exact elapsedS_nonneg x
  · rw [if_pos hcell]

theorem chargedS_eq_iff (x : Entry float β) : x.chargedS = x.recordedS ↔
    (cell x.2.row "query_ms" = "" → x.elapsedS = 0) := by
  rw [chargedS_eq]
  by_cases hcell : cell x.2.row "query_ms" = ""
  · rw [if_neg (not_not_intro hcell), Entry.recordedS, if_neg (not_not_intro hcell)]
    exact ⟨fun h _ => h.symm, fun h => (h hcell).symm⟩
  · rw [if_pos hcell]
    exact iff_of_true rfl fun h => absurd h hcell

end

/-! ## Sums -/

/-- Sums of smaller terms are the same only if the terms are. -/
theorem sum_eq_sum_iff {α : Type} {f g : α → Rat} {l : List α} (h : ∀ y ∈ l, f y ≤ g y) :
    (l.map f).sum = (l.map g).sum ↔ ∀ y ∈ l, f y = g y := by
  induction l with
  | nil => simp
  | cons y l ih =>
    obtain ⟨hy, hl⟩ := List.forall_mem_cons.mp h
    have hle := List.sum_le_sum hl
    rw [List.map_cons, List.map_cons, List.sum_cons, List.sum_cons, List.forall_mem_cons, ← ih hl]
    constructor
    · intro heq
      exact ⟨by linarith, by linarith⟩
    · rintro ⟨hhead, htail⟩
      rw [hhead, htail]

theorem boots_of_nonneg {s : Rat} (h : 0 ≤ s) : boots s = 90 + s :=
  max_eq_right (by linarith)

section Billed

variable [DecidableEq β]

/-- The boots are charged what was recorded of them, each once. -/
structure Billed (files : List (Source float β)) : Prop where
  total : charged float (files.map Source.file) =
    ∑ b ∈ ((entries files).map Entry.boot).toFinset,
      boots (weightOf Entry.boot Entry.recordedS (entries files) b)
  together : ∀ x ∈ entries files, ∀ y ∈ entries files, x.boot = y.boot → x.key = y.key
  apart : ∀ x ∈ entries files, ∀ y ∈ entries files, x.key = y.key → x.boot = y.boot

theorem weightOf_nonneg (l : List (Entry float β)) (b : β) :
    0 ≤ weightOf Entry.boot Entry.chargedS l b :=
  List.sum_nonneg fun s hs => by
    obtain ⟨x, -, rfl⟩ := List.mem_map.mp hs
    exact chargedS_nonneg x

theorem weightOf_le (l : List (Entry float β)) (b : β) :
    weightOf Entry.boot Entry.chargedS l b ≤ weightOf Entry.boot Entry.recordedS l b :=
  List.sum_le_sum fun x _ => chargedS_le x

theorem boots_le (l : List (Entry float β)) (b : β) :
    boots (weightOf Entry.boot Entry.chargedS l b) ≤
      boots (weightOf Entry.boot Entry.recordedS l b) :=
  max_le_max_left _ (by linarith [weightOf_le l b])

theorem boots_eq_iff (l : List (Entry float β)) (b : β) :
    boots (weightOf Entry.boot Entry.chargedS l b) =
      boots (weightOf Entry.boot Entry.recordedS l b) ↔
    ∀ x ∈ l, x.boot = b → x.chargedS = x.recordedS := by
  have hcharged := weightOf_nonneg l b
  have hrecorded := hcharged.trans (weightOf_le l b)
  rw [boots_of_nonneg hcharged, boots_of_nonneg hrecorded, add_right_inj, weightOf, weightOf,
    sum_eq_sum_iff fun x _ => chargedS_le x]
  simp

/-- Where the keys tell the boots apart, the charge is right if no row without `query_ms` took
time. -/
theorem total_iff {files : List (Source float β)}
    (hkeys : ∀ x ∈ entries files, ∀ y ∈ entries files, x.key = y.key ↔ x.boot = y.boot) :
    charged float (files.map Source.file) =
        ∑ b ∈ ((entries files).map Entry.boot).toFinset,
          boots (weightOf Entry.boot Entry.recordedS (entries files) b) ↔
      ∀ x ∈ entries files, cell x.2.row "query_ms" = "" → x.elapsedS = 0 := by
  rw [charged_eq, sum_weightOf_congr hkeys boots,
    Finset.sum_eq_sum_iff_of_le fun b _ => boots_le (entries files) b]
  simp only [boots_eq_iff, chargedS_eq_iff]
  constructor
  · intro h x hx
    exact h x.boot (List.mem_toFinset.mpr (List.mem_map_of_mem hx)) x hx rfl
  · exact fun h b _ x hx _ => h x hx

theorem Billed.keys {files : List (Source float β)} (h : Billed files) :
    ∀ x ∈ entries files, ∀ y ∈ entries files, x.key = y.key ↔ x.boot = y.boot :=
  fun x hx y hy => ⟨h.apart x hx y hy, h.together x hx y hy⟩

/-- **What was recorded is charged where no row without `query_ms` took time, and the keys tell
the boots apart.** -/
theorem billed_iff (files : List (Source float β)) : Billed files ↔
    (∀ x ∈ entries files, ∀ y ∈ entries files, x.key = y.key ↔ x.boot = y.boot) ∧
      ∀ x ∈ entries files, cell x.2.row "query_ms" = "" → x.elapsedS = 0 := by
  constructor
  · exact fun h => ⟨h.keys, (total_iff h.keys).mp h.total⟩
  · rintro ⟨hkeys, htimes⟩
    exact
      { total := (total_iff hkeys).mpr htimes
        together := fun x hx y hy => (hkeys x hx y hy).mpr
        apart := fun x hx y hy => (hkeys x hx y hy).mp }

end Billed

/-! ## A boot whose time is not charged -/

/-- Decimal numbers. -/
def decimals : Floats := fun t => Builtins.decimalOf t.toList

/-- A row of a boot that ran for 30 s, and has no `query_ms`. -/
def linuxS3Row : Recorded decimals Nat where
  row := [("instance", "c7gn.large"), ("elapsed_s", "30.0"), ("log", "run-1.log")]
  boot := 1
  query_time := .inl (by decide)
  elapsed_time := .inr ⟨30, by decide, by norm_num⟩

def linuxS3File : Source decimals Nat :=
  { name := "linux-s3.csv", isFile := true, rows := [linuxS3Row] }

theorem not_billed_linuxS3 : ¬ Billed [linuxS3File] := by
  intro h
  have hmem : ("linux-s3.csv", linuxS3Row) ∈ entries [linuxS3File] := List.mem_singleton_self _
  have hzero := (total_iff h.keys).mp h.total _ hmem (by decide)
  exact absurd hzero (by decide)

end Cost
