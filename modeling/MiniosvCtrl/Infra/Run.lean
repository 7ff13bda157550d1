import Mathlib.Logic.Basic

/-!
# Runs of a labelled transition system

A system is a relation `step : σ → α → σ → Prop`, where the label says which step is taken.
Everything here holds for any such system.

* `Run` — the states a sequence of labels leads to
* `Guarded` — the same system, restricted to the steps that meet a condition
* `Logged` — the same system, with the labels taken so far in its state
* `Run.invariant` — what every step keeps holds at the end of every run
* `Run.iff_guarded_along` — a property that is lost exactly when a step breaks the condition
* `Run.of_foldlM` — a run of a computed step
-/

namespace Infra

universe u v

variable {σ : Type u} {α : Type v}

/-- The labels taken from `s`, in order, and the state they lead to. -/
inductive Run (step : σ → α → σ → Prop) (s : σ) : List α → σ → Prop
  | nil : Run step s [] s
  | snoc {l : List α} {t : σ} {a : α} {w : σ} :
      Run step s l t → step t a w → Run step s (l ++ [a]) w

/-- The steps of a system that are taken while `ok` holds. -/
def Guarded (step : σ → α → σ → Prop) (ok : σ → α → Prop) (s : σ) (a : α) (t : σ) : Prop :=
  ok s a ∧ step s a t

/-- The system that keeps the labels it has taken. -/
def Logged (step : σ → α → σ → Prop) (p : List α × σ) (a : α) (q : List α × σ) : Prop :=
  step p.2 a q.2 ∧ q.1 = p.1 ++ [a]

namespace Run

variable {step : σ → α → σ → Prop} {ok : σ → α → Prop} {s t w : σ} {l m : List α}

theorem single {a : α} (h : step s a t) : Run step s [a] t :=
  Run.snoc (l := []) Run.nil h

theorem append (h₁ : Run step s l t) (h₂ : Run step t m w) : Run step s (l ++ m) w := by
  induction h₂ with
  | nil => simpa using h₁
  | snoc _ hstep ih =>
    rw [← List.append_assoc]
    exact ih.snoc hstep

theorem cons {a : α} (h : step s a t) (hr : Run step t l w) : Run step s (a :: l) w :=
  (single h).append hr

/-- Where the step is computed, so is the run. -/
theorem of_foldlM {f : σ → α → Option σ} (h : l.foldlM f s = some t) :
    Run (fun s a t => f s a = some t) s l t := by
  induction l generalizing s with
  | nil =>
    obtain rfl : s = t := Option.some.inj h
    exact Run.nil
  | cons a l ih =>
    rw [List.foldlM_cons] at h
    obtain ⟨w, hw, hl⟩ := Option.bind_eq_some_iff.mp h
    exact Run.cons hw (ih hl)

/-- A run of the restricted system is a run. -/
theorem of_guarded (h : Run (Guarded step ok) s l t) : Run step s l t := by
  induction h with
  | nil => exact Run.nil
  | snoc _ hstep ih => exact ih.snoc hstep.2

theorem logged (h : Run step s l t) : Run (Logged step) ([], s) l (l, t) := by
  induction h with
  | nil => exact Run.nil
  | snoc _ hstep ih => exact ih.snoc ⟨hstep, rfl⟩

/-- What is kept is the run. -/
theorem of_logged {p : List α × σ} (h : Run (Logged step) ([], s) l p) :
    p.1 = l ∧ Run step s l p.2 := by
  induction h with
  | nil => exact ⟨rfl, Run.nil⟩
  | snoc _ hstep ih => exact ⟨by rw [hstep.2, ih.1], ih.2.snoc hstep.1⟩

/-- What holds at the start and is kept by every step holds at the end. -/
theorem invariant {inv : σ → Prop} (h₀ : inv s)
    (hstep : ∀ t a w, inv t → step t a w → inv w) (h : Run step s l t) : inv t := by
  induction h with
  | nil => exact h₀
  | snoc _ ha ih => exact hstep _ _ _ ih ha

/-- The same, when a step may use what other invariants say of the state it leaves. -/
theorem invariant_of {inv aux : σ → Prop} (h₀ : inv s)
    (haux : ∀ l t, Run step s l t → aux t)
    (hstep : ∀ t a w, aux t → inv t → step t a w → inv w) (h : Run step s l t) : inv t := by
  induction h with
  | nil => exact h₀
  | snoc hr ha ih => exact hstep _ _ _ (haux _ _ hr) ih ha

/--
A property of the run that a step keeps exactly when it meets `ok` holds at the end
exactly when every step of the run met `ok`.
-/
theorem iff_guarded_along (good : List α → σ → Prop) (h₀ : good [] s)
    (hstep : ∀ l t a w, Run step s l t → step t a w → (good (l ++ [a]) w ↔ good l t ∧ ok t a))
    (h : Run step s l t) : good l t ↔ Run (Guarded step ok) s l t := by
  constructor
  · intro hg
    induction h with
    | nil => exact Run.nil
    | snoc hr ha ih =>
      obtain ⟨hgood, hok⟩ := (hstep _ _ _ _ hr ha).mp hg
      exact (ih hgood).snoc ⟨hok, ha⟩
  · intro hrun
    induction hrun with
    | nil => exact h₀
    | snoc hr ha ih => exact (hstep _ _ _ _ hr.of_guarded ha.2).mpr ⟨ih hr.of_guarded, ha.1⟩

/-- The same for a property of the state. -/
theorem iff_guarded {good : σ → Prop} (h₀ : good s)
    (hstep : ∀ t a w, step t a w → (good w ↔ good t ∧ ok t a)) (h : Run step s l t) :
    good t ↔ Run (Guarded step ok) s l t :=
  iff_guarded_along (fun _ => good) h₀ (fun _ t a w _ ha => hstep t a w ha) h

end Run

end Infra
