import Mathlib.Logic.Function.Iterate
import MiniosvCtrl.Infra.Frame

/-!
# The text of a CSV

A row is a line of fields between commas. A field that holds a comma, a quote or the end of a line
is quoted, and its quotes are doubled, so that a line ends at the first `\n` outside quotes, with
an even number of quotes before it.

* `line`, `Table.text`
* `lineEnd` — what follows the first line of a text
* `iterate_lineEnd` — lines are found where they were written
-/

namespace Infra

/-- A character that a field is quoted for. -/
def special (c : Char) : Bool := c == ',' || c == '"' || c == '\n' || c == '\r'

/-- Every quote is doubled. -/
def doubled (l : List Char) : List Char := l.flatMap fun c => if c = '"' then ['"', '"'] else [c]

def field (t : String) : List Char :=
  if t.toList.any special then '"' :: (doubled t.toList ++ ['"']) else t.toList

/-- The fields of a row. One empty field is quoted, as it would leave nothing. -/
def body (cells : List String) : List Char :=
  if cells = [""] then ['"', '"'] else [','].intercalate (cells.map field)

def line (cells : List String) : List Char := body cells ++ ['\n']

/-- The rows as texts, the header first. -/
def Table.lines (t : Table) : List (List String) :=
  t.columns :: t.rows.map fun r => t.columns.map r

def Table.text (t : Table) : List Char := t.lines.flatMap line

/-! ## Finding the end of a line -/

/-- What follows the first `\n` outside quotes; the text begins inside of some, or not. -/
def lineEnd : Bool → List Char → List Char
  | _, [] => []
  | quoted, c :: l =>
    if c = '\n' ∧ quoted = false then l else lineEnd (if c = '"' then !quoted else quoted) l

/-- No line ends in the text. -/
def Passes (l : List Char) : Prop := ∀ rest, lineEnd false (l ++ rest) = lineEnd false rest

namespace Passes

theorem nil : Passes [] := fun _ => rfl

theorem append {l m : List Char} (hl : Passes l) (hm : Passes m) : Passes (l ++ m) := by
  intro rest
  rw [List.append_assoc, hl, hm]

theorem single {c : Char} (hend : c ≠ '\n') (hquote : c ≠ '"') : Passes [c] := by
  intro rest
  show lineEnd false (c :: rest) = lineEnd false rest
  rw [lineEnd, if_neg fun h => hend h.1, if_neg hquote]

theorem of_not_special {l : List Char} (h : l.any special = false) : Passes l := by
  induction l with
  | nil => exact nil
  | cons c l ih =>
    rw [List.any_cons, Bool.or_eq_false_iff] at h
    have hend : c ≠ '\n' := by
      rintro rfl
      exact absurd h.1 (by decide)
    have hquote : c ≠ '"' := by
      rintro rfl
      exact absurd h.1 (by decide)
    exact (single hend hquote).append (ih h.2)

/-- Inside quotes nothing ends a line, and a doubled quote leaves the text there. -/
theorem lineEnd_doubled (l rest : List Char) :
    lineEnd true (doubled l ++ rest) = lineEnd true rest := by
  induction l with
  | nil => rfl
  | cons c l ih =>
    rw [doubled, List.flatMap_cons, List.append_assoc]
    by_cases hquote : c = '"'
    · subst hquote
      exact ih
    · rw [if_neg hquote]
      show lineEnd true (c :: (doubled l ++ rest)) = _
      rw [lineEnd, if_neg fun h => Bool.noConfusion h.2, if_neg hquote, ih]

theorem field (t : String) : Passes (field t) := by
  unfold Infra.field
  split
  · intro rest
    show lineEnd true ((doubled t.toList ++ ['"']) ++ rest) = _
    rw [List.append_assoc, lineEnd_doubled]
    rfl
  · rename_i h
    exact of_not_special (by simpa using h)

theorem intercalate {fields : List (List Char)} (h : ∀ f ∈ fields, Passes f) :
    Passes ([','].intercalate fields) := by
  induction fields with
  | nil => exact nil
  | cons f fields ih =>
    have hf := h f List.mem_cons_self
    have hrest := ih fun g hg => h g (List.mem_cons_of_mem _ hg)
    cases fields with
    | nil => simpa using hf
    | cons g fields =>
      rw [List.intercalate_cons_cons]
      exact (hf.append (single (by decide) (by decide))).append hrest

theorem body (cells : List String) : Passes (body cells) := by
  unfold Infra.body
  split
  · exact fun _ => rfl
  · refine intercalate fun f hf => ?_
    obtain ⟨t, -, rfl⟩ := List.mem_map.mp hf
    exact field t

end Passes

theorem lineEnd_line (cells : List String) (rest : List Char) :
    lineEnd false (line cells ++ rest) = rest := by
  rw [line, List.append_assoc, Passes.body]
  rfl

/-- **Lines are found where they were written.** -/
theorem iterate_lineEnd (lines : List (List String)) (rest : List Char) :
    (lineEnd false)^[lines.length] (lines.flatMap line ++ rest) = rest := by
  induction lines with
  | nil => rfl
  | cons cells lines ih =>
    rw [List.length_cons, Function.iterate_succ_apply, List.flatMap_cons, List.append_assoc,
      lineEnd_line, ih]

/-- Two texts that begin with as many lines and are one text have as much left. -/
theorem rest_eq_of_lines {k m : List (List String)} (hlength : k.length = m.length)
    {x y : List Char} (h : k.flatMap line ++ x = m.flatMap line ++ y) : x = y := by
  rw [← iterate_lineEnd k x, h, hlength, iterate_lineEnd]

end Infra
