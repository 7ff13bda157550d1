import Mathlib.Data.List.Basic
import Mathlib.Tactic.Push

/-!
# Data frames with typed columns

What pandas does to the cells of a column: `concat` turns the integers of a numeric column into
floats as soon as a cell of it is missing or a float, `to_csv` prints every cell, and `read_csv`
types a column by all of its cells at once. A frame's cells are as their columns' types have
them, so a frame is a structure that carries this.

* `Numerals` — how numbers are read and printed
* `Frame.ofRows`, `Frame.concat`, `Frame.toCsv`, `Table.readCsv`
* `readCsv_toCsv_readCsv` — a frame that was read from a file survives being written again
* `Alike` — two texts are one text or one number; no operation makes others the same
-/

namespace Infra

abbrev Name := String

/-- How numbers are read and printed. `Real` stands for the float64 values other than NaN. -/
structure Numerals where
  Real : Type
  decEq : DecidableEq Real
  ofInt : Int → Real
  /-- The integer a cell of a file is read as. -/
  intOf : String → Option Int
  /-- The number a cell of a file is read as. -/
  realOf : String → Option Real
  showReal : Real → String
  intOf_toString : ∀ n : Int, intOf (toString n) = some n
  realOf_of_intOf : ∀ {t n}, intOf t = some n → realOf t = some (ofInt n)
  realOf_showReal : ∀ x, realOf (showReal x) = some x
  /-- A float prints with a decimal point. -/
  intOf_showReal : ∀ x, intOf (showReal x) = none
  realOf_empty : realOf "" = none

variable {N : Numerals}

instance : DecidableEq N.Real := N.decEq

namespace Numerals

theorem intOf_empty (N : Numerals) : N.intOf "" = none := by
  cases h : N.intOf "" with
  | none => rfl
  | some n =>
    have hr := N.realOf_of_intOf h
    rw [N.realOf_empty] at hr
    cases hr

theorem realOf_toString (n : Int) : N.realOf (toString n) = some (N.ofInt n) :=
  N.realOf_of_intOf (N.intOf_toString n)

/-- The text is empty or a number. -/
def Numeric (N : Numerals) (t : String) : Prop := t = "" ∨ ∃ x, N.realOf t = some x

instance (t : String) : Decidable (N.Numeric t) :=
  decidable_of_iff (t = "" ∨ (N.realOf t).isSome = true) (by
    rw [Option.isSome_iff_exists]
    exact Iff.rfl)

end Numerals

/-! ## Cells and columns -/

inductive Cell (N : Numerals)
  | int (n : Int)
  | real (x : N.Real)
  | str (t : String)
  | missing
  deriving DecidableEq

namespace Cell

/-- `str` of the cell, the empty text if it is missing: also what `to_csv` prints. -/
def text : Cell N → String
  | .int n => toString n
  | .real x => N.showReal x
  | .str t => t
  | .missing => ""

def isInt : Cell N → Bool
  | .int _ => true
  | _ => false

def isStr : Cell N → Bool
  | .str _ => true
  | _ => false

end Cell

/-- A column's dtype: int64, float64 or object. -/
inductive Kind
  | ints | reals | object
  deriving DecidableEq, Repr

/-- The dtype of a column in memory. -/
def kindOf (column : List (Cell N)) : Kind :=
  if column.any Cell.isStr then .object
  else if column.all Cell.isInt then .ints
  else .reals

/-- A cell of a column that is typed `k`. -/
def Cell.cast (k : Kind) (c : Cell N) : Cell N :=
  match k, c with
  | .reals, .int n => .real (N.ofInt n)
  | _, c => c

/-- The dtype `read_csv` gives a column of a file. -/
def fileKind (N : Numerals) (column : List String) : Kind :=
  if ∀ t ∈ column, (N.intOf t).isSome = true then .ints
  else if ∀ t ∈ column, N.Numeric t then .reals
  else .object

/-- What a cell of a file is read as, in a column that is typed `k`. -/
def readCell (N : Numerals) (k : Kind) (t : String) : Cell N :=
  if t = "" then .missing
  else
    match k with
    | .ints => (N.intOf t).elim .missing .int
    | .reals => (N.realOf t).elim .missing .real
    | .object => .str t

/-- A cell of a file, after the file was read and written. -/
def reprint (N : Numerals) (k : Kind) (t : String) : String := (readCell N k t).text

namespace Cell

theorem cast_of_not_isInt {c : Cell N} (h : c.isInt = false) (k : Kind) : c.cast k = c := by
  cases c with
  | int n => cases h
  | real x => cases k <;> rfl
  | str t => cases k <;> rfl
  | missing => cases k <;> rfl

theorem cast_of_ne_reals {k : Kind} (h : k ≠ .reals) (c : Cell N) : c.cast k = c := by
  cases k with
  | ints => rfl
  | reals => exact absurd rfl h
  | object => rfl

@[simp] theorem cast_missing (k : Kind) : (missing : Cell N).cast k = .missing :=
  cast_of_not_isInt rfl k

@[simp] theorem cast_str (k : Kind) (t : String) : (str t : Cell N).cast k = .str t :=
  cast_of_not_isInt rfl k

@[simp] theorem cast_cast (k : Kind) (c : Cell N) : (c.cast k).cast k = c.cast k := by
  cases k with
  | ints => rfl
  | reals => cases c <;> rfl
  | object => rfl

@[simp] theorem isStr_cast (k : Kind) (c : Cell N) : (c.cast k).isStr = c.isStr := by
  cases k with
  | ints => rfl
  | reals => cases c <;> rfl
  | object => rfl

end Cell

theorem kindOf_eq_object_iff {l : List (Cell N)} :
    kindOf l = .object ↔ ∃ c ∈ l, c.isStr = true := by
  rw [← List.any_eq_true, kindOf]
  by_cases h : l.any Cell.isStr = true
  · rw [if_pos h]
    exact ⟨fun _ => h, fun _ => rfl⟩
  · rw [if_neg h]
    refine ⟨fun hk => ?_, fun h' => absurd h' h⟩
    split at hk <;> cases hk

theorem isInt_of_kindOf_eq_ints {l : List (Cell N)} (h : kindOf l = .ints) :
    ∀ c ∈ l, c.isInt = true := by
  unfold kindOf at h
  by_cases hs : l.any Cell.isStr = true
  · simp [hs] at h
  · by_cases hi : l.all Cell.isInt = true
    · exact List.all_eq_true.mp hi
    · simp [hs, hi] at h

theorem kindOf_eq_ints {l : List (Cell N)} (h : ∀ c ∈ l, c.isInt = true) : kindOf l = .ints := by
  have hs : l.any Cell.isStr = false := by
    rw [List.any_eq_false]
    intro c hc
    have hi := h c hc
    cases c <;> simp_all [Cell.isInt, Cell.isStr]
  have hi : l.all Cell.isInt = true := List.all_eq_true.mpr h
  simp [kindOf, hs, hi]

theorem map_cast_kindOf_of_ne_reals {l : List (Cell N)} (h : kindOf l ≠ .reals) :
    l.map (Cell.cast (kindOf l)) = l := by
  rw [List.map_congr_left fun c _ => Cell.cast_of_ne_reals h c, List.map_id']

@[simp] theorem kindOf_map_cast (l : List (Cell N)) :
    kindOf (l.map (Cell.cast (kindOf l))) = kindOf l := by
  by_cases hk : kindOf l = .reals
  · rw [hk]
    cases hk' : kindOf (l.map (Cell.cast .reals)) with
    | ints =>
      cases l with
      | nil =>
        cases hk
      | cons c l =>
        have hi := isInt_of_kindOf_eq_ints hk' _ List.mem_cons_self
        cases c <;> cases hi
    | reals => rfl
    | object =>
      obtain ⟨c, hc, hs⟩ := kindOf_eq_object_iff.mp hk'
      obtain ⟨c₀, hc₀, rfl⟩ := List.mem_map.mp hc
      rw [Cell.isStr_cast] at hs
      rw [kindOf_eq_object_iff.mpr ⟨c₀, hc₀, hs⟩] at hk
      cases hk
  · rw [map_cast_kindOf_of_ne_reals hk]

/-- A column that was given its type once keeps its cells. -/
theorem cast_kindOf_map_cast {l : List (Cell N)} {c : Cell N} (hc : c ∈ l) :
    (c.cast (kindOf l)).cast (kindOf (l.map (Cell.cast (kindOf l)))) = c.cast (kindOf l) := by
  by_cases hk : kindOf l = .reals
  · have hi : (c.cast (kindOf l)).isInt = false := by
      rw [hk]
      cases c <;> rfl
    exact Cell.cast_of_not_isInt hi _
  · rw [map_cast_kindOf_of_ne_reals hk]
    exact Cell.cast_cast _ _

/-- An integer or a text: adding it to a column makes no float of the column's integers. -/
def Cell.Solid (c : Cell N) : Prop := c.isInt = true ∨ c.isStr = true

theorem kindOf_ne_reals {l : List (Cell N)} (h : ∀ c ∈ l, c.Solid) : kindOf l ≠ .reals := by
  by_cases hs : ∃ c ∈ l, c.isStr = true
  · rw [kindOf_eq_object_iff.mpr hs]
    exact Kind.noConfusion
  · have hi : ∀ c ∈ l, c.isInt = true := fun c hc =>
      (h c hc).resolve_right fun hstr => hs ⟨c, hc, hstr⟩
    rw [kindOf_eq_ints hi]
    exact Kind.noConfusion

theorem cast_kindOf_append {l m : List (Cell N)} {c : Cell N} (hm : ∀ c ∈ m, c.Solid)
    (hc : c ∈ l) (htyped : c.cast (kindOf l) = c) : c.cast (kindOf (l ++ m)) = c := by
  by_cases hi : c.isInt = true
  · -- an integer keeps its column from being typed as floats
    have hl : kindOf l ≠ .reals := by
      intro hk
      rw [hk] at htyped
      cases c <;> cases hi
      cases htyped
    refine Cell.cast_of_ne_reals ?_ c
    by_cases hs : ∃ c ∈ l ++ m, c.isStr = true
    · rw [kindOf_eq_object_iff.mpr hs]
      exact Kind.noConfusion
    · have hl' : kindOf l = .ints := by
        cases hk : kindOf l with
        | ints => rfl
        | reals => exact absurd hk hl
        | object =>
          obtain ⟨c', hc', hs'⟩ := kindOf_eq_object_iff.mp hk
          exact absurd ⟨c', List.mem_append_left _ hc', hs'⟩ hs
      have hall : ∀ c ∈ l ++ m, c.isInt = true := by
        intro c' hc'
        rcases List.mem_append.mp hc' with hmem | hmem
        · exact isInt_of_kindOf_eq_ints hl' c' hmem
        · exact (hm c' hmem).resolve_right fun hs' => hs ⟨c', hc', hs'⟩
      rw [kindOf_eq_ints hall]
      exact Kind.noConfusion
  · exact Cell.cast_of_not_isInt (by simpa using hi) _

/-! ## Columns of a file -/

theorem fileKind_eq_ints_iff {l : List String} :
    fileKind N l = .ints ↔ ∀ t ∈ l, (N.intOf t).isSome = true := by
  unfold fileKind
  by_cases h : ∀ t ∈ l, (N.intOf t).isSome = true
  · rw [if_pos h]
    exact ⟨fun _ => h, fun _ => rfl⟩
  · rw [if_neg h]
    refine ⟨fun hk => ?_, fun h' => absurd h' h⟩
    split at hk <;> cases hk

theorem fileKind_ne_object_iff {l : List String} :
    fileKind N l ≠ .object ↔ ∀ t ∈ l, N.Numeric t := by
  unfold fileKind
  by_cases h : ∀ t ∈ l, (N.intOf t).isSome = true
  · rw [if_pos h]
    refine ⟨fun _ t ht => ?_, fun _ hk => by cases hk⟩
    obtain ⟨n, hn⟩ := Option.isSome_iff_exists.mp (h t ht)
    exact Or.inr ⟨_, N.realOf_of_intOf hn⟩
  · rw [if_neg h]
    by_cases hr : ∀ t ∈ l, N.Numeric t
    · rw [if_pos hr]
      exact ⟨fun _ => hr, fun _ hk => by cases hk⟩
    · rw [if_neg hr]
      exact ⟨fun hk => absurd rfl hk, fun h' => absurd h' hr⟩

theorem readCell_empty (k : Kind) : readCell N k "" = .missing := by simp [readCell]

@[simp] theorem reprint_empty (k : Kind) : reprint N k "" = "" := by
  simp [reprint, readCell_empty, Cell.text]

@[simp] theorem reprint_object (t : String) : reprint N .object t = t := by
  by_cases h : t = ""
  · rw [h, reprint_empty]
  · simp [reprint, readCell, h, Cell.text]

theorem readCell_ints {t : String} {n : Int} (h : N.intOf t = some n) :
    readCell N .ints t = .int n := by
  have hne : t ≠ "" := by
    rintro rfl
    rw [N.intOf_empty] at h
    cases h
  simp [readCell, hne, h]

theorem readCell_reals {t : String} {x : N.Real} (h : N.realOf t = some x) :
    readCell N .reals t = .real x := by
  have hne : t ≠ "" := by
    rintro rfl
    rw [N.realOf_empty] at h
    cases h
  simp [readCell, hne, h]

/-- What is read depends on no more than what would be printed. -/
theorem readCell_reprint (k : Kind) (t : String) :
    readCell N k (reprint N k t) = readCell N k t := by
  by_cases ht : t = ""
  · rw [ht, reprint_empty]
  cases k with
  | ints =>
    cases h : N.intOf t with
    | none => simp [reprint, readCell, ht, h, Cell.text]
    | some n =>
      rw [reprint, readCell_ints h]
      exact readCell_ints (N.intOf_toString n)
  | reals =>
    cases h : N.realOf t with
    | none => simp [reprint, readCell, ht, h, Cell.text]
    | some x =>
      rw [reprint, readCell_reals h]
      exact readCell_reals (N.realOf_showReal x)
  | object => rw [reprint_object]

theorem reprint_reprint (k : Kind) (t : String) :
    reprint N k (reprint N k t) = reprint N k t := by
  rw [reprint, readCell_reprint, reprint]

/-- Writing a column that was read, and reading it again, gives it its type again. -/
theorem fileKind_map_reprint (l : List String) :
    fileKind N (l.map (reprint N (fileKind N l))) = fileKind N l := by
  cases hk : fileKind N l with
  | ints =>
    rw [fileKind_eq_ints_iff] at hk ⊢
    intro u hu
    obtain ⟨t, ht, rfl⟩ := List.mem_map.mp hu
    obtain ⟨n, hn⟩ := Option.isSome_iff_exists.mp (hk t ht)
    rw [reprint, readCell_ints hn]
    show (N.intOf (toString n)).isSome = true
    rw [N.intOf_toString]
    rfl
  | reals =>
    have hnum : ∀ t ∈ l, N.Numeric t := fileKind_ne_object_iff.mp (by rw [hk]; simp)
    have hcell : ∀ t ∈ l, reprint N .reals t = "" ∨ ∃ x, reprint N .reals t = N.showReal x := by
      intro t ht
      rcases hnum t ht with rfl | ⟨x, hx⟩
      · exact Or.inl (reprint_empty _)
      · exact Or.inr ⟨x, by rw [reprint, readCell_reals hx, Cell.text]⟩
    -- some cell was no integer, and is printed as a real or as nothing
    have hints : fileKind N (l.map (reprint N .reals)) ≠ .ints := by
      intro hi
      have hne : ¬ ∀ t ∈ l, (N.intOf t).isSome = true := by
        rw [← fileKind_eq_ints_iff, hk]
        simp
      push Not at hne
      obtain ⟨t, ht, -⟩ := hne
      have hs := fileKind_eq_ints_iff.mp hi _ (List.mem_map_of_mem ht)
      rcases hcell t ht with he | ⟨x, he⟩
      · rw [he, N.intOf_empty] at hs
        cases hs
      · rw [he, N.intOf_showReal] at hs
        cases hs
    have hobject : fileKind N (l.map (reprint N .reals)) ≠ .object := by
      rw [fileKind_ne_object_iff]
      intro u hu
      obtain ⟨t, ht, rfl⟩ := List.mem_map.mp hu
      rcases hcell t ht with he | ⟨x, he⟩
      · exact Or.inl he
      · exact Or.inr ⟨x, by rw [he, N.realOf_showReal]⟩
    cases hk' : fileKind N (l.map (reprint N .reals)) with
    | ints => exact absurd hk' hints
    | reals => rfl
    | object => exact absurd hk' hobject
  | object =>
    have hid : l.map (reprint N .object) = l := by
      rw [List.map_congr_left fun t _ => reprint_object t, List.map_id']
    rw [hid, hk]

/-! ## Frames and files -/

abbrev Row (N : Numerals) := Name → Cell N

/-- A frame in memory. A row is a function that gives `missing` outside the columns. -/
structure Frame (N : Numerals) where
  columns : List Name
  rows : List (Row N)
  typed : ∀ k, ∀ r ∈ rows, (r k).cast (kindOf (rows.map (· k))) = r k
  absent : ∀ k, k ∉ columns → ∀ r ∈ rows, r k = .missing

/-- A file: the texts between its commas, and nothing outside its columns. -/
structure Table where
  columns : List Name
  rows : List (Name → String)
  absent : ∀ k, k ∉ columns → ∀ r ∈ rows, r k = ""

@[ext]
theorem Frame.ext {f g : Frame N} (hc : f.columns = g.columns) (hr : f.rows = g.rows) : f = g := by
  cases f
  cases g
  congr

/-- The rows, every column given its type. -/
def retype (rows : List (Row N)) : List (Row N) :=
  rows.map fun r k => (r k).cast (kindOf (rows.map (· k)))

theorem map_retype (rows : List (Row N)) (k : Name) :
    (retype rows).map (· k) = (rows.map (· k)).map (Cell.cast (kindOf (rows.map (· k)))) := by
  simp [retype]

theorem retype_typed (rows : List (Row N)) (k : Name) :
    ∀ r ∈ retype rows, (r k).cast (kindOf ((retype rows).map (· k))) = r k := by
  intro r hr
  obtain ⟨r₀, hr₀, rfl⟩ := List.mem_map.mp hr
  rw [map_retype]
  exact cast_kindOf_map_cast (List.mem_map_of_mem (f := (· k)) hr₀)

theorem retype_absent {rows : List (Row N)} {k : Name} (h : ∀ r ∈ rows, r k = .missing) :
    ∀ r ∈ retype rows, r k = .missing := by
  intro r hr
  obtain ⟨r₀, hr₀, rfl⟩ := List.mem_map.mp hr
  show (r₀ k).cast _ = .missing
  rw [h r₀ hr₀, Cell.cast_missing]

namespace Frame

/-- `pd.DataFrame()` -/
def empty (N : Numerals) : Frame N :=
  { columns := [], rows := [], typed := nofun, absent := fun _ _ => nofun }

/-- `pd.DataFrame(rows)`, for rows with these columns. -/
def ofRows (columns : List Name) (rows : List (Row N)) : Frame N :=
  let rows := rows.map fun r k => if k ∈ columns then r k else .missing
  { columns
    rows := retype rows
    typed := retype_typed rows
    absent := fun k hk => retype_absent fun r hr => by
      obtain ⟨r₀, -, rfl⟩ := List.mem_map.mp hr
      exact if_neg hk }

/-- `pd.concat([f, g], ignore_index=True)` -/
def concat (f g : Frame N) : Frame N :=
  { columns := f.columns ++ g.columns.filter (· ∉ f.columns)
    rows := retype (f.rows ++ g.rows)
    typed := retype_typed (f.rows ++ g.rows)
    absent := fun k hk => retype_absent fun r hr => by
      have hf : k ∉ f.columns := fun h => hk (List.mem_append_left _ h)
      have hg : k ∉ g.columns := fun h =>
        hk (List.mem_append_right _ (List.mem_filter.mpr ⟨h, by simpa using hf⟩))
      rcases List.mem_append.mp hr with hr | hr
      · exact f.absent k hf r hr
      · exact g.absent k hg r hr }

def column (f : Frame N) (k : Name) : List (Cell N) := f.rows.map (· k)

def kind (f : Frame N) (k : Name) : Kind := kindOf (f.column k)

theorem rows_concat (f g : Frame N) :
    (f.concat g).rows = (f.rows ++ g.rows).map fun r k => (r k).cast ((f.concat g).kind k) := by
  refine List.map_congr_left fun r _ => ?_
  funext k
  show (r k).cast (kindOf _) = (r k).cast (kindOf ((retype (f.rows ++ g.rows)).map (· k)))
  rw [map_retype, kindOf_map_cast]

theorem kind_concat (f g : Frame N) (k : Name) :
    (f.concat g).kind k = kindOf (f.column k ++ g.column k) := by
  show kindOf ((retype (f.rows ++ g.rows)).map (· k)) = _
  rw [map_retype, kindOf_map_cast, List.map_append]
  rfl

def toCsv (f : Frame N) : Table :=
  { columns := f.columns
    rows := f.rows.map fun r k => (r k).text
    absent := fun k hk u hu => by
      obtain ⟨r, hr, rfl⟩ := List.mem_map.mp hu
      show (r k).text = ""
      rw [f.absent k hk r hr]
      rfl }

end Frame

/-- The dtype `read_csv` gives the column `k`. -/
def Table.kind (N : Numerals) (t : Table) (k : Name) : Kind := fileKind N (t.rows.map (· k))

theorem isInt_readCell_eq_false {k : Kind} (h : k ≠ .ints) (t : String) :
    (readCell N k t).isInt = false := by
  unfold readCell
  split
  · rfl
  · cases k with
    | ints => exact absurd rfl h
    | reals => cases N.realOf t <;> rfl
    | object => rfl

/-- `pd.read_csv` -/
def Table.readCsv (N : Numerals) (t : Table) : Frame N :=
  { columns := t.columns
    rows := t.rows.map fun r k => readCell N (t.kind N k) (r k)
    typed := fun k r hr => by
      obtain ⟨u, hu, rfl⟩ := List.mem_map.mp hr
      by_cases hk : t.kind N k = .ints
      · have hints : kindOf ((t.rows.map fun r k => readCell N (t.kind N k) (r k)).map (· k)) =
            .ints := by
          refine kindOf_eq_ints fun c hc => ?_
          rw [List.map_map] at hc
          obtain ⟨u, hu, rfl⟩ := List.mem_map.mp hc
          obtain ⟨n, hn⟩ := Option.isSome_iff_exists.mp
            (fileKind_eq_ints_iff.mp hk (u k) (List.mem_map_of_mem (f := (· k)) hu))
          show (readCell N (t.kind N k) (u k)).isInt = true
          rw [hk, readCell_ints hn]
          rfl
        rw [hints]
        rfl
      · exact Cell.cast_of_not_isInt (isInt_readCell_eq_false hk _) _
    absent := fun k hk r hr => by
      obtain ⟨u, hu, rfl⟩ := List.mem_map.mp hr
      show readCell N _ (u k) = .missing
      rw [t.absent k hk u hu, readCell_empty] }

namespace Frame

/-- The frame that a later process reads. -/
def reread (f : Frame N) : Frame N := f.toCsv.readCsv N

/-- The dtype the column `k` has for a later process. -/
def laterKind (f : Frame N) (k : Name) : Kind := f.toCsv.kind N k

@[simp] theorem columns_reread (f : Frame N) : f.reread.columns = f.columns := rfl

theorem rows_reread (f : Frame N) :
    f.reread.rows = f.rows.map fun r k => readCell N (f.laterKind k) (r k).text := by
  show (f.rows.map _).map _ = _
  rw [List.map_map]
  rfl

theorem laterKind_eq (f : Frame N) (k : Name) :
    f.laterKind k = fileKind N (f.rows.map fun r => (r k).text) := by
  show fileKind N ((f.rows.map _).map _) = _
  rw [List.map_map]
  rfl

@[simp] theorem laterKind_reread (f : Frame N) (k : Name) :
    f.reread.laterKind k = f.laterKind k := by
  have hcol : (f.reread.rows.map fun r => (r k).text) =
      (f.rows.map fun r => (r k).text).map (reprint N (f.laterKind k)) := by
    rw [rows_reread, List.map_map, List.map_map]
    rfl
  rw [laterKind_eq, hcol, laterKind_eq, fileKind_map_reprint]

/-- **A frame that was read from a file survives being written and read again.** -/
theorem reread_reread (f : Frame N) : f.reread.reread = f.reread := by
  refine Frame.ext rfl ?_
  rw [rows_reread, rows_reread, List.map_map]
  refine List.map_congr_left fun r _ => ?_
  funext k
  show readCell N (f.reread.laterKind k) (reprint N (f.laterKind k) (r k).text) = _
  rw [laterKind_reread, readCell_reprint]

end Frame

/-- The same for any file. -/
theorem readCsv_toCsv_readCsv (t : Table) : (t.readCsv N).reread = t.readCsv N := by
  have hkind : ∀ k, (t.readCsv N).laterKind k = t.kind N k := by
    intro k
    have hcol : ((t.readCsv N).rows.map fun r => (r k).text) =
        (t.rows.map (· k)).map (reprint N (t.kind N k)) := by
      show (t.rows.map _).map _ = _
      rw [List.map_map, List.map_map]
      rfl
    rw [Frame.laterKind_eq, hcol]
    exact fileKind_map_reprint _
  refine Frame.ext rfl ?_
  rw [Frame.rows_reread]
  show (t.rows.map _).map _ = _
  rw [List.map_map]
  refine List.map_congr_left fun r _ => ?_
  funext k
  show readCell N ((t.readCsv N).laterKind k) (reprint N (t.kind N k) (r k)) = _
  rw [hkind, readCell_reprint]

/-! ## What no operation changes -/

/-- One text, or one number. -/
def Alike (N : Numerals) (t u : String) : Prop :=
  t = u ∨ ∃ x, N.realOf t = some x ∧ N.realOf u = some x

namespace Alike

variable {t u v : String}

theorem refl (t : String) : Alike N t t := Or.inl rfl

theorem symm (h : Alike N t u) : Alike N u t := by
  rcases h with rfl | ⟨x, ht, hu⟩
  · exact refl t
  · exact Or.inr ⟨x, hu, ht⟩

theorem trans (h : Alike N t u) (h' : Alike N u v) : Alike N t v := by
  rcases h with rfl | ⟨x, ht, hu⟩
  · exact h'
  · rcases h' with rfl | ⟨y, hu', hv⟩
    · exact Or.inr ⟨x, ht, hu⟩
    · rw [hu, Option.some_inj] at hu'
      exact Or.inr ⟨x, ht, hu' ▸ hv⟩

end Alike

/-- A column's type leaves a cell's text alike. -/
theorem alike_cast (k : Kind) (c : Cell N) : Alike N (c.cast k).text c.text := by
  by_cases hk : k = .reals
  · subst hk
    cases c with
    | int n => exact Or.inr ⟨N.ofInt n, N.realOf_showReal _, N.realOf_toString n⟩
    | real x => exact Alike.refl _
    | str t => exact Alike.refl _
    | missing => exact Alike.refl _
  · rw [Cell.cast_of_ne_reals hk]
    exact Alike.refl _

/-- So does reading the column it stands in. -/
theorem alike_reprint {l : List String} {t : String} (ht : t ∈ l) :
    Alike N (reprint N (fileKind N l) t) t := by
  cases hk : fileKind N l with
  | ints =>
    obtain ⟨n, hn⟩ := Option.isSome_iff_exists.mp (fileKind_eq_ints_iff.mp hk t ht)
    rw [reprint, readCell_ints hn]
    exact Or.inr ⟨_, N.realOf_toString n, N.realOf_of_intOf hn⟩
  | reals =>
    rcases fileKind_ne_object_iff.mp (by rw [hk]; simp) t ht with rfl | ⟨x, hx⟩
    · rw [reprint_empty]
      exact Alike.refl _
    · rw [reprint, readCell_reals hx]
      exact Or.inr ⟨x, N.realOf_showReal x, hx⟩
  | object =>
    rw [reprint_object]
    exact Alike.refl _

end Infra
