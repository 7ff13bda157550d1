import MiniosvCtrl.Infra.CsvText
import MiniosvCtrl.Runner.Sweep

/-!
# A driver and the text of its CSV

`df.to_csv(out)` opens the file, which leaves it empty, and the whole text of the frame arrives in
pieces after that. A driver may be killed between any two of them.

* `Recording` — a driver between its start and its end, with the text on disk
* `Recording.Step`
* `Contains`, `Recording.Kept` — the rows that are in the file, unchanged
-/

namespace Runner

open Infra

variable {N : Numerals}

/-- The CSV is open for writing. -/
structure Write (N : Numerals) where
  /-- The rows that are being recorded. -/
  fresh : List (Row N)
  /-- What has not arrived in the file. -/
  rest : List Char

structure Recording (N : Numerals) where
  disk : Option (List Char)
  /-- The rows of all runs whose recording has completed, as they were recorded or read. -/
  recorded : List (Row N)
  live : Option (Process N)
  write : Option (Write N)

namespace Recording

/-- The driver has read its arguments and the CSV. -/
def init (s : Sweep) (file : Option Table) : Recording N :=
  { disk := file.map Table.text
    recorded := (file.elim (Frame.empty N) (Table.readCsv N)).rows
    live := some (Process.start s (file.map fun t => ⟨t, []⟩))
    write := none }

inductive Event (N : Numerals)
  | skip (run : Run)
  /-- The run was launched, and the CSV is opened for its rows. -/
  | truncate (run : Run) (boot : Boot N) (valid : Bool)
  | arrive (piece : List Char)
  | close
  | raise (run : Run)
  | exit
  | kill

inductive Step : Recording N → Event N → Recording N → Prop
  | skip {disk : Option (List Char)} {recorded : List (Row N)} {p : Process N} {run : Run} :
      p.todo.head? = some run → done p.df run = true →
      Step ⟨disk, recorded, some p, none⟩ (.skip run) ⟨disk, recorded, some p.skip, none⟩
  | truncate {disk : Option (List Char)} {recorded : List (Row N)} {p : Process N} {run : Run}
      {boot : Boot N} {valid : Bool} : p.todo.head? = some run → done p.df run = false →
      Step ⟨disk, recorded, some p, none⟩ (.truncate run boot valid)
        ⟨some [], recorded, some (p.record run boot valid),
          some ⟨(newRows run boot).rows, (p.record run boot valid).csv.table.text⟩⟩
  | arrive {text : List Char} {recorded fresh : List (Row N)} {p : Process N}
      {piece rest : List Char} : piece ≠ [] →
      Step ⟨some text, recorded, some p, some ⟨fresh, piece ++ rest⟩⟩ (.arrive piece)
        ⟨some (text ++ piece), recorded, some p, some ⟨fresh, rest⟩⟩
  | close {disk : Option (List Char)} {recorded fresh : List (Row N)} {p : Process N} :
      Step ⟨disk, recorded, some p, some ⟨fresh, []⟩⟩ .close
        ⟨disk, recorded ++ fresh, some p, none⟩
  | raise {disk : Option (List Char)} {recorded : List (Row N)} {p : Process N} {run : Run} :
      p.todo.head? = some run → done p.df run = false →
      Step ⟨disk, recorded, some p, none⟩ (.raise run) ⟨disk, recorded, none, none⟩
  | exit {disk : Option (List Char)} {recorded : List (Row N)} {p : Process N} : p.todo = [] →
      Step ⟨disk, recorded, some p, none⟩ .exit ⟨disk, recorded, none, none⟩
  | kill {disk : Option (List Char)} {recorded : List (Row N)} {p : Process N}
      {write : Option (Write N)} :
      Step ⟨disk, recorded, some p, write⟩ .kill ⟨disk, recorded, none, none⟩

end Recording

/--
The `n`-th row of the text, to the end of its line, is `r`: in each column one text with it, or one
number, and `r` has nothing outside the columns.
-/
def Contains (text : List Char) (n : Nat) (r : Row N) : Prop :=
  ∃ (columns : List Name) (before : List (List String)) (cells : List String) (rest : List Char),
    text = (columns :: before ++ [cells]).flatMap line ++ rest ∧ before.length = n ∧
      List.Forall₂ (fun k t => Alike N t (r k).text) columns cells ∧
      ∀ k, k ∉ columns → (r k).text = ""

/-- Every row that was recorded is in the file. -/
def Recording.Kept (s : Recording N) : Prop :=
  ∀ n r, s.recorded[n]? = some r → ∃ text, s.disk = some text ∧ Contains text n r

end Runner
