import MiniosvCtrl.Properties.ResumeSound
import MiniosvCtrl.Runner.Recording

/-!
# A driver that is killed

Whatever a driver was doing when it was killed, every row that was recorded before is to be in the
CSV, unchanged. The CSV is rewritten from its first byte after every run, so what counts is how
much of it had arrived.

* `Prints` — a file that shows the rows, each in its place
* `contains_of_prints`, `length_of_contains` — a row is in the text once its line has arrived
* `step_inv` — the frame in memory shows all rows
* `Restored` — the condition on the kill
* `kept_iff` — the rows are in the file exactly when no write is open, or it has restored them
-/

namespace Runner

open Infra

variable {N : Numerals}

/-! ## Tables and rows -/

/-- The file shows the rows, each in its place and unchanged, and perhaps more. -/
def Prints (t : Table) (rows : List (Row N)) : Prop :=
  ∀ (n : Nat) (r : Row N), rows[n]? = some r →
    ∃ u : Name → String, t.rows[n]? = some u ∧ ∀ k, Alike N (u k) (r k).text

/-- The frame holds the rows as they were, or as its columns' types have them. -/
def Holds (f : Frame N) (rows : List (Row N)) : Prop :=
  List.Forall₂ (fun r r' : Row N => ∀ k, Alike N (r' k).text (r k).text) rows f.rows

theorem Holds.self (f : Frame N) : Holds f f.rows :=
  List.forall₂_same.mpr fun _ _ _ => Alike.refl _

/-- Adding rows to a frame changes no row that it has. -/
theorem Holds.record {f : Frame N} {rows : List (Row N)} (h : Holds f rows) (run : Run)
    (boot : Boot N) : Holds (record f run boot) (rows ++ (newRows run boot).rows) := by
  have hrows : (Runner.record f run boot).rows = (f.rows ++ (newRows run boot).rows).map
      fun r k => (r k).cast ((Runner.record f run boot).kind k) := Frame.rows_concat _ _
  rw [Holds, hrows, List.forall₂_map_right_iff]
  refine List.rel_append (h.imp fun r r' hr k => ?_) (List.forall₂_same.mpr fun r _ k => ?_)
  · exact (alike_cast _ _).trans (hr k)
  · exact alike_cast _ _

/-- So its text shows the rows that were recorded, and those that are being recorded. -/
theorem Holds.prints {f : Frame N} {rows : List (Row N)} (h : Holds f rows) :
    Prints f.toCsv rows := by
  intro n r hr
  obtain ⟨hn, rfl⟩ := List.getElem?_eq_some_iff.mp hr
  have hn' : n < f.rows.length := h.length_eq ▸ hn
  refine ⟨fun k => (f.rows[n] k).text, ?_, h.get hn hn'⟩
  show (f.rows.map _)[n]? = _
  rw [List.getElem?_map, List.getElem?_eq_getElem hn']
  rfl

theorem Prints.left {t : Table} {rows fresh : List (Row N)} (h : Prints t (rows ++ fresh)) :
    Prints t rows := by
  intro n r hr
  obtain ⟨hn, -⟩ := List.getElem?_eq_some_iff.mp hr
  exact h n r (by rw [List.getElem?_append_left hn, hr])

theorem prints_readCsv (t : Table) : Prints t (t.readCsv N).rows := by
  intro n r hr
  obtain ⟨u, hu, rfl⟩ := Option.map_eq_some_iff.mp ((List.getElem?_map ..).symm.trans hr)
  refine ⟨u, hu, fun k => ?_⟩
  exact (alike_reprint (List.mem_map_of_mem (f := (· k)) (List.mem_of_getElem? hu))).symm

/-! ## What has arrived -/

/-- The header and the first `n` rows. -/
def Table.upTo (t : Table) (n : Nat) : List Char := (t.lines.take (n + 1)).flatMap line

theorem text_eq_upTo (t : Table) (n : Nat) :
    t.text = Table.upTo t n ++ (t.lines.drop (n + 1)).flatMap line := by
  rw [Table.upTo, ← List.flatMap_append, List.take_append_drop]
  rfl

theorem length_upTo_le {t : Table} {n m : Nat} (h : n ≤ m) :
    (Table.upTo t n).length ≤ (Table.upTo t m).length := by
  have hprefix : t.lines.take (n + 1) <+: t.lines.take (m + 1) :=
    List.take_prefix_take_left (by omega)
  obtain ⟨more, hmore⟩ := hprefix
  rw [Table.upTo, Table.upTo, ← hmore, List.flatMap_append, List.length_append]
  exact Nat.le_add_right _ _

/-- A row is in the text as soon as its line is. -/
theorem contains_of_prints {t : Table} {rows : List (Row N)} (h : Prints t rows)
    {text rest : List Char} (htext : text ++ rest = t.text) {n : Nat} {r : Row N}
    (hr : rows[n]? = some r) (harrived : (Table.upTo t (n + 1)).length ≤ text.length) :
    Contains text n r := by
  obtain ⟨u, hu, halike⟩ := h n r hr
  obtain ⟨hn, rfl⟩ := List.getElem?_eq_some_iff.mp hu
  have hlines : t.lines.take (n + 2) =
      t.columns :: (t.rows.take n).map (fun r => t.columns.map r) ++ [t.columns.map t.rows[n]] := by
    rw [Table.lines, List.take_succ_cons, ← List.map_take, List.take_succ_eq_append_getElem hn,
      List.map_append]
    rfl
  have hprefix : Table.upTo t (n + 1) <+: text := by
    refine List.prefix_of_prefix_length_le ?_ ⟨rest, htext⟩ harrived
    exact ⟨_, (text_eq_upTo t (n + 1)).symm⟩
  obtain ⟨after, hafter⟩ := hprefix
  rw [Table.upTo, hlines] at hafter
  refine ⟨_, _, _, after, hafter.symm, ?_, ?_, fun k hk => ?_⟩
  · rw [List.length_map, List.length_take, Nat.min_eq_left (Nat.le_of_lt hn)]
  · rw [List.forall₂_map_right_iff]
    exact List.forall₂_same.mpr fun k _ => halike k
  · have hempty := halike k
    rw [t.absent k hk _ (List.getElem_mem hn)] at hempty
    rcases hempty with he | ⟨x, hx, -⟩
    · exact he.symm
    · rw [N.realOf_empty] at hx
      cases hx

/-- And no sooner. -/
theorem length_of_contains {t : Table} {text rest : List Char} (htext : text ++ rest = t.text)
    {n : Nat} (hn : n < t.rows.length) {r : Row N} (h : Contains text n r) :
    (Table.upTo t (n + 1)).length ≤ text.length := by
  obtain ⟨columns, before, cells, after, rfl, hbefore, -, -⟩ := h
  have hsplit := text_eq_upTo t (n + 1)
  have hlength : (columns :: before ++ [cells]).length = (t.lines.take (n + 2)).length := by
    rw [List.length_take, Table.lines, List.length_cons, List.length_map,
      Nat.min_eq_left (by omega), List.length_append, List.length_cons, hbefore]
    rfl
  have hrest := rest_eq_of_lines hlength ((List.append_assoc ..).symm.trans (htext.trans hsplit))
  have hlen := congrArg List.length (htext.trans hsplit)
  have hrest := congrArg List.length hrest
  simp only [List.length_append] at hlen hrest ⊢
  omega

/-! ## The driver -/

namespace Recording

variable {s t : Recording N} {ev : Event N} {l : List (Event N)}

/-- The rows of an open write. -/
def fresh (s : Recording N) : List (Row N) := s.write.elim [] Write.fresh

/-- What holds of a driver and its CSV until the driver ends. -/
structure Inv (s : Recording N) : Prop where
  holds : ∀ p, s.live = some p → Holds p.df (s.recorded ++ s.fresh)
  /-- No write is open: the file is a whole text. -/
  closed : s.live ≠ none → s.write = none →
    s.recorded = [] ∨ ∃ t : Table, s.disk = some t.text ∧ Prints t s.recorded
  /-- A write is open: what has arrived and what has not are the frame's text. -/
  opened : ∀ w, s.write = some w →
    ∃ p text, s.live = some p ∧ s.disk = some text ∧ text ++ w.rest = p.df.toCsv.text

theorem inv_init (sw : Sweep) (file : Option Table) : Inv (init sw file : Recording N) := by
  refine ⟨fun p hp => ?_, fun _ _ => ?_, nofun⟩
  · obtain rfl := Option.some_inj.mp hp
    rw [fresh, init, Option.elim_none, List.append_nil]
    cases file with
    | none => exact Holds.self _
    | some t => exact Holds.self _
  · cases file with
    | none => exact Or.inl rfl
    | some t => exact Or.inr ⟨t, rfl, prints_readCsv t⟩

theorem step_inv (h : Inv s) (hstep : Step s ev t) : Inv t := by
  cases hstep with
  | @skip disk recorded p run _ _ =>
    refine ⟨fun p' hp => ?_, fun _ => h.closed (Option.some_ne_none p), nofun⟩
    obtain rfl := Option.some_inj.mp hp
    exact h.holds p rfl
  | @truncate disk recorded p run boot valid _ _ =>
    -- the file is opened for writing, and so empty, until all of the text has arrived
    have hholds := h.holds p rfl
    rw [fresh, Option.elim_none, List.append_nil] at hholds
    refine ⟨fun p' hp => ?_, fun _ hw => (by cases hw), fun w hw => ?_⟩
    · obtain rfl := Option.some_inj.mp hp
      exact hholds.record run boot
    · obtain rfl := Option.some_inj.mp hw
      exact ⟨_, _, rfl, rfl, List.nil_append _⟩
  | @arrive text recorded fresh p piece rest _ =>
    refine ⟨h.holds, fun _ hw => (by cases hw), fun w hw => ?_⟩
    obtain rfl := Option.some_inj.mp hw
    obtain ⟨p', text', hp, htext, hrest⟩ := h.opened _ rfl
    obtain rfl := Option.some_inj.mp hp
    obtain rfl := Option.some_inj.mp htext
    exact ⟨p, _, rfl, rfl, (List.append_assoc ..).trans hrest⟩
  | @close disk recorded fresh p =>
    obtain ⟨p', text, hp, htext, hrest⟩ := h.opened _ rfl
    obtain rfl := Option.some_inj.mp hp
    have hholds : Holds p.df (recorded ++ fresh) := h.holds p rfl
    refine ⟨fun p' hp => ?_, fun _ _ => Or.inr ⟨p.df.toCsv, ?_, hholds.prints⟩, nofun⟩
    · obtain rfl := Option.some_inj.mp hp
      rw [Recording.fresh, Option.elim_none, List.append_nil]
      exact hholds
    · rw [← hrest, List.append_nil]
      exact htext
  | raise _ _ => exact ⟨nofun, fun hlive => absurd rfl hlive, nofun⟩
  | exit _ => exact ⟨nofun, fun hlive => absurd rfl hlive, nofun⟩
  | kill => exact ⟨nofun, fun hlive => absurd rfl hlive, nofun⟩

theorem run_inv {sw : Sweep} {file : Option Table} (hrun : Infra.Run Step (init sw file) l s) :
    Inv s :=
  hrun.invariant (inv_init sw file) fun _ _ _ h hstep => step_inv h hstep

/--
No write is open, or there was nothing recorded to lose, or what has arrived reaches to the end of
the last row that was recorded before.
-/
def Restored (s : Recording N) : Prop :=
  ∀ p w text, s.live = some p → s.write = some w → s.disk = some text →
    s.recorded = [] ∨ (Table.upTo p.df.toCsv s.recorded.length).length ≤ text.length

theorem Inv.kept_iff_restored (h : Inv s) (hlive : s.live ≠ none) : s.Kept ↔ s.Restored := by
  obtain ⟨disk, recorded, live, write⟩ := s
  cases write with
  | none =>
    refine ⟨fun _ _ _ _ _ hw => (by cases hw), fun _ n r hr => ?_⟩
    rcases h.closed hlive rfl with hnil | ⟨t, hdisk, hprints⟩
    · have hr : recorded[n]? = some r := hr
      rw [show recorded = [] from hnil] at hr
      cases hr
    · refine ⟨_, hdisk, contains_of_prints hprints (List.append_nil _) hr ?_⟩
      rw [text_eq_upTo t (n + 1), List.length_append]
      exact Nat.le_add_right _ _
  | some w =>
    obtain ⟨p, text, hp, hdisk, hrest⟩ := h.opened w rfl
    obtain rfl : live = some p := hp
    obtain rfl : disk = some text := hdisk
    have hholds : Holds p.df (recorded ++ w.fresh) := h.holds p rfl
    have hprints : Prints p.df.toCsv recorded := hholds.prints.left
    constructor
    · intro hkept p' w' text' hp hw htext
      obtain rfl := Option.some_inj.mp hp
      obtain rfl := Option.some_inj.mp htext
      show recorded = [] ∨ (Table.upTo p.df.toCsv recorded.length).length ≤ text.length
      cases hn : recorded.length with
      | zero => exact Or.inl (List.length_eq_zero_iff.mp hn)
      | succ n =>
        -- the last of the rows stands at the end
        obtain ⟨text', htext, hcontains⟩ :=
          hkept n recorded[n] (List.getElem?_eq_getElem (l := recorded) (by omega))
        obtain rfl := Option.some_inj.mp htext
        have hlength : p.df.toCsv.rows.length = (recorded ++ w.fresh).length := by
          show (p.df.rows.map _).length = _
          rw [List.length_map, hholds.length_eq]
        rw [List.length_append] at hlength
        exact Or.inr (length_of_contains hrest (by omega) hcontains)
    · intro hrestored n r hr
      have hr : recorded[n]? = some r := hr
      refine ⟨text, rfl, contains_of_prints hprints hrest hr ?_⟩
      obtain ⟨hn, -⟩ := List.getElem?_eq_some_iff.mp hr
      rcases hrestored p w text rfl rfl rfl with hnil | harrived
      · have hnil : recorded = [] := hnil
        rw [hnil] at hn
        exact absurd hn (Nat.not_lt_zero n)
      · exact (length_upTo_le (m := recorded.length) (by omega)).trans harrived

/--
**At whatever point a driver is killed, the CSV holds every row that was recorded before, exactly
when no write is open, or the open write has put all of them back.**
-/
theorem kept_iff {sw : Sweep} {file : Option Table} (hrun : Infra.Run Step (init sw file) l s)
    (hkill : Step s .kill t) : t.Kept ↔ s.Restored := by
  cases hkill with
  | kill => exact (run_inv hrun).kept_iff_restored (Option.some_ne_none _)

/-! ## Two reps -/

/-- The driver of two reps, before its first run and after it. -/
def twoReps : Process Numerals.whole := Process.start (pointSweep "r6in.8xlarge" 2) none

def firstRep : Run := (pointSweep "r6in.8xlarge" 2).run (.int 64) 1

def secondRep : Run := (pointSweep "r6in.8xlarge" 2).run (.int 64) 2

/-- The CSV is opened for a run's rows. -/
theorem truncate_of {disk : Option (List Char)} {recorded : List (Row Numerals.whole)}
    {p : Process Numerals.whole} (run : Run) (boot : Boot Numerals.whole) (valid : Bool)
    (htodo : p.todo.head? = some run) (hdone : done p.df run = false) :
    Step ⟨disk, recorded, some p, none⟩ (.truncate run boot valid)
      ⟨some [], recorded, some (p.record run boot valid),
        some ⟨(newRows run boot).rows, (p.record run boot valid).csv.table.text⟩⟩ :=
  .truncate htodo hdone

/-- The first rep is recorded: its text arrives as one piece. -/
theorem run_firstRep :
    ∃ l, Infra.Run Step (init (pointSweep "r6in.8xlarge" 2) none) l
      ⟨some (twoReps.record firstRep oneRow true).csv.table.text, (newRows firstRep oneRow).rows,
        some (twoReps.record firstRep oneRow true), none⟩ := by
  have hne : (twoReps.record firstRep oneRow true).csv.table.text ≠ [] := by
    rw [text_eq_upTo _ 0]
    exact List.append_ne_nil_of_left_ne_nil (by simp [Table.upTo, Table.lines, line]) _
  have h₁ : Infra.Run Step (init (pointSweep "r6in.8xlarge" 2) none) _
      ⟨some [], [], some (twoReps.record firstRep oneRow true),
        some ⟨(newRows firstRep oneRow).rows,
          (twoReps.record firstRep oneRow true).csv.table.text⟩⟩ :=
    Infra.Run.single (truncate_of firstRep oneRow true rfl rfl)
  rw [← List.append_nil (twoReps.record firstRep oneRow true).csv.table.text] at h₁
  have h₂ := (h₁.snoc (Step.arrive hne)).snoc Step.close
  rw [List.nil_append] at h₂
  exact ⟨_, h₂⟩

/-- A driver that is killed between its runs leaves the row of the first. -/
theorem kept_iff_between :
    ∃ (l : List (Event Numerals.whole)) (s t : Recording Numerals.whole),
      Infra.Run Step (init (pointSweep "r6in.8xlarge" 2) none) l s ∧ Step s .kill t ∧
      t.recorded.length = 1 ∧ t.Kept := by
  obtain ⟨l, h⟩ := run_firstRep
  refine ⟨l, _, _, h, Step.kill, rfl, (kept_iff h Step.kill).mpr ?_⟩
  intro p w text _ hw _
  cases hw

/-- Killed right after it opened the CSV for the second rep, it leaves an empty file. -/
theorem lost_in_write :
    ∃ (l : List (Event Numerals.whole)) (s t : Recording Numerals.whole),
      Infra.Run Step (init (pointSweep "r6in.8xlarge" 2) none) l s ∧ Step s .kill t ∧
      t.recorded.length = 1 ∧ t.disk = some [] ∧ ¬ t.Kept := by
  obtain ⟨l, h⟩ := run_firstRep
  have hdone : done (twoReps.record firstRep oneRow true).df secondRep = false := by
    decide
  have h₂ := h.snoc (truncate_of secondRep oneRow true rfl hdone)
  refine ⟨_, _, _, h₂, Step.kill, rfl, rfl, fun hkept => ?_⟩
  obtain ⟨text, htext, columns, before, cells, rest, happend, -⟩ := hkept 0 _ rfl
  obtain rfl := Option.some_inj.mp htext
  have hlength := congrArg List.length happend
  simp [line] at hlength

end Recording

end Runner
