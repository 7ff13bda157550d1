import MiniosvCtrl.Runner.Sweep

/-!
# The rows of a CSV, from a record to the next read

What `record` and a write and a read do to the cells that `done` looks at.

* `mem_rows_record` — the rows after a record are the rows before it and the boot's
* `cast_kind_record` — the rows before it keep what `done` looks at
* `Found` — the columns of the CSV, as they will be typed, tell the run's own texts
* `done_record_iff`, `done_reread_of_found`, `found_of_done_reread`
-/

namespace Runner

open Infra

variable {N : Numerals} {df : Frame N} {run other : Run} {boot : Boot N}

namespace Run

/-- The columns that `done` looks at. -/
def lookedAt (run : Run) : List Name := run.keys.map Prod.fst ++ run.cfg.map Prod.fst

theorem mem_lookedAt_of_keys {kv : Name × Value} (h : kv ∈ run.keys) : kv.1 ∈ run.lookedAt :=
  List.mem_append_left _ (List.mem_map_of_mem h)

theorem mem_lookedAt_of_cfg {kv : Name × Value} (h : kv ∈ run.cfg) : kv.1 ∈ run.lookedAt :=
  List.mem_append_right _ (List.mem_map_of_mem h)

theorem mem_cfg_of_others {kv : Name × Value} (h : kv ∈ run.others) : kv ∈ run.cfg :=
  List.mem_of_mem_filter h

theorem recorded_keys {kv : Name × Value} (h : kv ∈ run.keys) (own : Row N) :
    run.recorded own kv.1 = kv.2.cell := by
  rcases List.mem_cons.mp h with rfl | h
  · rfl
  rcases List.mem_cons.mp h with rfl | h
  · rfl
  rcases List.mem_cons.mp h with rfl | h
  · rfl
  · exact absurd h List.not_mem_nil

theorem recorded_cfg {kv : Name × Value} (h : kv ∈ run.cfg) (own : Row N) :
    run.recorded own kv.1 =
      if kv.1 = "query" ∧ own kv.1 ≠ .missing then own kv.1 else kv.2.cell := by
  have hmain : ∀ k ∈ mainColumns, kv.1 ≠ k := fun k hk he => run.not_main kv h (he ▸ hk)
  rw [recorded, if_neg (hmain "instance" (by decide)), if_neg (hmain "axis" (by decide)),
    if_neg (hmain "axis_value" (by decide)), if_neg (hmain "rep" (by decide)),
    lookup_of_mem run.nodup h]

end Run

theorem Value.solid_cell (v : Value) : (v.cell : Cell N).Solid := by
  cases v with
  | int n => exact Or.inl rfl
  | str t => exact Or.inr rfl

/-- Integers and texts are recorded wherever `done` looks. -/
theorem solid_recorded {own : Row N} (hown : own ∈ boot.rows) {k : Name} (hk : k ∈ run.lookedAt) :
    (run.recorded own k).Solid := by
  rcases List.mem_append.mp hk with h | h
  · obtain ⟨kv, hkv, rfl⟩ := List.mem_map.mp h
    rw [Run.recorded_keys hkv]
    exact kv.2.solid_cell
  · obtain ⟨kv, hkv, rfl⟩ := List.mem_map.mp h
    rw [Run.recorded_cfg hkv]
    split
    · rename_i hq
      rcases boot.query own hown with hm | ⟨q, hq'⟩
      · exact absurd (hq.1 ▸ hm) hq.2
      · rw [hq.1, hq']
        exact Or.inl rfl
    · exact kv.2.solid_cell

theorem mem_columns_newRows {k : Name} (hk : k ∈ run.lookedAt) (boot : Boot N) :
    k ∈ (newRows run boot).columns := by
  refine List.mem_dedup.mpr ?_
  rcases List.mem_append.mp hk with h | h
  · have hmain : ∀ k ∈ run.keys.map Prod.fst, k ∈ mainColumns := by
      show ∀ k ∈ ["axis", "axis_value", "rep"], k ∈ mainColumns
      decide
    exact List.mem_append_left _ (List.mem_append_right _ (hmain k h))
  · exact List.mem_append_right _ h

/-- The boot's rows, where `done` looks. -/
theorem rows_newRows (run : Run) (boot : Boot N) :
    ∃ row : Row N → Row N, (newRows run boot).rows = boot.rows.map row ∧
      ∀ own ∈ boot.rows, ∀ k ∈ run.lookedAt, row own k = run.recorded own k := by
  let columns := (boot.columns ++ mainColumns ++ run.cfg.map Prod.fst).dedup
  let raw := (boot.rows.map run.recorded).map fun r k => if k ∈ columns then r k else .missing
  refine ⟨fun own k => (if k ∈ columns then run.recorded own k else .missing).cast
    (kindOf (raw.map (· k))), ?_, fun own hown k hk => ?_⟩
  · show retype raw = _
    simp only [retype, raw, List.map_map]
    rfl
  · have hcolumn : k ∈ columns := mem_columns_newRows hk boot
    have hsolid : ∀ c ∈ raw.map (· k), c.Solid := by
      intro c hc
      obtain ⟨r, hr, rfl⟩ := List.mem_map.mp hc
      obtain ⟨r', hr', rfl⟩ := List.mem_map.mp hr
      obtain ⟨own', hown', rfl⟩ := List.mem_map.mp hr'
      show (if k ∈ columns then run.recorded own' k else .missing).Solid
      rw [if_pos hcolumn]
      exact solid_recorded hown' hk
    show (if k ∈ columns then run.recorded own k else .missing).cast _ = _
    rw [if_pos hcolumn, Cell.cast_of_ne_reals (kindOf_ne_reals hsolid)]

/-! ## After a record -/

theorem columns_record_of_mem {k : Name} (h : k ∈ df.columns) (run : Run) (boot : Boot N) :
    k ∈ (record df run boot).columns :=
  List.mem_append_left _ h

theorem lookedAt_columns_record {k : Name} (hk : k ∈ run.lookedAt) (df : Frame N) (boot : Boot N) :
    k ∈ (record df run boot).columns := by
  by_cases h : k ∈ df.columns
  · exact columns_record_of_mem h run boot
  · exact List.mem_append_right _
      (List.mem_filter.mpr ⟨mem_columns_newRows hk boot, by simpa using h⟩)

/-- The rows after a record are the rows before it and the boot's, typed anew. -/
theorem mem_rows_record {r : Row N} :
    r ∈ (record df run boot).rows ↔
      (∃ r₀ ∈ df.rows, r = fun k => (r₀ k).cast ((record df run boot).kind k)) ∨
      ∃ r₁ ∈ (newRows run boot).rows, r = fun k => (r₁ k).cast ((record df run boot).kind k) := by
  have hrows : (record df run boot).rows = (df.rows ++ (newRows run boot).rows).map
      fun r k => (r k).cast ((record df run boot).kind k) := Frame.rows_concat _ _
  rw [hrows, List.map_append, List.mem_append, List.mem_map, List.mem_map]
  constructor
  · rintro (⟨r₀, hr₀, rfl⟩ | ⟨r₁, hr₁, rfl⟩)
    · exact Or.inl ⟨r₀, hr₀, rfl⟩
    · exact Or.inr ⟨r₁, hr₁, rfl⟩
  · rintro (⟨r₀, hr₀, rfl⟩ | ⟨r₁, hr₁, rfl⟩)
    · exact Or.inl ⟨r₀, hr₀, rfl⟩
    · exact Or.inr ⟨r₁, hr₁, rfl⟩

/-- A record leaves the cells that `done` looks at for the new run. -/
theorem cast_kind_record {r₀ : Row N} (hr₀ : r₀ ∈ df.rows) {k : Name} (hk : k ∈ run.lookedAt)
    (boot : Boot N) : (r₀ k).cast ((record df run boot).kind k) = r₀ k := by
  obtain ⟨row, hrows, hrow⟩ := rows_newRows run boot
  rw [record, Frame.kind_concat]
  refine cast_kindOf_append ?_ (List.mem_map_of_mem (f := (· k)) hr₀) (df.typed k r₀ hr₀)
  intro c hc
  obtain ⟨r, hr, rfl⟩ := List.mem_map.mp hc
  rw [hrows] at hr
  obtain ⟨own, hown, rfl⟩ := List.mem_map.mp hr
  show (row own k).Solid
  rw [hrow own hown k hk]
  exact solid_recorded hown hk

/-! ## Cells that equal a value -/

theorem eqValue_cast {c : Cell N} {v : Value} (h : eqValue c v = true) (k : Kind) :
    eqValue (c.cast k) v = true := by
  cases k with
  | ints => exact h
  | object => exact h
  | reals =>
    cases c with
    | int n =>
      cases v with
      | int m =>
        obtain rfl : n = m := by simpa [eqValue] using h
        simp [Cell.cast, eqValue]
      | str t => simp [eqValue] at h
    | real x => exact h
    | str t => exact h
    | missing => exact h

theorem eqValue_cell (v : Value) : eqValue (v.cell : Cell N) v = true := by
  cases v <;> simp [Value.cell, eqValue]

/-- A value of this type is told apart from nothing when a column of this dtype is read. -/
def Value.ReadFrom (v : Value) (k : Kind) : Prop :=
  match v with
  | .int _ => k ≠ .object
  | .str t => t ≠ "" ∧ k = .object

instance (v : Value) (k : Kind) : Decidable (v.ReadFrom k) :=
  match v with
  | .int _ => inferInstanceAs (Decidable (k ≠ .object))
  | .str t => inferInstanceAs (Decidable (t ≠ "" ∧ k = .object))

theorem readFrom_of_eqValue {k : Kind} {t : String} {v : Value}
    (h : eqValue (readCell N k t) v = true) : v.ReadFrom k := by
  by_cases ht : t = ""
  · rw [ht, readCell_empty] at h
    cases v <;> cases h
  cases v with
  | int n =>
    rintro rfl
    simp [readCell, ht, eqValue] at h
  | str u =>
    cases k with
    | ints => cases hi : N.intOf t <;> simp [readCell, ht, hi, eqValue] at h
    | reals => cases hr : N.realOf t <;> simp [readCell, ht, hr, eqValue] at h
    | object =>
      obtain rfl : t = u := by simpa [readCell, ht, eqValue] using h
      exact ⟨ht, rfl⟩

theorem eqValue_readCell {l : List String} {c : Cell N} {v : Value} (hc : c.text ∈ l)
    (h : eqValue c v = true) (hv : v.ReadFrom (fileKind N l)) :
    eqValue (readCell N (fileKind N l) c.text) v = true := by
  cases v with
  | int n =>
    cases hk : fileKind N l with
    | object => exact absurd hk hv
    | ints =>
      obtain ⟨m, hm⟩ := Option.isSome_iff_exists.mp (fileKind_eq_ints_iff.mp hk c.text hc)
      cases c with
      | int m' =>
        obtain rfl : m' = n := by simpa [eqValue] using h
        show eqValue (readCell N .ints (toString m')) _ = true
        rw [readCell_ints (N.intOf_toString m')]
        exact h
      | real x =>
        rw [show (Cell.real x).text = N.showReal x from rfl, N.intOf_showReal] at hm
        cases hm
      | str t => simp [eqValue] at h
      | missing => simp [eqValue] at h
    | reals =>
      cases c with
      | int m =>
        obtain rfl : m = n := by simpa [eqValue] using h
        show eqValue (readCell N .reals (toString m)) _ = true
        rw [readCell_reals (N.realOf_toString m)]
        simp [eqValue]
      | real x =>
        show eqValue (readCell N .reals (N.showReal x)) _ = true
        rw [readCell_reals (N.realOf_showReal x)]
        exact h
      | str t => simp [eqValue] at h
      | missing => simp [eqValue] at h
  | str u =>
    obtain ⟨hu, hk⟩ := hv
    cases c with
    | str t =>
      obtain rfl : t = u := by simpa [eqValue] using h
      rw [hk]
      simp [Cell.text, readCell, hu, eqValue]
    | int m => simp [eqValue] at h
    | real x => simp [eqValue] at h
    | missing => simp [eqValue] at h

/-! ## What `done` finds -/

/-- The columns, as a later process will type them, tell the run's own texts. -/
structure Found (f : Frame N) (run : Run) : Prop where
  keys : ∀ kv ∈ run.keys, kv.2.ReadFrom (f.laterKind kv.1)
  knobs : ∀ kv ∈ run.others, reprint N (f.laterKind kv.1) kv.2.text = kv.2.text

/--
A row of the boot has every knob's own text in memory: no integer of the point became a float, and
the row is not for another query than the point's.
-/
def Kept (f : Frame N) (run : Run) (boot : Boot N) : Prop :=
  ∃ own ∈ boot.rows, ∀ kv ∈ run.others,
    ((run.recorded own kv.1).cast (f.kind kv.1)).text = kv.2.text

theorem done_record_of_kept (h : Kept (record df run boot) run boot) :
    done (record df run boot) run = true := by
  obtain ⟨own, hown, hknobs⟩ := h
  obtain ⟨row, hrows, hrow⟩ := rows_newRows run boot
  have hmem : row own ∈ (newRows run boot).rows := hrows ▸ List.mem_map_of_mem hown
  refine done_iff.mpr ⟨_, mem_rows_record.mpr (Or.inr ⟨row own, hmem, rfl⟩), ?_, ?_⟩
  · intro kv hkv
    show eqValue ((row own kv.1).cast _) kv.2 = true
    rw [hrow own hown kv.1 (Run.mem_lookedAt_of_keys hkv), Run.recorded_keys hkv]
    exact eqValue_cast (eqValue_cell kv.2) _
  · intro kv hkv _
    show ((row own kv.1).cast _).text = kv.2.text
    rw [hrow own hown kv.1 (Run.mem_lookedAt_of_cfg (Run.mem_cfg_of_others hkv))]
    exact hknobs kv hkv

/-- In memory, a run that was not there before is found by its own rows only. -/
theorem done_record_iff (hnew : done df run = false) :
    done (record df run boot) run = true ↔ Kept (record df run boot) run boot := by
  refine ⟨fun h => ?_, done_record_of_kept⟩
  obtain ⟨r, hr, hkeys, hknobs⟩ := done_iff.mp h
  rcases mem_rows_record.mp hr with ⟨r₀, hr₀, rfl⟩ | ⟨r₁, hr₁, rfl⟩
  · have hold : done df run = true := by
      refine done_iff.mpr ⟨r₀, hr₀, fun kv hkv => ?_, fun kv hkv hcol => ?_⟩
      · rw [← cast_kind_record hr₀ (Run.mem_lookedAt_of_keys hkv) boot]
        exact hkeys kv hkv
      · rw [← cast_kind_record hr₀ (Run.mem_lookedAt_of_cfg (Run.mem_cfg_of_others hkv)) boot]
        exact hknobs kv hkv (columns_record_of_mem hcol run boot)
    rw [hnew] at hold
    cases hold
  · obtain ⟨row, hrows, hrow⟩ := rows_newRows run boot
    rw [hrows] at hr₁
    obtain ⟨own, hown, rfl⟩ := List.mem_map.mp hr₁
    refine ⟨own, hown, fun kv hkv => ?_⟩
    have hlooked := Run.mem_lookedAt_of_cfg (Run.mem_cfg_of_others hkv)
    rw [← hrow own hown kv.1 hlooked]
    exact hknobs kv hkv (lookedAt_columns_record hlooked df boot)

theorem text_mem_laterKind {f : Frame N} {r : Row N} (hr : r ∈ f.rows) (k : Name) :
    (r k).text ∈ f.rows.map fun r => (r k).text :=
  List.mem_map_of_mem (f := fun r : Row N => (r k).text) hr

theorem done_reread_of_found {f : Frame N} (h : done f run = true) (hfound : Found f run) :
    done f.reread run = true := by
  obtain ⟨r, hr, hkeys, hknobs⟩ := done_iff.mp h
  refine done_iff.mpr ⟨fun k => readCell N (f.laterKind k) (r k).text, ?_, ?_, ?_⟩
  · rw [Frame.rows_reread]
    exact List.mem_map_of_mem (f := fun (r : Row N) k => readCell N (f.laterKind k) (r k).text) hr
  · intro kv hkv
    have hread := hfound.keys kv hkv
    show eqValue (readCell N (f.laterKind kv.1) (r kv.1).text) kv.2 = true
    rw [Frame.laterKind_eq] at hread ⊢
    exact eqValue_readCell (text_mem_laterKind hr kv.1) (hkeys kv hkv) hread
  · intro kv hkv hcol
    show reprint N (f.laterKind kv.1) (r kv.1).text = kv.2.text
    rw [hknobs kv hkv hcol]
    exact hfound.knobs kv hkv

theorem found_of_done_reread {f : Frame N} (h : done f.reread run = true)
    (hcols : ∀ kv ∈ run.others, kv.1 ∈ f.columns) : Found f run := by
  obtain ⟨r', hr', hkeys, hknobs⟩ := done_iff.mp h
  rw [Frame.rows_reread] at hr'
  obtain ⟨r, hr, rfl⟩ := List.mem_map.mp hr'
  refine ⟨fun kv hkv => readFrom_of_eqValue (hkeys kv hkv), fun kv hkv => ?_⟩
  have htext : reprint N (f.laterKind kv.1) (r kv.1).text = kv.2.text :=
    hknobs kv hkv (hcols kv hkv)
  rw [← htext, reprint_reprint]

end Runner
