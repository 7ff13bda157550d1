import MiniosvCtrl.Properties.Expansion

/-!
# Templates of plain fields

A template whose fields are names alone, such as a note, is filled with the values as they print.
In an interleaved experiment the axis prints as the values of the whole group, which is longer
than any one of them.

* `Plain`, `Names` — what a template says
* `alike_iff` — when the driver's table makes of a template what the point does
-/

namespace Experiment

open Infra Runner File

variable {tails : Tails} {k k' : Name → Option Value} {axis : Name}

/-- Every field is a name. -/
def Plain (template : String) : Prop :=
  ∀ pieces, scan .text template.toList = some pieces →
    ∀ name tail, .field name tail ∈ pieces → tail = []

/-- A field has the name. -/
def Names (template : String) (name : Name) : Prop :=
  ∃ pieces, scan .text template.toList = some pieces ∧ ∃ tail, .field name tail ∈ pieces

theorem format_eq_some {template t : String} (h : format tails template k = some t) :
    ∃ pieces filled, scan .text template.toList = some pieces ∧
      pieces.mapM (·.fill tails k) = some filled ∧ t = String.ofList filled.flatten := by
  unfold format at h
  cases hscan : scan .text template.toList with
  | none =>
    rw [hscan] at h
    cases h
  | some pieces =>
    cases hfill : pieces.mapM (·.fill tails k) with
    | none =>
      rw [hscan] at h
      simp [hfill] at h
    | some filled =>
      rw [hscan] at h
      simp only [Option.bind_eq_bind, Option.bind_some, hfill, Option.some_inj] at h
      exact ⟨pieces, filled, rfl, hfill, h.symm⟩

/-- Knobs that differ in the axis fill what does not name it alike. -/
theorem fill_congr (hsame : ∀ n, n ≠ axis → k n = k' n) {piece : Piece}
    (hname : ∀ tail, piece ≠ .field axis tail) (hplain : ∀ n tail, piece = .field n tail → tail = []) :
    piece.fill tails k = piece.fill tails k' := by
  cases piece with
  | char c => rfl
  | field n tail =>
    obtain rfl := hplain n tail rfl
    have hne : n ≠ axis := fun h => hname [] (h ▸ rfl)
    rw [Piece.fill, Piece.fill, hsame n hne]
    rfl

theorem fill_field {v : Value} (hv : k axis = some v) {f : List Char}
    (h : (Piece.field axis []).fill tails k = some f) : f = v.text.toList := by
  rw [Piece.fill, hv] at h
  split at h
  · cases h
  · simpa using h.symm

/-- A longer value fills a template longer. -/
theorem length_le (hsame : ∀ n, n ≠ axis → k n = k' n) {v w : Value} (hv : k axis = some v)
    (hw : k' axis = some w) (hlt : v.text.toList.length < w.text.toList.length)
    {pieces : List Piece} (hplain : ∀ n tail, .field n tail ∈ pieces → tail = [])
    {a b : List (List Char)} (ha : pieces.mapM (·.fill tails k) = some a)
    (hb : pieces.mapM (·.fill tails k') = some b) :
    a.flatten.length ≤ b.flatten.length ∧
      ((∃ tail, .field axis tail ∈ pieces) → a.flatten.length < b.flatten.length) := by
  rw [mapM_eq_some_iff] at ha hb
  induction pieces generalizing a b with
  | nil =>
    obtain rfl : a = [] := by simpa using ha.symm
    exact ⟨Nat.zero_le _, fun h => by simp at h⟩
  | cons piece pieces ih =>
    cases a with
    | nil => cases ha
    | cons f a =>
    cases b with
    | nil => cases hb
    | cons f' b =>
    obtain ⟨hf, ha⟩ := List.cons.inj ha
    obtain ⟨hf', hb⟩ := List.cons.inj hb
    have hrest := ih (fun n tail h => hplain n tail (List.mem_cons_of_mem _ h)) ha hb
    rw [List.flatten_cons, List.flatten_cons, List.length_append, List.length_append]
    -- only the axis' own field is longer, every other piece is filled alike
    by_cases hname : ∃ tail, piece = .field axis tail
    · obtain ⟨tail, rfl⟩ := hname
      obtain rfl := hplain axis tail List.mem_cons_self
      rw [fill_field hv hf, fill_field hw hf']
      exact ⟨by omega, fun _ => by omega⟩
    · have halike : piece.fill tails k = piece.fill tails k' :=
        fill_congr hsame (fun tail h => hname ⟨tail, h⟩)
          fun n tail h => hplain n tail (h ▸ List.mem_cons_self)
      obtain rfl : f = f' := Option.some_inj.mp (hf.symm.trans (halike.trans hf'))
      refine ⟨by omega, fun ⟨tail, h⟩ => ?_⟩
      have hin := (List.mem_cons.mp h).resolve_left fun h => hname ⟨tail, h.symm⟩
      have := hrest.2 ⟨tail, hin⟩
      omega

theorem format_congr {template : String} (hplain : Plain template)
    (hsame : ∀ n, n ≠ axis → k n = k' n)
    (haxis : ¬ Names template axis ∨ (k axis).map Value.text = (k' axis).map Value.text) :
    format tails template k = format tails template k' := by
  unfold format
  cases hscan : scan .text template.toList with
  | none => rfl
  | some pieces =>
    have hfill : ∀ piece ∈ pieces, piece.fill tails k = piece.fill tails k' := by
      intro piece hpiece
      by_cases hname : ∃ tail, piece = .field axis tail
      · obtain ⟨tail, rfl⟩ := hname
        obtain rfl := hplain pieces hscan axis tail hpiece
        have htext := haxis.resolve_left fun h => h ⟨pieces, hscan, [], hpiece⟩
        rw [Piece.fill, Piece.fill]
        cases hk : k axis <;> cases hk' : k' axis <;> simp_all
      · exact fill_congr hsame (fun tail h => hname ⟨tail, h⟩)
          fun n tail h => hplain pieces hscan n tail (h ▸ hpiece)
    have hmap : pieces.mapM (·.fill tails k) = pieces.mapM (·.fill tails k') := by
      refine Option.ext fun filled => ?_
      rw [mapM_eq_some_iff, mapM_eq_some_iff, List.map_congr_left hfill]
    simp only [Option.bind_eq_bind, Option.bind_some, hmap]

/-- A longer value shows wherever the axis is named. -/
theorem alike_iff_of_lt {template : String} (hplain : Plain template)
    (hsame : ∀ n, n ≠ axis → k n = k' n) {v w : Value} (hv : k axis = some v)
    (hw : k' axis = some w) (hlt : v.text.toList.length < w.text.toList.length) :
    (∃ t, format tails template k = some t ∧ format tails template k' = some t) ↔
      format tails template k ≠ none ∧ ¬ Names template axis := by
  constructor
  · rintro ⟨t, ht, ht'⟩
    refine ⟨ht ▸ Option.some_ne_none t, fun ⟨pieces, hscan, tail, hfield⟩ => ?_⟩
    obtain ⟨ps, a, hps, ha, rfl⟩ := format_eq_some ht
    obtain ⟨ps', b, hps', hb, he⟩ := format_eq_some ht'
    obtain rfl := Option.some_inj.mp (hps.symm.trans hscan)
    obtain rfl := Option.some_inj.mp (hps'.symm.trans hscan)
    have hlength := (length_le hsame hv hw hlt (hplain ps' hps') ha hb).2 ⟨tail, hfield⟩
    rw [String.ofList_inj.mp he] at hlength
    exact lt_irrefl _ hlength
  · rintro ⟨hne, hnames⟩
    obtain ⟨t, ht⟩ := Option.ne_none_iff_exists'.mp hne
    exact ⟨t, ht, (format_congr hplain hsame (Or.inl hnames)).symm.trans ht⟩

/-! ## The values of a group -/

theorem length_le_intercalate_cons (t : List Char) (ts : List (List Char)) :
    t.length + ts.length ≤ ([','].intercalate (t :: ts)).length := by
  induction ts generalizing t with
  | nil => simp [List.intercalate_singleton]
  | cons u ts ih =>
    have := ih u
    rw [List.intercalate_cons_cons, List.length_append, List.length_append, List.length_singleton,
      List.length_cons]
    omega

theorem length_le_intercalate {t : List Char} {ts : List (List Char)} (h : t ∈ ts) :
    t.length + (ts.length - 1) ≤ ([','].intercalate ts).length := by
  induction ts with
  | nil => exact absurd h List.not_mem_nil
  | cons u ts ih =>
    cases ts with
    | nil =>
      obtain rfl := List.mem_singleton.mp h
      simp [List.intercalate_singleton]
    | cons u' ts =>
      rw [List.intercalate_cons_cons, List.length_append, List.length_append, List.length_singleton]
      have hcommas : ts.length ≤ ([','].intercalate (u' :: ts)).length :=
        (Nat.le_add_left _ _).trans (length_le_intercalate_cons u' ts)
      rcases List.mem_cons.mp h with rfl | h
      · simp only [List.length_cons]
        omega
      · have := ih h
        simp only [List.length_cons] at this ⊢
        omega

/-- A value is shorter than the values of its group, if there are more. -/
theorem length_lt_join {v : Value} {vs : List Value} (h : v ∈ vs) (htwo : 1 < vs.length) :
    v.text.toList.length < (join vs).toList.length := by
  have hmem : v.text.toList ∈ (vs.map Value.text).map String.toList :=
    List.mem_map_of_mem (List.mem_map_of_mem h)
  have hle := length_le_intercalate hmem
  rw [List.length_map, List.length_map] at hle
  rw [join, String.toList_intercalate]
  exact lt_of_lt_of_le (by omega) hle

namespace Stored

theorem alike_environ_iff {y : Stored} {p g : Dict} :
    (∃ env, y.environ tails p = some env ∧ y.environ tails g = some env) ↔
      ∀ kv ∈ y.env, ∃ t, (format tails kv.2.text fun k => (merge y.fixed p).lookup k) = some t ∧
        (format tails kv.2.text fun k => (merge y.fixed g).lookup k) = some t := by
  constructor
  · rintro ⟨env, hp, hg⟩ kv hkv
    have hmaps := (mapM_eq_some_iff.mp hp).trans (mapM_eq_some_iff.mp hg).symm
    have heq := List.map_inj_left.mp hmaps kv hkv
    obtain ⟨e, -, he⟩ := exists_of_mem_of_mapM hp hkv
    obtain ⟨t, ht, rfl⟩ := Option.map_eq_some_iff.mp he
    rw [he] at heq
    obtain ⟨t', ht', heq⟩ := Option.map_eq_some_iff.mp heq.symm
    obtain rfl : t' = t := (Prod.mk.inj heq).2
    exact ⟨t', ht, ht'⟩
  · intro h
    have hformat : ∀ kv ∈ y.env, ∃ t,
        (format tails kv.2.text fun k => (merge y.fixed p).lookup k) = some t := fun kv hkv =>
      (h kv hkv).imp fun _ ht => ht.1
    let f := fun kv : Name × Value =>
      (kv.1, (format tails kv.2.text fun k => (merge y.fixed p).lookup k).getD "")
    refine ⟨y.env.map f, mapM_eq_some_iff.mpr ?_, mapM_eq_some_iff.mpr ?_⟩
    · rw [List.map_map]
      refine List.map_congr_left fun kv hkv => ?_
      obtain ⟨t, ht, -⟩ := h kv hkv
      simp [f, ht]
    · rw [List.map_map]
      refine List.map_congr_left fun kv hkv => ?_
      obtain ⟨t, ht, ht'⟩ := h kv hkv
      simp [f, ht, ht']

/-- **Plain templates: a driver's are its points' exactly where the axis or its group is alone.** -/
theorem alike_iff {y : Stored} (hinter : y.interleave = true)
    (hplain : ∀ kv ∈ y.env, Plain kv.2.text) {points : List Dict}
    (hpoints : ∀ p ∈ points, p ∈ y.points) {p : Dict} (hp : p ∈ points) :
    (∃ env, y.environ tails p = some env ∧
        y.environ tails (tableOf y.toFile points p) = some env) ↔
      y.environ tails p ≠ none ∧ ((∀ kv ∈ y.env, ¬ Names kv.2.text y.axis) ∨
        (points.filter (y.groupKey · = y.groupKey p)).length = 1) := by
  let ps := points.filter (y.groupKey · = y.groupKey p)
  have hmem : p ∈ ps := List.mem_filter.mpr ⟨hp, by simp⟩
  have hn := y.nodup p (hpoints p hp)
  have htable : tableOf y.toFile points p =
      y.groupKey p ++ [(y.axis, .str (join (ps.map y.axisValue)))] := by
    rw [tableOf, if_pos hinter]
  -- the driver's table has the point's own value for every knob but the axis
  have hsame : ∀ n, n ≠ y.axis → (merge y.fixed p).lookup n =
      (merge y.fixed (tableOf y.toFile points p)).lookup n := by
    intro n hne
    rw [lookup_merge, lookup_merge, htable, sameKnobs_group hn _ n hne]
  have hv : (merge y.fixed p).lookup y.axis = some (y.axisValue p) := by
    obtain ⟨kv, hkv, he⟩ := List.mem_map.mp (y.axis_mem p (hpoints p hp))
    have hsome : (p.lookup y.axis).isSome = true :=
      List.lookup_isSome_iff.mpr ⟨kv, hkv, beq_iff_eq.mpr he.symm⟩
    obtain ⟨v, hv⟩ := Option.isSome_iff_exists.mp hsome
    rw [lookup_merge, axisValue, hv]
    rfl
  have hw : (merge y.fixed (tableOf y.toFile points p)).lookup y.axis =
      some (.str (join (ps.map y.axisValue))) := by
    rw [lookup_merge, htable, List.lookup_append, lookup_groupKey hn, if_pos rfl, List.lookup_cons,
      beq_self_eq_true]
    rfl
  have hnone : y.environ tails p ≠ none ↔ ∀ kv ∈ y.env,
      (format tails kv.2.text fun k => (merge y.fixed p).lookup k) ≠ none := by
    have hself : (∃ env, y.environ tails p = some env ∧ y.environ tails p = some env) ↔
        y.environ tails p ≠ none := by simp only [and_self, Option.ne_none_iff_exists']
    rw [← hself, alike_environ_iff]
    exact forall₂_congr fun kv _ => by simp only [and_self, ne_eq, Option.ne_none_iff_exists']
  rw [alike_environ_iff, hnone]
  -- the values of one point, joined, are its value; those of several are longer than any
  by_cases hone : ps.length = 1
  · have hps : ps = [p] := by
      obtain ⟨q, hq⟩ := List.length_eq_one_iff.mp hone
      rw [hq] at hmem ⊢
      rw [List.mem_singleton.mp hmem]
    have htext : ((merge y.fixed p).lookup y.axis).map Value.text =
        ((merge y.fixed (tableOf y.toFile points p)).lookup y.axis).map Value.text := by
      rw [hv, hw, hps]
      simp [join, Value.text]
    refine Iff.trans (forall₂_congr fun kv hkv => ?_) (and_iff_left (Or.inr hone)).symm
    rw [← format_congr (hplain kv hkv) hsame (Or.inr htext)]
    simp only [and_self, ne_eq, Option.ne_none_iff_exists']
  · have htwo : 1 < (ps.map y.axisValue).length := by
      have hpos := List.length_pos_of_mem hmem
      rw [List.length_map]
      omega
    have hlt := length_lt_join (List.mem_map_of_mem hmem) htwo
    rw [or_iff_left hone, ← forall₂_and]
    exact forall₂_congr fun kv hkv => alike_iff_of_lt (hplain kv hkv) hsame hv hw hlt

end Stored

end Experiment
