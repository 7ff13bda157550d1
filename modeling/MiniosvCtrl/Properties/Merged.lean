import MiniosvCtrl.Infra.Lists
import MiniosvCtrl.Properties.Snapshots

/-!
# Merging the texts of a dump

`decode` keeps the first line it reads of each number, and the numbers that the last texts show.
Where one of these was cut, less comes out than the guest wrote, though the whole line may stand
in another text.

* `passes_eq`, `announced_eq` — what is read of the texts
* `Merges` — what is kept is whole
* `merges_iff`
-/

namespace Cov

open Infra Infra.Regex

variable {B : Builtins}

/-! ## Numbers that are cut -/

theorem ofDigitChars_lt {num : List Char} (h : ∀ c ∈ num, c.isDigit = true) :
    Nat.ofDigitChars 10 num 0 < 10 ^ num.length := by
  induction num with
  | nil => exact Nat.one_pos
  | cons c num ih =>
    obtain ⟨hc, hnum⟩ := List.forall_mem_cons.mp h
    have hlt := ih hnum
    have hdigit : c.toNat - '0'.toNat ≤ 9 := by
      rw [Char.isDigit, Bool.and_eq_true, decide_eq_true_eq, decide_eq_true_eq] at hc
      have hle : c.toNat ≤ 57 := UInt32.le_iff_toNat_le.mp hc.2
      have hzero : '0'.toNat = 48 := rfl
      omega
    rw [Nat.ofDigitChars_cons, Nat.ofDigitChars_eq_ofDigitChars_zero, List.length_cons,
      Nat.pow_succ]
    have hmul : 10 ^ num.length * (10 * 0 + (c.toNat - '0'.toNat)) ≤ 10 ^ num.length * 9 :=
      Nat.mul_le_mul_left _ (by omega)
    omega

theorem lt_ten_pow {n : Nat} (hn : n < 2 ^ 64) : n < 10 ^ 20 := Nat.lt_trans hn (by decide)

theorem int_digits {n : Nat} (hn : n < 2 ^ 64) : B.int (Nat.toDigits 10 n) = some n :=
  B.int_toDigits (Builtins.lt_maxDigits (lt_ten_pow hn))

/-- The beginning of a number is a smaller one. -/
theorem int_of_prefix {n : Nat} (hn : n < 2 ^ 64) {num : List Char} (hne : num ≠ [])
    (h : num <+: Nat.toDigits 10 n) :
    ∃ m, B.int num = some m ∧ m ≤ n ∧ (m = n → num = Nat.toDigits 10 n) := by
  by_cases heq : num = Nat.toDigits 10 n
  · rw [heq]
    exact ⟨n, int_digits hn, Nat.le_refl n, fun _ => rfl⟩
  have hdigits : ∀ c ∈ num, c.isDigit = true := fun c hc =>
    Builtins.isDigit_of_mem_toDigits (h.subset hc)
  have hlength : num.length < (Nat.toDigits 10 n).length :=
    Nat.lt_of_le_of_ne h.length_le fun hlen => heq (h.eq_of_length hlen)
  have hmax : (Nat.toDigits 10 n).length ≤ Builtins.maxDigits :=
    (Nat.length_toDigits_le_iff (by decide) (by decide)).mpr (Builtins.lt_maxDigits (lt_ten_pow hn))
  have hint : B.int num = some (Nat.ofDigitChars 10 num 0) := by
    have hall : num.all B.digit = true :=
      List.all_eq_true.mpr fun c hc => B.digit_of_isDigit (hdigits c hc)
    rw [Builtins.int, if_pos ⟨hne, hall, by omega⟩, B.natOf_eq_ofDigitChars hdigits]
  have hpos : 0 < num.length := List.length_pos_iff.mpr hne
  have hlarge : 10 ^ num.length ≤ n := by
    by_contra hsmall
    have hle := (Nat.length_toDigits_le_iff (by decide) hpos).mpr (Nat.lt_of_not_le hsmall)
    omega
  have hlt := ofDigitChars_lt hdigits
  exact ⟨_, hint, by omega, fun hmn => by omega⟩

/-! ## What is read -/

/-- What a line adds to the dictionary, if its number is not there. -/
def readLine (B : Builtins) (l : List Char) : Option (Nat × List Char) :=
  (lineGroups (line B) l).bind (numbered B)

theorem digit_newline : B.digit '\n' = false := digit_eq_false (by decide) (by decide)

theorem newline_payload : isPayload '\n' = false := by decide

theorem lineBound_line : (line B).LineBound :=
  ⟨trivial, (by decide : '\n' ∉ "COV:".toList), ⟨digit_newline, digit_newline⟩,
    (by decide : '\n' ∉ ":".toList), ⟨newline_payload, newline_payload⟩,
    ⟨(by decide : '\n' ∉ ['\x0d']), List.not_mem_nil⟩, trivial⟩

theorem lineGroups_line_nil : lineGroups (line B) [] = none := by
  cases h : lineGroups (line B) [] with
  | none => rfl
  | some gs =>
    obtain ⟨num, pay, cr, hparts, -⟩ := (line_iff List.not_mem_nil).mp h
    have hlength := congrArg List.length hparts.eq
    simp at hlength

theorem mapM_numbered {ls : List (List Char)}
    (h : ∀ l ∈ ls, ∀ gs, lineGroups (line B) l = some gs → (numbered B gs).isSome) :
    (lineStarts (line B) ls).mapM (fun f => numbered B f.2) = some (ls.filterMap (readLine B)) := by
  induction ls with
  | nil => rfl
  | cons l ls ih =>
    obtain ⟨hl, hls⟩ := List.forall_mem_cons.mp h
    cases hgs : lineGroups (line B) l with
    | none =>
      rw [lineStarts, hgs, List.filterMap_cons_none (by rw [readLine, hgs]; rfl)]
      exact ih hls
    | some gs =>
      obtain ⟨entry, hentry⟩ := Option.isSome_iff_exists.mp (hl gs hgs)
      rw [lineStarts, hgs, List.filterMap_cons_some (by rw [readLine, hgs]; exact hentry)]
      simp [List.mapM_cons, hentry, ih hls]

/-- **The lines of all texts, one after the other.** -/
theorem passes_eq {texts : List (List Char)}
    (h : ∀ t ∈ texts, ∀ l ∈ lines t, ∀ gs, lineGroups (line B) l = some gs →
      (numbered B gs).isSome) :
    passes B texts = some ((texts.flatMap lines).filterMap (readLine B)) := by
  have htext : ∀ t ∈ texts, ((line B).starts t).mapM (fun f => numbered B f.2.2) =
      some ((lines t).filterMap (readLine B)) := by
    intro t ht
    have hstarts := starts_line lineBound_line trivial lineGroups_line_nil (r := line B) t
    have hmap : ((line B).starts t).mapM (fun f => numbered B f.2.2) =
        (((line B).starts t).map fun f => (f.1, f.2.2)).mapM fun f => numbered B f.2 := by
      rw [List.mapM_map]
      rfl
    rw [hmap, hstarts, mapM_numbered (h t ht)]
  have hall : texts.mapM (fun t => ((line B).starts t).mapM fun f => numbered B f.2.2) =
      some (texts.map fun t => (lines t).filterMap (readLine B)) := by
    rw [mapM_eq_some_iff, List.map_map]
    exact List.map_congr_left htext
  rw [passes, hall, List.filterMap_flatMap]
  rfl

/-- **The last number that a text shows.** -/
theorem announced_eq {r : Regex} {texts : List (List Char)}
    (h : ∀ t ∈ texts, ∀ num, r.group1 t = some num → (B.int num).isSome) :
    announced B r texts = some ((texts.filterMap r.group1).getLast?.bind B.int) := by
  induction texts using List.reverseRecOn with
  | nil => rfl
  | append_singleton texts t ih =>
    have ih := ih fun t' ht' => h t' (List.mem_append_left _ ht')
    have hlast := h t (List.mem_append_right _ List.mem_cons_self)
    rw [announced] at ih ⊢
    rw [List.foldlM_append, ih, List.filterMap_append]
    cases hnum : r.group1 t with
    | none => simp [hnum]
    | some num =>
      obtain ⟨m, hm⟩ := Option.isSome_iff_exists.mp (hlast num hnum)
      simp [hnum, hm]

/-! ## A dump in several texts -/

section Texts

variable {d : Dump B} {texts : List (List Char)}

theorem Dump.lt_of_lt {i : Nat} (hi : i < d.chunks.length) : i < 2 ^ 64 := hi.trans d.chunks_lt

theorem numbered_digits {i : Nat} (hi : i < 2 ^ 64) (pay : List Char) :
    numbered B [Nat.toDigits 10 i, pay] = some (i, pay) := by
  show (B.int (Nat.toDigits 10 i)).map _ = _
  rw [int_digits hi]
  rfl

/-- What is read of a line is a line of the dump, or its beginning. -/
theorem readLine_shown (hshown : ∀ t ∈ texts, Shown d t) {l : List Char}
    (hl : l ∈ texts.flatMap lines) {entry : Nat × List Char} (h : readLine B l = some entry) :
    entry.1 < d.chunks.length ∧ entry.2 <+: d.chunks.getD entry.1 [] ∧
      lineGroups (line B) l = some [Nat.toDigits 10 entry.1, entry.2] := by
  obtain ⟨t, ht, hlt⟩ := List.mem_flatMap.mp hl
  obtain ⟨gs, hgs, hnumbered⟩ := Option.bind_eq_some_iff.mp h
  obtain ⟨i, pay, hi, -, hpay, rfl⟩ := d.line_shown (hshown t ht) hlt hgs
  rw [numbered_digits (d.lt_of_lt hi)] at hnumbered
  obtain rfl := Option.some_inj.mp hnumbered
  exact ⟨hi, hpay, hgs⟩

theorem passes_shown (hshown : ∀ t ∈ texts, Shown d t) :
    passes B texts = some ((texts.flatMap lines).filterMap (readLine B)) := by
  refine passes_eq fun t ht l hl gs hgs => ?_
  obtain ⟨i, pay, hi, -, -, rfl⟩ := d.line_shown (hshown t ht) hl hgs
  rw [numbered_digits (d.lt_of_lt hi)]
  rfl

/-- The line is read as line `i`. -/
def isLine (B : Builtins) (i : Nat) (l : List Char) : Bool :=
  (readLine B l).any fun entry => entry.1 == i

theorem lookup_filterMap (i : Nat) (ls : List (List Char)) :
    (ls.filterMap (readLine B)).lookup i =
      ((ls.find? (isLine B i)).bind (readLine B)).map Prod.snd := by
  induction ls with
  | nil => rfl
  | cons l ls ih =>
    cases h : readLine B l with
    | none =>
      rw [List.filterMap_cons_none h, List.find?_cons_of_neg (by simp [isLine, h]), ih]
    | some entry =>
      obtain ⟨j, pay⟩ := entry
      rw [List.filterMap_cons_some h]
      by_cases hij : i = j
      · subst hij
        rw [List.find?_cons_of_pos (by simp [isLine, h]), List.lookup_cons_self]
        simp [h]
      · have hne : (i == j) = false := by simp [hij]
        rw [List.find?_cons_of_neg (by simp [isLine, h, Ne.symm hij]), List.lookup_cons, hne, ih]

/-- A line is found of each number, whole or cut. -/
theorem lookup_shown (hshown : ∀ t ∈ texts, Shown d t) (hcomplete : Complete d texts) {i : Nat}
    (hi : i < d.chunks.length) :
    ∃ l pay, (texts.flatMap lines).find? (isLine B i) = some l ∧
      lineGroups (line B) l = some [Nat.toDigits 10 i, pay] ∧ pay <+: d.chunks.getD i [] ∧
      ((texts.flatMap lines).filterMap (readLine B)).lookup i = some pay := by
  obtain ⟨t, ht, l₀, hl₀, hintact⟩ := hcomplete (.line i) hi
  have hread : readLine B l₀ = some (i, d.chunks.getD i []) := by
    rw [readLine, d.line_intact hi hintact]
    exact numbered_digits (d.lt_of_lt hi) _
  have hmem : l₀ ∈ texts.flatMap lines := List.mem_flatMap.mpr ⟨t, ht, hl₀⟩
  obtain ⟨l, hfind⟩ := Option.isSome_iff_exists.mp
    (List.find?_isSome.mpr ⟨l₀, hmem, by simp [isLine, hread]⟩ :
      ((texts.flatMap lines).find? (isLine B i)).isSome)
  have hl := List.find?_some hfind
  obtain ⟨⟨j, pay⟩, hentry, hj⟩ := (Option.any_eq_true _ _).mp hl
  obtain rfl : j = i := beq_iff_eq.mp hj
  obtain ⟨-, hpay, hgs⟩ := readLine_shown hshown (List.mem_of_find?_eq_some hfind) hentry
  refine ⟨l, pay, hfind, hgs, hpay, ?_⟩
  rw [lookup_filterMap, hfind]
  show (readLine B l).map Prod.snd = some pay
  rw [hentry]
  rfl

/-! ## The numbers -/

/-- What a heading shows first in a text is the number, or its beginning. -/
structure Heads (r : Regex) (n : Nat) (texts : List (List Char)) : Prop where
  bound : r.LineBound
  anchored : r.Anchored
  lt : n < 2 ^ 64
  shown : ∀ t ∈ texts, ∀ l ∈ lines t, ∀ gs, lineGroups r l = some gs →
    ∃ num, num ≠ [] ∧ num <+: Nat.toDigits 10 n ∧ gs = [num]
  /-- Some text shows it. -/
  found : ∃ t ∈ texts, ∃ l ∈ lines t, lineGroups r l ≠ none

theorem Heads.group1 {r : Regex} {n : Nat} (h : Heads r n texts) {t : List Char} (ht : t ∈ texts)
    {num : List Char} (hnum : r.group1 t = some num) :
    num ≠ [] ∧ num <+: Nat.toDigits 10 n := by
  rw [group1_line h.bound h.anchored] at hnum
  obtain ⟨gs, hgs, hhead⟩ := Option.bind_eq_some_iff.mp hnum
  obtain ⟨l, hl, hlgs⟩ := List.exists_of_findSome?_eq_some hgs
  obtain ⟨num', hne, hprefix, rfl⟩ := h.shown t ht l hl gs hlgs
  obtain rfl := Option.some_inj.mp hhead
  exact ⟨hne, hprefix⟩

/-- A number is announced: the whole one, or a smaller one. -/
theorem Heads.announced {r : Regex} {n : Nat} (h : Heads r n texts) :
    ∃ num m, (texts.filterMap r.group1).getLast? = some num ∧
      announced B r texts = some (some m) ∧ m ≤ n ∧
      (m = n ↔ num = Nat.toDigits 10 n) := by
  have hall : ∀ t ∈ texts, ∀ num, r.group1 t = some num → (B.int num).isSome := by
    intro t ht num hnum
    obtain ⟨hne, hprefix⟩ := h.group1 ht hnum
    obtain ⟨m, hm, -⟩ := int_of_prefix (B := B) h.lt hne hprefix
    rw [hm]
    rfl
  obtain ⟨t, ht, l, hl, hgs⟩ := h.found
  obtain ⟨num, hnum⟩ : ∃ num, r.group1 t = some num := by
    obtain ⟨gs, hgs⟩ := Option.ne_none_iff_exists'.mp hgs
    have hsome : ((lines t).findSome? (lineGroups r)).isSome := by
      rw [List.isSome_findSome?, List.any_eq_true]
      exact ⟨l, hl, by rw [hgs]; rfl⟩
    obtain ⟨gs', hfirst⟩ := Option.isSome_iff_exists.mp hsome
    obtain ⟨l', hl', hgs'⟩ := List.exists_of_findSome?_eq_some hfirst
    obtain ⟨num, -, -, rfl⟩ := h.shown t ht l' hl' gs' hgs'
    exact ⟨num, by rw [group1_line h.bound h.anchored, hfirst]; rfl⟩
  have hmem : num ∈ texts.filterMap r.group1 := List.mem_filterMap.mpr ⟨t, ht, hnum⟩
  obtain ⟨last, hlast⟩ := Option.isSome_iff_exists.mp
    (List.getLast?_isSome.mpr (List.ne_nil_of_mem hmem))
  obtain ⟨t', ht', hlast'⟩ := List.mem_filterMap.mp (List.mem_of_getLast? hlast)
  obtain ⟨hne, hprefix⟩ := h.group1 ht' hlast'
  obtain ⟨m, hm, hle, heq⟩ := int_of_prefix (B := B) h.lt hne hprefix
  refine ⟨last, m, hlast, ?_, hle, heq, ?_⟩
  · rw [announced_eq hall, hlast]
    exact congrArg Option.some hm
  · rintro rfl
    exact Option.some_inj.mp (hm.symm.trans (int_digits h.lt))

theorem heads_begins (hshown : ∀ t ∈ texts, Shown d t) (hcomplete : Complete d texts) :
    Heads (begins B) d.raw.length texts where
  bound := ⟨trivial, (by decide : '\n' ∉ "COV BEGIN raw=".toList), digit_newline, digit_newline⟩
  anchored := trivial
  lt := d.raw_lt
  shown t ht l hl gs hgs := d.begins_shown (hshown t ht) hl hgs
  found := by
    obtain ⟨t, ht, l, hl, hintact⟩ := hcomplete .begins trivial
    exact ⟨t, ht, l, hl, by rw [begins_intact hintact]; exact Option.some_ne_none _⟩

theorem heads_ends (hshown : ∀ t ∈ texts, Shown d t) (hcomplete : Complete d texts) :
    Heads (ends B) d.chunks.length texts where
  bound := ⟨trivial, (by decide : '\n' ∉ "COV END lines=".toList), digit_newline, digit_newline⟩
  anchored := trivial
  lt := d.chunks_lt
  shown t ht l hl gs hgs := d.ends_shown (hshown t ht) hl hgs
  found := by
    obtain ⟨t, ht, l, hl, hintact⟩ := hcomplete .ends trivial
    exact ⟨t, ht, l, hl, by rw [ends_intact hintact]; exact Option.some_ne_none _⟩

/-! ## What is merged -/

/-- The texts of the lines, and what was kept of them. -/
theorem joined_eq {lines' : List (Nat × List Char)} {n : Nat} {f : Nat → List Char}
    (h : ∀ i < n, lines'.lookup i = some (f i)) : joined lines' n = (List.range n).flatMap f := by
  refine List.flatMap_congr fun i hi => ?_
  rw [h i (List.mem_range.mp hi)]
  rfl

theorem flatMap_getD {α : Type} (l : List (List α)) :
    (List.range l.length).flatMap (fun i => l.getD i []) = l.flatten := by
  have hmap : (List.range l.length).map (fun i => l.getD i []) = l :=
    List.ext_getElem (by simp) fun i hi hi' => by
      simp only [List.getElem_map, List.getElem_range]
      rw [List.getD_eq_getElem?_getD, List.getElem?_eq_getElem hi', Option.getD_some]
  rw [List.flatMap_def, hmap]

/-- Beginnings of the pieces, one after the other, are no more than the pieces. -/
theorem length_flatMap_range_le {f g : Nat → List Char} {m : Nat}
    (hfg : ∀ i < m, f i <+: g i) :
    ((List.range m).flatMap f).length ≤ ((List.range m).flatMap g).length ∧
      (((List.range m).flatMap f).length = ((List.range m).flatMap g).length →
        ∀ i < m, f i = g i) := by
  induction m with
  | zero => exact ⟨Nat.le_refl _, fun _ i hi => absurd hi (Nat.not_lt_zero i)⟩
  | succ m ih =>
    obtain ⟨hle, heq⟩ := ih fun i hi => hfg i (Nat.lt_succ_of_lt hi)
    have hlast := (hfg m (Nat.lt_succ_self m)).length_le
    simp only [List.range_succ, List.flatMap_append, List.length_append, List.flatMap_singleton]
    refine ⟨by omega, fun h i hi => ?_⟩
    rcases Nat.lt_succ_iff_lt_or_eq.mp hi with hi | rfl
    · exact heq (by omega) i hi
    · exact (hfg i (Nat.lt_succ_self i)).eq_of_length (by omega)

theorem flatMap_range_add (g : Nat → List Char) (m k : Nat) :
    (List.range (m + k)).flatMap g =
      (List.range m).flatMap g ++ (List.range k).flatMap fun i => g (m + i) := by
  rw [List.range_add, List.flatMap_append, List.flatMap_map]

theorem flatMap_range_sublist {f g : Nat → List Char} {m n : Nat} (hmn : m ≤ n)
    (hfg : ∀ i < m, f i <+: g i) :
    ((List.range m).flatMap f).Sublist ((List.range n).flatMap g) := by
  have hpieces : ((List.range m).flatMap f).Sublist ((List.range m).flatMap g) := by
    clear hmn
    induction m with
    | zero => exact List.Sublist.refl _
    | succ m ih =>
      rw [List.range_succ, List.flatMap_append, List.flatMap_append, List.flatMap_singleton,
        List.flatMap_singleton]
      exact (ih fun i hi => hfg i (Nat.lt_succ_of_lt hi)).append
        (hfg m (Nat.lt_succ_self m)).sublist
  obtain ⟨k, rfl⟩ := Nat.exists_eq_add_of_le hmn
  rw [flatMap_range_add]
  exact hpieces.trans (List.sublist_append_left _ _)

/-- All pieces are there, and each is whole. -/
theorem eq_of_flatMap_range {f g : Nat → List Char} {m n : Nat} (hmn : m ≤ n)
    (hfg : ∀ i < m, f i <+: g i) (hg : ∀ i < n, g i ≠ [])
    (h : (List.range m).flatMap f = (List.range n).flatMap g) : m = n ∧ ∀ i < m, f i = g i := by
  obtain ⟨k, rfl⟩ := Nat.exists_eq_add_of_le hmn
  have hlength := congrArg List.length h
  rw [flatMap_range_add, List.length_append] at hlength
  obtain ⟨hle, heq⟩ := length_flatMap_range_le hfg
  have hrest : (List.range k).flatMap (fun i => g (m + i)) = [] :=
    List.length_eq_zero_iff.mp (by omega)
  have hk : k = 0 := by
    by_contra hk
    have hzero := List.flatMap_eq_nil_iff.mp hrest 0 (List.mem_range.mpr (Nat.pos_of_ne_zero hk))
    exact hg (m + 0) (by omega) hzero
  rw [hrest] at hlength
  exact ⟨by omega, heq (by simpa using hlength)⟩

/-- No other run lengths for these bytes are shorter. -/
def Dump.Shortest (d : Dump B) : Prop :=
  ∀ ts, expansion ts = d.raw → (serialise d.tokens).length ≤ (serialise ts).length

/-- What is kept of the texts is whole. -/
structure Merges (d : Dump B) (texts : List (List Char)) : Prop where
  /-- The first line that is read as line `i`. -/
  lines : ∀ i < d.chunks.length, ∀ l, (texts.flatMap lines).find? (isLine B i) = some l →
    lineGroups (line B) l = some [Nat.toDigits 10 i, d.chunks.getD i []]
  /-- The first number of the last text that shows one. -/
  begins : ∀ num, (texts.filterMap (begins B).group1).getLast? = some num →
    num = Nat.toDigits 10 d.raw.length
  ends : ∀ num, (texts.filterMap (ends B).group1).getLast? = some num →
    num = Nat.toDigits 10 d.chunks.length

theorem decode_eq {lines' : List (Nat × List Char)} {end_ want : Nat}
    (hpasses : passes B texts = some lines')
    (hwant : announced B (begins B) texts = some (some want))
    (hend : announced B (ends B) texts = some (some end_)) :
    decode B texts = if missing lines' end_ ≠ [] then
      .error (.missing (missing lines' end_) end_) else undo lines' end_ want := by
  rw [decode, hpasses, hwant, hend]
  rfl

theorem missing_eq_nil {lines' : List (Nat × List Char)} {n : Nat} {f : Nat → List Char}
    (h : ∀ i < n, lines'.lookup i = some (f i)) : missing lines' n = [] := by
  refine List.filter_eq_nil_iff.mpr fun i hi => ?_
  rw [h i (List.mem_range.mp hi)]
  simp

theorem undo_eq_ok {lines' : List (Nat × List Char)} {end_ want : Nat} {rle out : List UInt8}
    (hdecode : Base64.decode (joined lines' end_) = some rle) (hloop : loop rle 0 [] = some out)
    (hlength : out.length = want) : undo lines' end_ want = .ok out := by
  rw [undo, hdecode]
  show (orRaise .cutOff (loop rle 0 [])).bind _ = _
  rw [hloop]
  show (if out.length ≠ want then _ else _) = _
  rw [if_neg (by simpa using hlength)]

theorem of_undo_eq_ok {lines' : List (Nat × List Char)} {end_ want : Nat} {out : List UInt8}
    (h : undo lines' end_ want = .ok out) :
    ∃ rle, Base64.decode (joined lines' end_) = some rle ∧ loop rle 0 [] = some out := by
  obtain ⟨rle, hrle, h⟩ := ok_of_bind h
  obtain ⟨out', hout, h⟩ := ok_of_bind h
  split at h
  · cases h
  · exact ⟨rle, orRaise_eq_ok hrle, Except.ok.inj h ▸ orRaise_eq_ok hout⟩

/-- The lines of the texts that are kept. -/
def keptLines (B : Builtins) (texts : List (List Char)) : List (Nat × List Char) :=
  (texts.flatMap lines).filterMap (readLine B)

/-- What is kept of line `i`. -/
def keptOf (B : Builtins) (texts : List (List Char)) (i : Nat) : List Char :=
  ((keptLines B texts).lookup i).getD []

theorem keptOf_spec (hshown : ∀ t ∈ texts, Shown d t) (hcomplete : Complete d texts) {i : Nat}
    (hi : i < d.chunks.length) :
    (keptLines B texts).lookup i = some (keptOf B texts i) ∧
      keptOf B texts i <+: d.chunks.getD i [] := by
  obtain ⟨l, pay, -, -, hpay, hlookup⟩ := lookup_shown hshown hcomplete hi
  have hkept : keptOf B texts i = pay := by
    rw [keptOf, keptLines, hlookup]
    rfl
  exact ⟨hkept ▸ hlookup, hkept ▸ hpay⟩

theorem keptOf_eq_iff (hshown : ∀ t ∈ texts, Shown d t) (hcomplete : Complete d texts) {i : Nat}
    (hi : i < d.chunks.length) : keptOf B texts i = d.chunks.getD i [] ↔
      ∀ l, (texts.flatMap lines).find? (isLine B i) = some l →
        lineGroups (line B) l = some [Nat.toDigits 10 i, d.chunks.getD i []] := by
  obtain ⟨l, pay, hfind, hgs, -, hlookup⟩ := lookup_shown hshown hcomplete hi
  have hkept : keptOf B texts i = pay := by
    rw [keptOf, keptLines, hlookup]
    rfl
  rw [hkept]
  constructor
  · intro hpay l' hl'
    obtain rfl := Option.some_inj.mp (hfind.symm.trans hl')
    rw [hgs, hpay]
  · intro hwhole
    have hgs' := hgs.symm.trans (hwhole l hfind)
    simpa using hgs'

theorem encode_eq_flatMap (d : Dump B) : Base64.encode (serialise d.tokens) =
    (List.range d.chunks.length).flatMap fun i => d.chunks.getD i [] := by
  rw [← d.flatten_chunks, flatMap_getD]

/-- **What was kept whole is decoded.** -/
theorem decode_of_merges (hshown : ∀ t ∈ texts, Shown d t) (hcomplete : Complete d texts)
    (h : Merges d texts) : decode B texts = .ok d.raw := by
  obtain ⟨num, want, hnum, hwant, -, hwant_iff⟩ :=
    (heads_begins hshown hcomplete).announced (B := B)
  obtain ⟨num', end_, hnum', hend, -, hend_iff⟩ := (heads_ends hshown hcomplete).announced (B := B)
  obtain rfl : want = d.raw.length := hwant_iff.mpr (h.begins num hnum)
  obtain rfl : end_ = d.chunks.length := hend_iff.mpr (h.ends num' hnum')
  have hlookup : ∀ i < d.chunks.length,
      (keptLines B texts).lookup i = some (d.chunks.getD i []) := by
    intro i hi
    rw [(keptOf_spec hshown hcomplete hi).1,
      (keptOf_eq_iff hshown hcomplete hi).mpr (h.lines i hi)]
  have hjoined : joined (keptLines B texts) d.chunks.length =
      Base64.encode (serialise d.tokens) := by
    rw [joined_eq hlookup, encode_eq_flatMap]
  rw [decode_eq (passes_shown hshown) hwant hend]
  show (if missing (keptLines B texts) _ ≠ [] then _ else undo (keptLines B texts) _ _) = _
  rw [missing_eq_nil hlookup, if_neg (by simp)]
  have hdecode : Base64.decode (joined (keptLines B texts) d.chunks.length) =
      some (serialise d.tokens) := by
    rw [hjoined, Base64.decode_encode]
  have hloop : loop (serialise d.tokens) 0 [] = some d.raw := by
    rw [loop_serialise, d.expansion_tokens]
  exact undo_eq_ok hdecode hloop rfl

/-- **Where something that was kept is cut, less comes out.** -/
theorem merges_of_decode (hshown : ∀ t ∈ texts, Shown d t) (hcomplete : Complete d texts)
    (hshortest : d.Shortest) (h : decode B texts = .ok d.raw) : Merges d texts := by
  obtain ⟨num, want, hnum, hwant, -, hwant_iff⟩ :=
    (heads_begins hshown hcomplete).announced (B := B)
  obtain ⟨num', end_, hnum', hend, hend_le, hend_iff⟩ :=
    (heads_ends hshown hcomplete).announced (B := B)
  have hlength := length_decode h
  rw [hwant] at hlength
  have hraw : want = d.raw.length := by simpa using hlength
  rw [decode_eq (passes_shown hshown) hwant hend] at h
  split at h
  · cases h
  obtain ⟨rle, hrle, hloop⟩ := of_undo_eq_ok h
  -- The bytes are run lengths of the same profile, and so no fewer than the dump's.
  have hbytes : (serialise d.tokens).length ≤ rle.length := by
    rcases tokens_or_cutOff rle with ⟨ts, rfl⟩ | hcut
    · rw [loop_serialise] at hloop
      exact hshortest ts (Option.some_inj.mp hloop)
    · rw [loop_of_cutOff hcut] at hloop
      cases hloop
  have hprefix : ∀ i < end_, keptOf B texts i <+: d.chunks.getD i [] := fun i hi =>
    (keptOf_spec hshown hcomplete (Nat.lt_of_lt_of_le hi hend_le)).2
  have hjoined : joined (keptLines B texts) end_ = (List.range end_).flatMap (keptOf B texts) :=
    joined_eq fun i hi => (keptOf_spec hshown hcomplete (Nat.lt_of_lt_of_le hi hend_le)).1
  have hall : (List.range end_).flatMap (keptOf B texts) = Base64.encode (serialise d.tokens) := by
    by_contra hne
    have hsub : ((List.range end_).flatMap (keptOf B texts)).Sublist
        (Base64.encode (serialise d.tokens)) := by
      rw [encode_eq_flatMap]
      exact flatMap_range_sublist hend_le hprefix
    have hrle : Base64.decode ((List.range end_).flatMap (keptOf B texts)) = some rle :=
      hjoined ▸ hrle
    have hshort := Base64.length_of_sublist hsub hne hrle
    omega
  rw [encode_eq_flatMap] at hall
  have hchunks : ∀ i < d.chunks.length, d.chunks.getD i [] ≠ [] := fun i hi =>
    d.ne_nil _ (d.getD_mem hi)
  obtain ⟨rfl, hkept⟩ := eq_of_flatMap_range hend_le hprefix hchunks hall
  refine ⟨fun i hi => (keptOf_eq_iff hshown hcomplete hi).mp (hkept i hi), fun n hn => ?_,
    fun n hn => ?_⟩
  · obtain rfl := Option.some_inj.mp (hn.symm.trans hnum)
    exact hwant_iff.mp hraw
  · obtain rfl := Option.some_inj.mp (hn.symm.trans hnum')
    exact hend_iff.mp rfl

/-- **The texts of a dump that are complete together are decoded if what is kept of them is
whole, and only if, where the guest's run lengths are as short as can be.** -/
theorem merges_iff (d : Dump B) (texts : List (List Char)) (hshown : ∀ t ∈ texts, Shown d t)
    (hcomplete : Complete d texts) : (Merges d texts → decode B texts = .ok d.raw) ∧
      (d.Shortest → decode B texts = .ok d.raw → Merges d texts) :=
  ⟨decode_of_merges hshown hcomplete, merges_of_decode hshown hcomplete⟩

end Texts

/-! ## A line that is cut in the first text -/

namespace CutFirst

def dump : Dump Builtins.exact where
  raw := [1, 2, 3, 4, 5, 6]
  tokens := [.byte 1 (by decide), .byte 2 (by decide), .byte 3 (by decide), .byte 4 (by decide),
    .byte 5 (by decide), .byte 6 (by decide)]
  expansion_tokens := rfl
  chunks := ["AQID".toList, "BAUG".toList]
  ne_nil := by decide
  flatten_chunks := by decide
  beginTail := []
  endTail := []
  beginTail_ends := fun _ h => absurd h (by simp)
  endTail_ends := fun _ h => absurd h (by simp)
  raw_lt := by decide
  chunks_lt := by decide

/-- The end of the first pass was not read. -/
def cut : List Char := "COV BEGIN raw=6\nCOV:0:AQ".toList

def whole : List Char :=
  "COV BEGIN raw=6\nCOV:0:AQID\nCOV:1:BAUG\nCOV END lines=2\n".toList

theorem lines_cut : lines cut = [dump.text .begins, "COV:0:AQ".toList] := by decide

theorem lines_whole : lines whole = [dump.text .begins, dump.text (.line 0), dump.text (.line 1),
    dump.text .ends, []] := by decide

theorem shown : ∀ t ∈ [cut, whole], Shown dump t := by
  have hintact : ∀ e, dump.Intact e (dump.text e) := fun _ => .inl rfl
  have hhas : dump.Has (.line 0) ∧ dump.Has (.line 1) :=
    ⟨(by decide : 0 < 2), (by decide : 1 < 2)⟩
  refine List.forall_mem_cons.mpr ⟨⟨?_, ?_⟩, List.forall_mem_singleton.mpr ⟨?_, ?_⟩⟩
  · rw [lines_cut]
    exact List.forall_mem_singleton.mpr (.inr ⟨.begins, trivial, hintact _⟩)
  · rw [lines_cut]
    rintro l hl
    obtain rfl := Option.some_inj.mp hl
    exact .inr ⟨.line 0, hhas.1, .inr (by decide)⟩
  · rw [lines_whole]
    simp only [List.dropLast_cons_cons, List.dropLast_singleton, List.forall_mem_cons]
    exact ⟨.inr ⟨.begins, trivial, hintact _⟩, .inr ⟨.line 0, hhas.1, hintact _⟩,
      .inr ⟨.line 1, hhas.2, hintact _⟩, .inr ⟨.ends, trivial, hintact _⟩, by simp⟩
  · rw [lines_whole]
    rintro l hl
    obtain rfl := Option.some_inj.mp hl
    exact .inr ⟨.begins, trivial, .inr (List.nil_prefix)⟩

theorem complete : Complete dump [cut, whole] := by
  intro e he
  refine ⟨whole, by simp, dump.text e, ?_, .inl rfl⟩
  rw [lines_whole]
  cases e with
  | begins | ends => simp
  | line i =>
    have hi : i < 2 := he
    have hcases : i = 0 ∨ i = 1 := by omega
    rcases hcases with rfl | rfl <;> simp

end CutFirst

theorem not_merged_cutFirst : (∀ t ∈ [CutFirst.cut, CutFirst.whole], Shown CutFirst.dump t) ∧
    Complete CutFirst.dump [CutFirst.cut, CutFirst.whole] ∧
    decode Builtins.exact [CutFirst.cut, CutFirst.whole] ≠ .ok CutFirst.dump.raw := by
  refine ⟨CutFirst.shown, CutFirst.complete, ?_⟩
  have hraised : decode Builtins.exact [CutFirst.cut, CutFirst.whole] = .error .base64 := by
    rfl
  rw [hraised]
  exact fun h => by cases h

theorem merges_iff_cutFirst :
    (Merges CutFirst.dump [CutFirst.cut, CutFirst.whole] →
      decode Builtins.exact [CutFirst.cut, CutFirst.whole] = .ok CutFirst.dump.raw) ∧
    (CutFirst.dump.Shortest →
      decode Builtins.exact [CutFirst.cut, CutFirst.whole] = .ok CutFirst.dump.raw →
        Merges CutFirst.dump [CutFirst.cut, CutFirst.whole]) :=
  merges_iff CutFirst.dump _ CutFirst.shown CutFirst.complete

end Cov
