import MiniosvCtrl.Properties.Islands

/-!
# The time with a request outstanding

`active_ms` adds up the extents of islands. Which rows are of one island is decided by the order of
the second window, where an island begins by that of the first.

* `FirstPass` — what the first window leaves, in any order
* `TiesAgree` — no row stands in the second window before the one that begins its island
* `allExact_iff_tiesAgree`
* `activeMs_iff`
-/

namespace HttpStats

open Infra

/-! ## The first window -/

/-- What `iv` says about its rows, in whatever order. -/
structure FirstPass (vs : List Iv) : Prop where
  le : ∀ v ∈ vs, v.s ≤ v.e
  /-- All that starts before the start of an island ends before it. -/
  before : ∀ v ∈ vs, ∀ m, v.reach = some m → m < v.s → ∀ w ∈ vs, w.s < v.s → w.e < v.s
  earlier : ∀ v ∈ vs, ∀ m, v.reach = some m → m < v.s → ∃ w ∈ vs, w.s < v.s
  once : ∀ a, vs.countP (fun v => v.begins && v.s == a) ≤ 1
  /-- Where all before has ended, a row begins an island. -/
  found : ∀ v ∈ vs, (∀ w ∈ vs, w.s < v.s → w.e < v.s) → ∃ f ∈ vs, f.begins = true ∧ f.s = v.s
  least : ∀ v ∈ vs, v.reach = none → ∀ w ∈ vs, v.s ≤ w.s

theorem FirstPass.perm {vs ws : List Iv} (h : FirstPass vs) (hperm : ws.Perm vs) :
    FirstPass ws where
  le v hv := h.le v (hperm.mem_iff.mp hv)
  before v hv m hm hlt w hw := h.before v (hperm.mem_iff.mp hv) m hm hlt w (hperm.mem_iff.mp hw)
  earlier v hv m hm hlt := by
    obtain ⟨w, hw, hws⟩ := h.earlier v (hperm.mem_iff.mp hv) m hm hlt
    exact ⟨w, hperm.mem_iff.mpr hw, hws⟩
  once a := hperm.countP_eq _ ▸ h.once a
  found v hv hall := by
    obtain ⟨f, hf, hbegins⟩ := h.found v (hperm.mem_iff.mp hv) fun w hw =>
      hall w (hperm.mem_iff.mpr hw)
    exact ⟨f, hperm.mem_iff.mpr hf, hbegins⟩
  least v hv hnone w hw := h.least v (hperm.mem_iff.mp hv) hnone w (hperm.mem_iff.mp hw)

section First

variable {rs : List Request}

theorem Request.le_endUs (r : Request) : r.t0Us ≤ r.endUs := by
  have hms := r.ms_nonneg
  rw [Request.endUs]
  linarith

theorem le_longer (k : Option Rat) (e : Rat) : e ≤ longer k e := by
  cases k with
  | none => exact le_refl e
  | some m => exact le_max_right m e

/-- A row of `iv`, and what stands before it. -/
theorem split_of_mem_iv {v : Iv} {k : Option Rat} (hv : v ∈ iv k rs) :
    ∃ pre r post, rs = pre ++ r :: post ∧ v.s = r.t0Us ∧ v.e = r.endUs ∧
      (v.reach = none → k = none ∧ pre = []) ∧
      (∀ m, v.reach = some m → (∀ k', k = some k' → k' ≤ m) ∧ (∀ q ∈ pre, q.endUs ≤ m) ∧
        (k = none → pre ≠ [])) := by
  induction rs generalizing k with
  | nil => cases hv
  | cons r rs ih =>
    rcases List.mem_cons.mp hv with rfl | hv
    · refine ⟨[], r, rs, rfl, rfl, rfl, fun h => ⟨h, rfl⟩, fun m hm => ⟨?_, by simp, ?_⟩⟩
      · rintro k' rfl
        exact (Option.some.inj hm).le
      · rintro rfl
        cases hm
    · obtain ⟨pre, q, post, rfl, hs, he, hnone, hsome⟩ := ih hv
      refine ⟨r :: pre, q, post, rfl, hs, he, fun h => absurd (hnone h).1 (by simp), ?_⟩
      intro m hm
      obtain ⟨hk, hpre, -⟩ := hsome m hm
      have hr := hk _ rfl
      refine ⟨?_, List.forall_mem_cons.mpr ⟨?_, hpre⟩, fun _ => by simp⟩
      · rintro k' rfl
        exact (le_max_left _ _).trans hr
      · exact (le_longer k r.endUs).trans hr

theorem exists_of_mem_iv {v : Iv} {k : Option Rat} (hv : v ∈ iv k rs) :
    ∃ r ∈ rs, v.s = r.t0Us ∧ v.e = r.endUs := by
  obtain ⟨pre, r, post, rfl, hs, he, -⟩ := split_of_mem_iv hv
  exact ⟨r, List.mem_append_right _ List.mem_cons_self, hs, he⟩

theorem exists_mem_iv {r : Request} (hr : r ∈ rs) (k : Option Rat) :
    ∃ v ∈ iv k rs, v.s = r.t0Us ∧ v.e = r.endUs := by
  induction rs generalizing k with
  | nil => cases hr
  | cons q rs ih =>
    rcases List.mem_cons.mp hr with rfl | hr
    · exact ⟨_, List.mem_cons_self, rfl, rfl⟩
    · obtain ⟨v, hv, hse⟩ := ih hr _
      exact ⟨v, List.mem_cons_of_mem _ hv, hse⟩

/-- Once an end of `a` or later was seen, no island begins at `a`. -/
theorem countP_begins_of_le {a m : Rat} (h : a ≤ m) :
    (iv (some m) rs).countP (fun v => v.begins && v.s == a) = 0 := by
  induction rs generalizing m with
  | nil => rfl
  | cons r rs ih =>
    have hlonger : a ≤ longer (some m) r.endUs := h.trans (le_max_left _ _)
    rw [iv, List.countP_cons_of_neg, ih hlonger]
    simp only [Iv.begins, Bool.and_eq_true, decide_eq_true_eq, beq_iff_eq]
    rintro ⟨hlt, rfl⟩
    exact absurd h (not_le_of_gt hlt)

theorem countP_begins_le (a : Rat) (k : Option Rat) :
    (iv k rs).countP (fun v => v.begins && v.s == a) ≤ 1 := by
  induction rs generalizing k with
  | nil => exact Nat.zero_le 1
  | cons r rs ih =>
    rw [iv, List.countP_cons]
    split
    · rename_i hhead
      have hs : r.t0Us = a := by simpa using (Bool.and_eq_true_iff.mp hhead).2
      rw [countP_begins_of_le (hs ▸ r.le_endUs.trans (le_longer k r.endUs))]
    · exact ih _

/-- Where all that starts before `a` has ended, the first row that starts at `a` begins an
island. -/
theorem exists_begins {a : Rat} {k : Option Rat} (hk : ∀ m, k = some m → m < a)
    (hsorted : rs.Pairwise fun q r => q.t0Us ≤ r.t0Us) (hr : ∃ r ∈ rs, r.t0Us = a)
    (hall : ∀ r ∈ rs, r.t0Us < a → r.endUs < a) : ∃ f ∈ iv k rs, f.begins = true ∧ f.s = a := by
  induction rs generalizing k with
  | nil => simp at hr
  | cons q rs ih =>
    obtain ⟨hfirst, hsorted⟩ := List.pairwise_cons.mp hsorted
    obtain ⟨hq, hall⟩ := List.forall_mem_cons.mp hall
    by_cases hqa : q.t0Us = a
    · refine ⟨_, List.mem_cons_self, ?_, hqa⟩
      cases k with
      | none => rfl
      | some m => exact decide_eq_true (hqa ▸ hk m rfl)
    · obtain ⟨r, hr, hra⟩ := hr
      have hr : r ∈ rs := (List.mem_cons.mp hr).resolve_left fun h => hqa (h ▸ hra)
      have hqe : q.endUs < a := hq (lt_of_le_of_ne (hra ▸ hfirst r hr) hqa)
      have hk' : ∀ m, some (longer k q.endUs) = some m → m < a := by
        rintro m hm
        rw [← Option.some.inj hm]
        cases k with
        | none => exact hqe
        | some k' => exact max_lt (hk k' rfl) hqe
      obtain ⟨f, hf, hbegins⟩ := ih hk' hsorted ⟨r, hr, hra⟩ hall
      exact ⟨f, List.mem_cons_of_mem _ hf, hbegins⟩

theorem firstPass (hsorted : rs.Pairwise fun q r => q.t0Us ≤ r.t0Us) : FirstPass (iv none rs) where
  le v hv := by
    obtain ⟨r, -, hs, he⟩ := exists_of_mem_iv hv
    exact hs ▸ he ▸ r.le_endUs
  before := by
    intro v hv m hm hlt w hw hws
    obtain ⟨pre, r, post, rfl, hs, -, -, hreach⟩ := split_of_mem_iv hv
    obtain ⟨q, hq, hqs, hqe⟩ := exists_of_mem_iv hw
    have hpre := (hreach m hm).2.1
    rcases List.mem_append.mp hq with hq | hq
    · exact hqe ▸ (hpre q hq).trans_lt hlt
    · have hle : r.t0Us ≤ q.t0Us := by
        rcases List.mem_cons.mp hq with rfl | hq
        · exact le_refl _
        · exact List.rel_of_pairwise_cons (List.pairwise_append.mp hsorted).2.1 hq
      exact absurd hws (by rw [hs, hqs]; exact not_lt_of_ge hle)
  earlier := by
    intro v hv m hm hlt
    obtain ⟨pre, r, post, hrs, hs, -, -, hreach⟩ := split_of_mem_iv hv
    obtain ⟨-, hpre, hne⟩ := hreach m hm
    obtain ⟨q, hq⟩ := List.exists_mem_of_ne_nil pre (hne rfl)
    obtain ⟨w, hw, hws, -⟩ := exists_mem_iv (hrs ▸ List.mem_append_left _ hq) none
    exact ⟨w, hw, hws ▸ (q.le_endUs.trans (hpre q hq)).trans_lt hlt⟩
  once a := countP_begins_le a none
  found := by
    intro v hv hall
    obtain ⟨r, hr, hs, -⟩ := exists_of_mem_iv hv
    refine exists_begins (fun m hm => by cases hm) hsorted ⟨r, hr, hs.symm⟩ fun q hq hlt => ?_
    obtain ⟨w, hw, hws, hwe⟩ := exists_mem_iv hq none
    exact hwe ▸ hall w hw (hws ▸ hlt)
  least := by
    intro v hv hnone w hw
    obtain ⟨pre, r, post, rfl, hs, -, hreach, -⟩ := split_of_mem_iv hv
    obtain ⟨q, hq, hqs, -⟩ := exists_of_mem_iv hw
    rw [(hreach hnone).2, List.nil_append] at hsorted hq
    rw [hs, hqs]
    rcases List.mem_cons.mp hq with rfl | hq
    · exact le_refl _
    · exact List.rel_of_pairwise_cons hsorted hq

end First

/-! ## Ties -/

/-- The second window has the rows of one start in an order in which no island begins late. -/
structure TiesAgree (vs : List Iv) : Prop where
  /-- A row that begins an island other than the first comes before its ties. -/
  later : ∀ pre v post, vs = pre ++ v :: post → v.begins = true → v.reach ≠ none →
    ∀ w ∈ pre, w.s ≠ v.s
  /-- Of the first island, those before the row that begins it have no duration, or all the
  others have none and start with it. -/
  first : ∀ pre v post, vs = pre ++ v :: post → v.reach = none → (∀ w ∈ pre, w.e = w.s) ∨
    ∀ w ∈ v :: post.takeWhile (!·.begins), w.s = v.s ∧ w.e = v.s

/-- The largest end, from `m` on. -/
def reached (m : Rat) (vs : List Iv) : Rat := vs.foldl (fun m v => max m v.e) m

theorem reached_concat (m : Rat) (vs : List Iv) (v : Iv) :
    reached m (vs ++ [v]) = max (reached m vs) v.e := List.foldl_concat ..

theorem reached_le_iff {m a : Rat} {vs : List Iv} :
    reached m vs ≤ a ↔ m ≤ a ∧ ∀ v ∈ vs, v.e ≤ a := by
  induction vs generalizing m with
  | nil => simp [reached]
  | cons v vs ih =>
    rw [reached, List.foldl_cons, ← reached, ih, max_le_iff, List.forall_mem_cons, and_assoc]

theorem reached_lt_iff {m a : Rat} {vs : List Iv} :
    reached m vs < a ↔ m < a ∧ ∀ v ∈ vs, v.e < a := by
  induction vs generalizing m with
  | nil => simp [reached]
  | cons v vs ih =>
    rw [reached, List.foldl_cons, ← reached, ih, max_lt_iff, List.forall_mem_cons, and_assoc]

/-- What holds from some row on. -/
theorem AllExact.split {g m : Rat} {pre vs : List Iv} (hgm : g ≤ m) (h : AllExact g m (pre ++ vs)) :
    ∃ g', g' ≤ reached m pre ∧ AllExact g' (reached m pre) vs := by
  induction pre generalizing g m with
  | nil => exact ⟨g, hgm, h⟩
  | cons v pre ih =>
    refine ih ?_ h.2
    split
    · exact le_max_right m v.e
    · exact max_le_max hgm (le_refl v.e)

/-- An island that lags behind does not catch up. -/
theorem AllExact.lags {g m : Rat} {vs : List Iv} (hgm : g < m) (h : AllExact g m vs) :
    ∀ w ∈ vs.takeWhile (!·.begins), w.e ≤ g := by
  induction vs generalizing m with
  | nil => simp
  | cons v vs ih =>
    cases hbegins : v.begins with
    | true => simp [hbegins]
    | false =>
      obtain ⟨hexact, hrest⟩ := h
      rw [Exact, if_neg (by simp [hbegins])] at hexact
      have hle : v.e ≤ g := hexact.2.resolve_left hgm.ne
      rw [hbegins, if_neg (by simp), max_eq_left hle] at hrest
      rw [List.takeWhile_cons_of_pos (by simp [hbegins])]
      exact List.forall_mem_cons.mpr ⟨hle, ih (lt_max_of_lt_left hgm) hrest⟩

section Ties

variable {v₀ : Iv} {vs : List Iv}

theorem exact_of_begins {g m : Rat} {v : Iv} (h : Exact g m v) (hbegins : v.begins = true)
    (hle : v.s ≤ m) : v.e = v.s ∨ m = v.s := by
  rw [Exact, if_pos hbegins] at h
  exact h hle

theorem exact_of_not_begins {g m : Rat} {v : Iv} (h : Exact g m v) (hbegins : v.begins ≠ true) :
    v.s ≤ m ∧ (g = m ∨ v.e ≤ g) := by
  rwa [Exact, if_neg hbegins] at h

theorem reach_of_begins {v : Iv} (hbegins : v.begins = true) (hne : v.reach ≠ none) :
    ∃ m, v.reach = some m ∧ m < v.s := by
  cases hreach : v.reach with
  | none => exact absurd hreach hne
  | some m =>
    rw [Iv.begins, hreach] at hbegins
    exact ⟨m, rfl, of_decide_eq_true hbegins⟩

/-- A row stands before another in a sorted list. -/
theorem s_le_of_split {pre post ws : List Iv} {v : Iv} (hsorted : ws.Pairwise fun a b => a.s ≤ b.s)
    (hws : ws = pre ++ v :: post) : (∀ w ∈ pre, w.s ≤ v.s) ∧ ∀ w ∈ post, v.s ≤ w.s := by
  subst hws
  obtain ⟨-, hpost, hpre⟩ := List.pairwise_append.mp hsorted
  exact ⟨fun w hw => hpre w hw v List.mem_cons_self, fun w hw => List.rel_of_pairwise_cons hpost hw⟩

theorem AllExact.later (hpass : FirstPass (v₀ :: vs))
    (hsorted : (v₀ :: vs).Pairwise fun a b => a.s ≤ b.s) (h : AllExact v₀.s v₀.s (v₀ :: vs))
    {pre post : List Iv} {v : Iv} (hvs : v₀ :: vs = pre ++ v :: post) (hbegins : v.begins = true)
    (hne : v.reach ≠ none) : ∀ w ∈ pre, w.s ≠ v.s := by
  intro w hw hws
  obtain ⟨k, hreach, hlt⟩ := reach_of_begins hbegins hne
  have hv : v ∈ v₀ :: vs := hvs ▸ List.mem_append_right _ List.mem_cons_self
  obtain ⟨x, hx, hxs⟩ := hpass.earlier v hv k hreach hlt
  have hstart : v₀.s < v.s := by
    rcases List.mem_cons.mp hx with rfl | hx
    · exact hxs
    · exact (List.rel_of_pairwise_cons hsorted hx).trans_lt hxs
  -- The first of the ties stands beyond all that ended, and so has to begin an island too.
  obtain ⟨z, hz⟩ := Option.isSome_iff_exists.mp
    (List.find?_isSome.mpr ⟨w, hw, beq_iff_eq.mpr hws⟩ :
      (pre.find? fun w => w.s == v.s).isSome)
  obtain ⟨hzs, p₁, p₂, rfl, hp₁⟩ := List.find?_eq_some_iff_append.mp hz
  have hzs : z.s = v.s := beq_iff_eq.mp hzs
  rw [List.append_assoc, List.cons_append] at hvs
  have hends : reached v₀.s p₁ < z.s := by
    refine reached_lt_iff.mpr ⟨hzs ▸ hstart, fun y hy => ?_⟩
    have hys : y.s ≠ v.s := by simpa using hp₁ y hy
    have hyle : y.s ≤ v.s := hzs ▸ (s_le_of_split hsorted hvs).1 y hy
    rw [hzs]
    exact hpass.before v hv k hreach hlt y (hvs ▸ List.mem_append_left _ hy)
      (lt_of_le_of_ne hyle hys)
  rw [hvs] at h
  obtain ⟨g, -, hexact, -⟩ := h.split (le_refl _)
  have hzbegins : z.begins = true := by
    by_contra hnot
    exact absurd hends (not_lt_of_ge (exact_of_not_begins hexact hnot).1)
  have honce := hpass.once v.s
  rw [hvs, List.countP_append, List.countP_cons_of_pos (by simp [hzbegins, hzs]),
    List.countP_append, List.countP_cons_of_pos (by simp [hbegins])] at honce
  omega

theorem AllExact.first (hpass : FirstPass (v₀ :: vs))
    (hsorted : (v₀ :: vs).Pairwise fun a b => a.s ≤ b.s) (h : AllExact v₀.s v₀.s (v₀ :: vs))
    {pre post : List Iv} {v : Iv} (hvs : v₀ :: vs = pre ++ v :: post) (hnone : v.reach = none) :
    (∀ w ∈ pre, w.e = w.s) ∨ ∀ w ∈ v :: post.takeWhile (!·.begins), w.s = v.s ∧ w.e = v.s := by
  have hbegins : v.begins = true := by rw [Iv.begins, hnone]
  have hv : v ∈ v₀ :: vs := hvs ▸ List.mem_append_right _ List.mem_cons_self
  have hleast := hpass.least v hv hnone
  obtain ⟨hpre, hpost⟩ := s_le_of_split hsorted hvs
  have hall := h
  rw [hvs] at hall
  obtain ⟨g, -, hexact, hrest⟩ := hall.split (le_refl _)
  have hreached : v.s ≤ reached v₀.s pre :=
    (hleast v₀ List.mem_cons_self).trans (reached_le_iff.mp (le_refl _)).1
  by_cases heq : reached v₀.s pre = v.s
  · refine .inl fun w hw => ?_
    have hw' : w ∈ v₀ :: vs := hvs ▸ List.mem_append_left _ hw
    have hwe : w.e ≤ v.s := (reached_le_iff.mp heq.le).2 w hw
    exact le_antisymm (hwe.trans (hleast w hw')) (hpass.le w hw')
  · have hve : v.e = v.s := (exact_of_begins hexact hbegins hreached).resolve_right heq
    rw [hbegins, if_pos rfl] at hrest
    have hlags : v.e < max (reached v₀.s pre) v.e :=
      lt_max_of_lt_left (hve ▸ lt_of_le_of_ne hreached (Ne.symm heq))
    refine .inr (List.forall_mem_cons.mpr ⟨⟨rfl, hve⟩, fun w hw => ?_⟩)
    have hwpost : w ∈ post := (List.takeWhile_sublist _).subset hw
    have hw' : w ∈ v₀ :: vs := hvs ▸ List.mem_append_right _ (List.mem_cons_of_mem _ hwpost)
    have hwe : w.e ≤ v.s := hve ▸ hrest.lags hlags w hw
    have hws : w.s ≤ w.e := hpass.le w hw'
    have hvw : v.s ≤ w.s := hpost w hwpost
    exact ⟨by linarith, by linarith⟩

theorem v₀_le (hsorted : (v₀ :: vs).Pairwise fun a b => a.s ≤ b.s) :
    ∀ w ∈ v₀ :: vs, v₀.s ≤ w.s := by
  intro w hw
  rcases List.mem_cons.mp hw with rfl | hw
  · exact le_refl _
  · exact List.rel_of_pairwise_cons hsorted hw

/-- Where a row begins an island, all before has ended, or nothing has a duration. -/
theorem TiesAgree.of_begins (hties : TiesAgree (v₀ :: vs)) (hpass : FirstPass (v₀ :: vs))
    (hsorted : (v₀ :: vs).Pairwise fun a b => a.s ≤ b.s) {pre post : List Iv} {v : Iv}
    (hvs : v₀ :: vs = pre ++ v :: post) (hbegins : v.begins = true) :
    reached v₀.s pre ≤ v.s ∨
      ∀ w ∈ v :: post.takeWhile (!·.begins), w.s = v.s ∧ w.e = v.s := by
  have hv : v ∈ v₀ :: vs := hvs ▸ List.mem_append_right _ List.mem_cons_self
  have hpre := (s_le_of_split hsorted hvs).1
  have hstart := v₀_le hsorted v hv
  by_cases hnone : v.reach = none
  · refine (hties.first pre v post hvs hnone).imp_left fun hzero => ?_
    exact reached_le_iff.mpr ⟨hstart, fun w hw => hzero w hw ▸ hpre w hw⟩
  · obtain ⟨k, hreach, hlt⟩ := reach_of_begins hbegins hnone
    refine .inl (reached_le_iff.mpr ⟨hstart, fun w hw => ?_⟩)
    have hws : w.s < v.s :=
      lt_of_le_of_ne (hpre w hw) (hties.later pre v post hvs hbegins hnone w hw)
    exact (hpass.before v hv k hreach hlt w (hvs ▸ List.mem_append_left _ hw) hws).le

/-- A row that begins no island starts before all has ended. -/
theorem TiesAgree.of_not_begins (hties : TiesAgree (v₀ :: vs)) (hpass : FirstPass (v₀ :: vs))
    (hsorted : (v₀ :: vs).Pairwise fun a b => a.s ≤ b.s) {pre post : List Iv} {v : Iv}
    (hvs : v₀ :: vs = pre ++ v :: post) (hbegins : v.begins ≠ true) : v.s ≤ reached v₀.s pre := by
  by_contra hnot
  obtain ⟨hstart, hends⟩ := reached_lt_iff.mp (not_le.mp hnot)
  have hv : v ∈ v₀ :: vs := hvs ▸ List.mem_append_right _ List.mem_cons_self
  have hpost := (s_le_of_split hsorted hvs).2
  obtain ⟨f, hf, hfbegins, hfs⟩ := hpass.found v hv fun w hw hlt => by
    rcases List.mem_append.mp (hvs ▸ hw) with hw | hw
    · exact hends w hw
    · rcases List.mem_cons.mp hw with rfl | hw
      · exact absurd hlt (lt_irrefl _)
      · exact absurd hlt (not_lt_of_ge (hpost w hw))
  rcases List.mem_append.mp (hvs ▸ hf) with hpre | hf'
  · have hle := hpass.le f hf
    exact absurd (hends f hpre) (not_lt_of_ge (hfs ▸ hle))
  · have hpost : f ∈ post :=
      (List.mem_cons.mp hf').resolve_left fun h => hbegins (h ▸ hfbegins)
    obtain ⟨a, b, rfl⟩ := List.append_of_mem hpost
    by_cases hnone : f.reach = none
    · have hle := hpass.least f hf hnone v₀ List.mem_cons_self
      exact absurd hstart (not_lt_of_ge (hfs ▸ hle))
    · have hsplit : v₀ :: vs = (pre ++ v :: a) ++ f :: b := by simp [hvs]
      exact hties.later _ f b hsplit hfbegins hnone v
        (List.mem_append_right _ List.mem_cons_self) hfs.symm

/-- At every row the island so far ends with the last end, or nothing more of it lies beyond
`g`. -/
theorem TiesAgree.allExact (hties : TiesAgree (v₀ :: vs)) (hpass : FirstPass (v₀ :: vs))
    (hsorted : (v₀ :: vs).Pairwise fun a b => a.s ≤ b.s) {ws pre : List Iv} {g : Rat}
    (hvs : v₀ :: vs = pre ++ ws)
    (hg : g = reached v₀.s pre ∨ ∀ w ∈ ws.takeWhile (!·.begins), w.e ≤ g) :
    AllExact g (reached v₀.s pre) ws := by
  induction ws generalizing pre g with
  | nil => trivial
  | cons v ws ih =>
    have hle : v.s ≤ v.e := hpass.le v (hvs ▸ List.mem_append_right _ List.mem_cons_self)
    have hnext : v₀ :: vs = (pre ++ [v]) ++ ws := by simp [hvs]
    rw [AllExact, ← reached_concat]
    by_cases hbegins : v.begins = true
    · rw [Exact, if_pos hbegins, if_pos hbegins]
      rcases hties.of_begins hpass hsorted hvs hbegins with hended | hzero
      · refine ⟨fun h => .inr (le_antisymm hended h), ih hnext (.inl ?_)⟩
        rw [reached_concat, max_eq_right (hended.trans hle)]
      · obtain ⟨⟨-, hve⟩, hzero⟩ := List.forall_mem_cons.mp hzero
        exact ⟨fun _ => .inl hve, ih hnext (.inr fun w hw => by rw [(hzero w hw).2, hve])⟩
    · rw [Exact, if_neg hbegins, if_neg hbegins]
      rw [List.takeWhile_cons_of_pos (by simpa using hbegins), List.forall_mem_cons] at hg
      refine ⟨⟨hties.of_not_begins hpass hsorted hvs hbegins, hg.imp_right And.left⟩, ih hnext ?_⟩
      rcases hg with rfl | ⟨hge, hrest⟩
      · exact .inl (reached_concat _ _ _).symm
      · rw [max_eq_left hge]
        exact .inr hrest

theorem allExact_iff_tiesAgree (hpass : FirstPass (v₀ :: vs))
    (hsorted : (v₀ :: vs).Pairwise fun a b => a.s ≤ b.s) :
    AllExact v₀.e v₀.e vs ↔ TiesAgree (v₀ :: vs) := by
  have hle := hpass.le v₀ List.mem_cons_self
  have hfirst : AllExact v₀.s v₀.s (v₀ :: vs) ↔ AllExact v₀.e v₀.e vs := by
    rw [AllExact, Exact, max_eq_right hle]
    simp
  rw [← hfirst]
  constructor
  · intro h
    exact ⟨fun _ _ _ hvs hbegins hne => h.later hpass hsorted hvs hbegins hne,
      fun _ _ _ hvs hnone => h.first hpass hsorted hvs hnone⟩
  · exact fun hties => hties.allExact hpass hsorted (List.nil_append _).symm (.inl rfl)

end Ties

/-! ## The measure -/

section Measure

open MeasureTheory Set

/-- The times at which a request is outstanding, in microseconds. -/
def outstanding (r : List Request) : Set ℝ := ⋃ q ∈ r, Icc (q.t0Us : ℝ) (q.endUs : ℝ)

/-- `active_ms` is the length of the union, and not above `window_ms`. -/
structure Measured {r : List Request} (o : Orders r) : Prop where
  union : ∃ a, o.activeMs = some a ∧ (a : ℝ) = volume.real (outstanding r) / 1000
  window : ∃ a w, o.activeMs = some a ∧ windowMs r = some w ∧ a ≤ w

variable {r : List Request}

theorem Orders.mem_second (o : Orders r) {s e : Rat} :
    (∃ v ∈ o.second, v.s = s ∧ v.e = e) ↔ ∃ q ∈ r, q.t0Us = s ∧ q.endUs = e := by
  constructor
  · rintro ⟨v, hv, rfl, rfl⟩
    obtain ⟨q, hq, hs, he⟩ := exists_of_mem_iv (o.second_perm.mem_iff.mp hv)
    exact ⟨q, o.first_perm.mem_iff.mp hq, hs.symm, he.symm⟩
  · rintro ⟨q, hq, rfl, rfl⟩
    obtain ⟨v, hv, hs, he⟩ := exists_mem_iv (o.first_perm.mem_iff.mpr hq) none
    exact ⟨v, o.second_perm.mem_iff.mpr hv, hs, he⟩

theorem Orders.outstanding_eq (o : Orders r) : outstanding r =
    ⋃ w ∈ (pairs o.second).map fun v => ((v.1 : ℝ), (v.2 : ℝ)), Icc w.1 w.2 := by
  ext x
  simp only [outstanding, pairs, mem_iUnion, exists_prop, List.map_map, List.mem_map,
    Function.comp_apply]
  constructor
  · rintro ⟨q, hq, hx⟩
    obtain ⟨v, hv, hs, he⟩ := o.mem_second.mpr ⟨q, hq, rfl, rfl⟩
    exact ⟨_, ⟨v, hv, rfl⟩, by rw [hs, he]; exact hx⟩
  · rintro ⟨_, ⟨v, hv, rfl⟩, hx⟩
    obtain ⟨q, hq, hs, he⟩ := o.mem_second.mp ⟨v, hv, rfl, rfl⟩
    exact ⟨q, hq, by rw [hs, he]; exact hx⟩

theorem Orders.firstPass (o : Orders r) : FirstPass o.second :=
  (HttpStats.firstPass o.first_sorted).perm o.second_perm

/-- The length of the union, row by row. -/
theorem Orders.volume_outstanding (o : Orders r) {v : Iv} {vs : List Iv}
    (hsecond : o.second = v :: vs) :
    volume.real (outstanding r) = (((v.e - v.s) + covered v.e (pairs vs) : Rat) : ℝ) := by
  have hpass := o.firstPass
  have hsorted := o.second_sorted
  rw [o.outstanding_eq, hsecond]
  rw [hsecond] at hpass hsorted
  have hle : ∀ w ∈ (pairs (v :: vs)).map fun v => ((v.1 : ℝ), (v.2 : ℝ)), w.1 ≤ w.2 := by
    intro w hw
    obtain ⟨_, hp, rfl⟩ := List.mem_map.mp hw
    obtain ⟨u, hu, rfl⟩ := List.mem_map.mp hp
    exact Rat.cast_le.mpr (hpass.le u hu)
  have hpairs : ((pairs (v :: vs)).map fun v => ((v.1 : ℝ), (v.2 : ℝ))).Pairwise
      fun v w => v.1 ≤ w.1 := by
    refine List.pairwise_map.mpr (List.pairwise_map.mpr (hsorted.imp fun h => ?_))
    exact Rat.cast_le.mpr h
  have hvolume := volume_union hle hpairs
  rw [Rat.cast_add, covered_cast, Rat.cast_sub]
  exact hvolume

theorem windowMs_eq (hr : r ≠ []) : ∃ mx mn, windowMs r = some ((mx - mn) / 1000) ∧ mn ≤ mx ∧
    ∀ q ∈ r, mn ≤ q.t0Us ∧ q.endUs ≤ mx := by
  obtain ⟨mx, hmx⟩ := Option.isSome_iff_exists.mp
    (List.isSome_max?_of_ne_nil (by simpa using hr) : (r.map Request.endUs).max?.isSome)
  obtain ⟨mn, hmn⟩ := Option.isSome_iff_exists.mp
    (List.isSome_min?_of_ne_nil (by simpa using hr) : (r.map Request.t0Us).min?.isSome)
  have hends : ∀ q ∈ r, q.endUs ≤ mx := fun q hq =>
    (List.max?_eq_some_iff.mp hmx).2 _ (List.mem_map_of_mem hq)
  have hstarts : ∀ q ∈ r, mn ≤ q.t0Us := fun q hq =>
    (List.min?_eq_some_iff.mp hmn).2 _ (List.mem_map_of_mem hq)
  obtain ⟨q, hq⟩ := List.exists_mem_of_ne_nil r hr
  refine ⟨mx, mn, ?_, ?_, fun q hq => ⟨hstarts q hq, hends q hq⟩⟩
  · rw [windowMs, hmx, hmn]
  · exact (hstarts q hq).trans (q.le_endUs.trans (hends q hq))

theorem volume_outstanding_le {mn mx : Rat} (hle : mn ≤ mx)
    (hall : ∀ q ∈ r, mn ≤ q.t0Us ∧ q.endUs ≤ mx) :
    volume.real (outstanding r) ≤ ((mx - mn : Rat) : ℝ) := by
  have hsubset : outstanding r ⊆ Icc (mn : ℝ) (mx : ℝ) := by
    refine iUnion₂_subset fun q hq => Icc_subset_Icc ?_ ?_
    · exact Rat.cast_le.mpr (hall q hq).1
    · exact Rat.cast_le.mpr (hall q hq).2
  have hfinite : volume (Icc (mn : ℝ) (mx : ℝ)) ≠ ⊤ := measure_Icc_lt_top.ne
  have hmono := measureReal_mono hsubset hfinite
  rwa [Real.volume_real_Icc_of_le (Rat.cast_le.mpr hle), ← Rat.cast_sub] at hmono

/-- **`active_ms` is the measure of the union if and only if the ties of the second window agree
with the first.** -/
theorem activeMs_iff (o : Orders r) (hr : r ≠ []) : Measured o ↔ TiesAgree o.second := by
  obtain ⟨q, hq⟩ := List.exists_mem_of_ne_nil r hr
  obtain ⟨v₀, hv₀, -⟩ := o.mem_second.mpr ⟨q, hq, rfl, rfl⟩
  obtain ⟨v, vs, hsecond⟩ := List.exists_cons_of_ne_nil (List.ne_nil_of_mem hv₀)
  have hpass := o.firstPass
  have hsorted := o.second_sorted
  have hvolume := o.volume_outstanding hsecond
  have hactive := activeMs_eq hsecond
  rw [hsecond] at hpass hsorted
  have hle : ∀ w ∈ vs, w.s ≤ w.e := fun w hw => hpass.le w (List.mem_cons_of_mem _ hw)
  rw [hsecond, ← allExact_iff_tiesAgree hpass hsorted, ← (counted_eq_iff (le_refl v.e) hle).2]
  constructor
  · rintro ⟨⟨a, ha, hunion⟩, -⟩
    rw [hactive] at ha
    rw [← Option.some.inj ha, hvolume] at hunion
    have heq : ((v.e - v.s) + counted v.e vs) / 1000 =
        ((v.e - v.s) + covered v.e (pairs vs)) / 1000 := by exact_mod_cast hunion
    linarith
  · intro heq
    have hunion : ((((v.e - v.s) + counted v.e vs) / 1000 : Rat) : ℝ) =
        volume.real (outstanding r) / 1000 := by
      rw [hvolume, heq]
      push_cast
      rfl
    obtain ⟨mx, mn, hwindow, hmnmx, hall⟩ := windowMs_eq hr
    have hbound := volume_outstanding_le hmnmx hall
    rw [hvolume, ← heq] at hbound
    have hbound : (v.e - v.s) + counted v.e vs ≤ mx - mn := by exact_mod_cast hbound
    exact ⟨⟨_, hactive, hunion⟩, _, _, hactive, hwindow, by linarith⟩

end Measure

/-! ## Two requests of one start -/

namespace OneStart

def first : Request := ⟨"GET", 0, 1, by decide⟩

def short : Request := ⟨"GET", 10000, 2, by decide⟩

def long : Request := ⟨"GET", 10000, 5, by decide⟩

/-- The first window has the short one before the long one, the second after it. -/
def orders : Orders [first, short, long] where
  first := [first, short, long]
  first_perm := .refl _
  first_sorted := by decide
  second := [⟨0, 1000, none⟩, ⟨10000, 15000, some 12000⟩, ⟨10000, 12000, some 1000⟩]
  second_perm := by decide +kernel
  second_sorted := by decide

end OneStart

theorem not_measured_oneStart : ¬ Measured OneStart.orders := by
  rintro ⟨-, a, w, hactive, hwindow, hle⟩
  have hactive' : OneStart.orders.activeMs = some 17 := by decide +kernel
  have hwindow' : windowMs [OneStart.first, OneStart.short, OneStart.long] = some 15 := by
    decide +kernel
  rw [hactive'] at hactive
  rw [hwindow'] at hwindow
  rw [← Option.some.inj hactive, ← Option.some.inj hwindow] at hle
  exact absurd hle (by decide)

theorem activeMs_iff_oneStart : Measured OneStart.orders ↔ TiesAgree OneStart.orders.second :=
  activeMs_iff OneStart.orders (by simp)

end HttpStats
