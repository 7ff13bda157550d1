import Mathlib.Tactic.FieldSimp
import Mathlib.Tactic.Linarith
import Mathlib.Tactic.NormNum
import Mathlib.Tactic.Positivity
import Mathlib.Tactic.Ring
import MiniosvCtrl.Bench.Breakdown

/-!
# When a bar is the wall time

What the parts of a request's life add up to more than the life itself, the bar is higher than the
wall time, and so is one whose time with a request outstanding is longer than the query.

* `split_eq` — what the split of the outstanding time adds up to
* `miniosv_iff`, `linux_iff`
* `wall_time_iff`
-/

namespace Breakdown

/-! ## The split -/

section

variable {active s3 wire life : Rat}

/-- What the parts of a life have too much of it. -/
def excess (active s3 wire life : Rat) : Rat := active * max 0 (s3 + wire - life) / life

theorem excess_nonneg (hactive : 0 ≤ active) (hlife : 0 < life) : 0 ≤ excess active s3 wire life :=
  div_nonneg (mul_nonneg hactive (le_max_left _ _)) hlife.le

theorem split_eq (hlife : 0 < life) :
    active * s3 / life + active * wire / life + active * max 0 (life - s3 - wire) / life =
      active + excess active s3 wire life := by
  have hne : life ≠ 0 := hlife.ne'
  rw [excess]
  rcases le_total (s3 + wire) life with hle | hle
  · rw [max_eq_right (by linarith : 0 ≤ life - s3 - wire),
      max_eq_left (by linarith : s3 + wire - life ≤ 0)]
    field_simp
    ring
  · rw [max_eq_left (by linarith : life - s3 - wire ≤ 0),
      max_eq_right (by linarith : 0 ≤ s3 + wire - life)]
    field_simp
    ring

theorem excess_eq_zero_iff (hlife : 0 < life) :
    excess active s3 wire life = 0 ↔ active = 0 ∨ s3 + wire ≤ life := by
  rw [excess, div_eq_zero_iff, mul_eq_zero, max_eq_left_iff, sub_nonpos]
  constructor
  · rintro (h | h)
    · exact h
    · exact absurd h hlife.ne'
  · exact Or.inl

end

/-! ## The property -/

/-- The parts of a bar are not negative and add up to the wall time. -/
structure IsWall (bar : Option Bar) (wall : Rat) : Prop where
  exists_bar : ∃ b, bar = some b ∧ (∀ p ∈ b.parts, 0 ≤ p) ∧ b.parts.sum = wall

theorem isWall_some_iff {b : Bar} {wall : Rat} :
    IsWall (some b) wall ↔ (∀ p ∈ b.parts, 0 ≤ p) ∧ b.parts.sum = wall := by
  constructor
  · rintro ⟨b', hb, h⟩
    rw [Option.some_inj.mp hb]
    exact h
  · exact fun h => ⟨b, rfl, h⟩

theorem not_isWall_none {wall : Rat} : ¬ IsWall none wall := by
  rintro ⟨b, hb, -⟩
  cases hb

theorem divide_of_ne {a b : Rat} (h : b ≠ 0) : divide a b = some (a / b) := if_neg h

theorem divide_zero (a : Rat) : divide a 0 = none := if_pos rfl

/-- **A life that is split in three.** -/
theorem isWall_split_iff {active s3 wire life wall : Rat} {b : Bar} (hactive : 0 ≤ active)
    (hs3 : 0 ≤ s3) (hwire : 0 ≤ wire) (hlife : 0 < life)
    (hparts : b.parts = [active * s3 / life, active * wire / life,
      active * max 0 (life - s3 - wire) / life, 0, max 0 (wall - active)]) :
    IsWall (some b) wall ↔ active ≤ wall ∧ (active = 0 ∨ s3 + wire ≤ life) := by
  have hsplit := @split_eq active s3 wire life hlife
  have hexcess := @excess_nonneg active s3 wire life hactive hlife
  have hsum : b.parts.sum = active + excess active s3 wire life + max 0 (wall - active) := by
    rw [hparts, ← hsplit]
    simp only [List.sum_cons, List.sum_nil]
    ring
  have hall : ∀ p ∈ b.parts, 0 ≤ p := by
    rw [hparts]
    simp only [List.forall_mem_cons]
    refine ⟨by positivity, by positivity, ?_, le_refl 0, le_max_left _ _, fun _ h => ?_⟩
    · exact div_nonneg (mul_nonneg hactive (le_max_left _ _)) hlife.le
    · exact absurd h List.not_mem_nil
  rw [isWall_some_iff, hsum, ← excess_eq_zero_iff hlife]
  constructor
  · rintro ⟨-, h⟩
    have hrest := le_max_right 0 (wall - active)
    have hzero := le_max_left 0 (wall - active)
    exact ⟨by linarith, by linarith⟩
  · rintro ⟨hle, h⟩
    refine ⟨hall, ?_⟩
    rw [h, max_eq_right (sub_nonneg.mpr hle)]
    ring

/-! ## miniOSv -/

/-- A positive number of requests, and times that are not negative. -/
structure MiniosvRun.Plausible (m : MiniosvRun) : Prop where
  queryMs : 0 ≤ m.queryMs
  netMs : 0 ≤ m.netMs
  netCalls : 0 < m.netCalls
  ttfbUsAvg : 0 ≤ m.ttfbUsAvg
  xferUsAvg : 0 ≤ m.xferUsAvg
  netActiveMs : 0 ≤ m.netActiveMs

/-- The requests took some time, they were outstanding no longer than the query took, and the
measured parts of their average life are no longer than it, or nothing was outstanding. -/
structure MiniosvRun.Consistent (m : MiniosvRun) : Prop where
  lived : 0 < m.netMs
  within : m.netActiveMs ≤ m.queryMs
  fits : m.netActiveMs = 0 ∨ m.s3 + m.wire ≤ m.netMs / m.netCalls

theorem miniosv_iff {m : MiniosvRun} (h : m.Plausible) : IsWall m.bar m.queryMs ↔ m.Consistent := by
  have hcalls : m.netCalls ≠ 0 := h.netCalls.ne'
  have hs3 : 0 ≤ m.s3 := div_nonneg h.ttfbUsAvg (by norm_num)
  have hwire : 0 ≤ m.wire := div_nonneg h.xferUsAvg (by norm_num)
  rcases h.netMs.eq_or_lt with hzero | hpos
  · have hbar : m.bar = none := by
      simp only [MiniosvRun.bar, divide_of_ne hcalls, ← hzero, zero_div, Option.bind_eq_bind,
        Option.bind_some, divide_zero, Option.bind_none]
    rw [hbar]
    refine iff_of_false not_isWall_none fun hc => ?_
    exact hc.lived.ne hzero
  · have hlife : 0 < m.netMs / m.netCalls := div_pos hpos h.netCalls
    simp only [MiniosvRun.bar, divide_of_ne hcalls, Option.bind_eq_bind, Option.bind_some,
      divide_of_ne hlife.ne']
    rw [isWall_split_iff h.netActiveMs hs3 hwire hlife rfl]
    exact ⟨fun ⟨hwithin, hfits⟩ => ⟨hpos, hwithin, hfits⟩, fun hc => ⟨hc.within, hc.fits⟩⟩

/-! ## Linux -/

/-- A positive number of requests, and times that are not negative. -/
structure LinuxRun.Plausible (m : LinuxRun) : Prop where
  queryMs : 0 ≤ m.queryMs
  httpMsSum : 0 ≤ m.httpMsSum
  httpN : 0 < m.httpN
  httpWindowMs : 0 ≤ m.httpWindowMs
  httpActiveMs : ∀ t ∈ m.httpActiveMs, 0 ≤ t
  httpProfileMs : ∀ t ∈ m.httpProfileMs, 0 ≤ t
  npTtfbMsAvg : ∀ t ∈ m.npTtfbMsAvg, 0 ≤ t
  npBodyMsAvg : 0 ≤ m.npBodyMsAvg

/-- Of a run with the columns of netphase: the requests took some time, and the measured parts of
their average life are no longer than it, or nothing was outstanding. -/
structure LinuxRun.Consistent (m : LinuxRun) : Prop where
  lived : ∀ s3 ∈ m.npTtfbMsAvg, 0 < m.httpMsSum
  fits : ∀ s3 ∈ m.npTtfbMsAvg,
    m.logged = 0 ∨ m.queryMs = 0 ∨ s3 + m.npBodyMsAvg ≤ m.httpMsSum / m.httpN

namespace LinuxRun

variable {m : LinuxRun}

theorem Plausible.logged (h : m.Plausible) : 0 ≤ m.logged := by
  rw [LinuxRun.logged]
  cases hactive : m.httpActiveMs with
  | none => exact h.httpWindowMs
  | some t => exact h.httpActiveMs t hactive

theorem Plausible.scale (h : m.Plausible) :
    0 ≤ m.scale ∧ (m.scale = 0 → m.queryMs = 0) := by
  rw [LinuxRun.scale]
  cases hprofile : m.httpProfileMs with
  | none => exact ⟨zero_le_one, fun h => absurd h one_ne_zero⟩
  | some profile =>
    have hnonneg := h.httpProfileMs profile hprofile
    by_cases hzero : profile = 0
    · simp only [if_pos hzero]
      exact ⟨zero_le_one, fun h => absurd h one_ne_zero⟩
    · simp only [if_neg hzero]
      refine ⟨div_nonneg h.queryMs hnonneg, fun h => ?_⟩
      exact (div_eq_zero_iff.mp h).resolve_right hzero

theorem Plausible.active (h : m.Plausible) : 0 ≤ m.active :=
  le_min (mul_nonneg h.logged h.scale.1) h.queryMs

/-- Nothing is outstanding, or there is no wall time. -/
theorem Plausible.active_eq_zero_iff (h : m.Plausible) :
    m.active = 0 ↔ m.logged = 0 ∨ m.queryMs = 0 := by
  rw [LinuxRun.active]
  constructor
  · intro hzero
    rcases min_choice (m.logged * m.scale) m.queryMs with hmin | hmin
    · rw [hmin] at hzero
      exact (mul_eq_zero.mp hzero).imp_right h.scale.2
    · rw [hmin] at hzero
      exact .inr hzero
  · rintro (hzero | hzero)
    · rw [hzero, zero_mul, min_eq_left h.queryMs]
    · rw [hzero, min_eq_right (mul_nonneg h.logged h.scale.1)]

end LinuxRun

theorem linux_iff {m : LinuxRun} (h : m.Plausible) : IsWall m.bar m.queryMs ↔ m.Consistent := by
  have hn : m.httpN ≠ 0 := h.httpN.ne'
  have hle : m.active ≤ m.queryMs := min_le_right _ _
  -- without a record of the network there is nothing to split
  cases hnp : m.npTtfbMsAvg with
  | none =>
    have hnone : ∀ s3, ¬ s3 ∈ m.npTtfbMsAvg := by
      intro s3 hs3
      rw [hnp] at hs3
      cases hs3
    refine iff_of_true ?_ ⟨fun s3 hs3 => absurd hs3 (hnone s3), fun s3 hs3 => absurd hs3 (hnone s3)⟩
    simp only [LinuxRun.bar, divide_of_ne hn, Option.bind_eq_bind, Option.bind_some, hnp]
    rw [isWall_some_iff]
    simp only [List.forall_mem_cons, List.sum_cons, List.sum_nil]
    rw [max_eq_right (sub_nonneg.mpr hle)]
    refine ⟨⟨le_refl 0, le_refl 0, le_refl 0, h.active, sub_nonneg.mpr hle, ?_⟩, by ring⟩
    exact fun _ hp => absurd hp List.not_mem_nil
  | some s3 =>
    have hs3 : 0 ≤ s3 := h.npTtfbMsAvg s3 hnp
    have hiff : m.Consistent ↔ 0 < m.httpMsSum ∧ (m.logged = 0 ∨ m.queryMs = 0 ∨
        s3 + m.npBodyMsAvg ≤ m.httpMsSum / m.httpN) := by
      refine ⟨fun hc => ⟨hc.lived s3 hnp, hc.fits s3 hnp⟩, fun hc => ?_⟩
      refine ⟨fun _ _ => hc.1, fun s3' hs3' => ?_⟩
      rw [hnp] at hs3'
      rw [← Option.some_inj.mp hs3']
      exact hc.2
    rw [hiff]
    -- a sum of 0 divides by 0
    rcases h.httpMsSum.eq_or_lt with hzero | hpos
    · have hbar : m.bar = none := by
        simp only [LinuxRun.bar, divide_of_ne hn, ← hzero, zero_div, Option.bind_eq_bind,
          Option.bind_some, hnp, divide_zero, Option.bind_none]
      rw [hbar]
      exact iff_of_false not_isWall_none fun hc => hc.1.ne hzero
    · have hlife : 0 < m.httpMsSum / m.httpN := div_pos hpos h.httpN
      simp only [LinuxRun.bar, divide_of_ne hn, Option.bind_eq_bind, Option.bind_some, hnp,
        divide_of_ne hlife.ne']
      rw [isWall_split_iff h.active hs3 h.npBodyMsAvg hlife rfl, h.active_eq_zero_iff, or_assoc]
      exact ⟨fun hc => ⟨hpos, hc.2⟩, fun hc => ⟨hle, hc.2⟩⟩

/-! ## Every group of runs -/

/-- **When the bars are the wall time.** -/
theorem wall_time_iff (S : SortValues MiniosvRun MiniosvRun.queryMs)
    (T : SortValues LinuxRun LinuxRun.queryMs) :
    (∀ g m, medianRun S g = some m → m.Plausible →
      (IsWall (miniosv S g) m.queryMs ↔ m.Consistent)) ∧
    ∀ g m, medianRun T g = some m → m.Plausible →
      (IsWall (linux T g) m.queryMs ↔ m.Consistent) := by
  constructor
  · intro g m hm h
    rw [miniosv, hm, Option.bind_some]
    exact miniosv_iff h
  · intro g m hm h
    rw [linux, hm, Option.bind_some]
    exact linux_iff h

/-- Two requests of 10 ms each, with 4 ms of them S3's and 4 ms on the wire; they were outstanding
for 12 ms of a query of 10 ms. -/
def outstanding : MiniosvRun :=
  { queryMs := 10, netMs := 20, netCalls := 2, ttfbUsAvg := 4000, xferUsAvg := 4000,
    netActiveMs := 12 }

theorem medianRun_singleton {α : Type} {wall : α → Rat} (S : SortValues α wall) (m : α) :
    medianRun S [m] = some m := by
  rw [medianRun, List.perm_singleton.mp (S.perm [m])]
  simp

theorem not_wall_time_outstanding :
    medianRun (SortValues.stable MiniosvRun.queryMs) [outstanding] = some outstanding ∧
    outstanding.Plausible ∧
    ¬ IsWall (miniosv (SortValues.stable MiniosvRun.queryMs) [outstanding])
      outstanding.queryMs := by
  have hm := medianRun_singleton (SortValues.stable MiniosvRun.queryMs) outstanding
  have hplausible : outstanding.Plausible := by
    constructor <;> norm_num [outstanding]
  refine ⟨hm, hplausible, ?_⟩
  rw [miniosv, hm, Option.bind_some, miniosv_iff hplausible]
  intro h
  exact absurd h.within (by norm_num [outstanding])

end Breakdown
