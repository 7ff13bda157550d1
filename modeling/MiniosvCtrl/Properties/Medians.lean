import Mathlib.Data.List.Sort
import Mathlib.Algebra.Order.Ring.Rat
import MiniosvCtrl.DuckdbLinux.Netphase
import MiniosvCtrl.Infra.Lists
import MiniosvCtrl.Infra.Ranks

/-!
# The medians of the report

The library dumps a histogram of milliseconds, and the report finds the first bucket up to which
half of the exchanges are. That is the bucket of the median.

* `sum_take_histogram` — how many durations are up to a bucket
* `scan_eq` — where the report stops
* `value_text` — an entry of the dump, read back
* `median_reported`
-/

namespace Netphase

open Infra

/-! ## Histograms -/

/-- The histogram of a list of durations. -/
def histogram (ds : List UInt64) : List Nat := ds.foldl hist (List.replicate hb 0)

/-- The bucket of a millisecond, the last one open-ended. -/
def millisecond (d : UInt64) : Nat := min (d.toNat / 1000000) 511

theorem bucket_eq (d : UInt64) : bucket d = millisecond d := by
  rw [bucket, millisecond, hb]
  by_cases h : d.toNat / 1000000 < 512
  · rw [if_pos h, Nat.min_eq_left (by omega)]
  · rw [if_neg h, Nat.min_eq_right (by omega)]

theorem millisecond_lt (d : UInt64) : millisecond d < hb := by
  simp only [millisecond, hb]
  omega

theorem millisecond_mono {d e : UInt64} (h : d ≤ e) : millisecond d ≤ millisecond e := by
  have hle : d.toNat / 1000000 ≤ e.toNat / 1000000 :=
    Nat.div_le_div_right (UInt64.le_iff_toNat_le.mp h)
  simp only [millisecond]
  omega

/-- One more in a cell shows in every sum that has the cell. -/
theorem sum_take_modify (h : List Nat) (b k : Nat) (hb : b < h.length) :
    ((h.modify b (· + 1)).take k).sum = (h.take k).sum + if b < k then 1 else 0 := by
  induction h generalizing b k with
  | nil => exact absurd hb (Nat.not_lt_zero b)
  | cons c h ih =>
    cases k with
    | zero => simp
    | succ k =>
      cases b with
      | zero =>
        rw [List.modify_zero_cons, List.take_succ_cons, List.take_succ_cons, List.sum_cons,
          List.sum_cons, if_pos (Nat.succ_pos k)]
        omega
      | succ b =>
        rw [List.modify_succ_cons, List.take_succ_cons, List.take_succ_cons, List.sum_cons,
          List.sum_cons, ih b k (Nat.lt_of_succ_lt_succ hb), Nat.add_assoc]
        simp only [Nat.succ_lt_succ_iff]

theorem length_hist (h : List Nat) (d : UInt64) : (hist h d).length = h.length :=
  List.length_modify _ _ _

theorem sum_take_hist {h : List Nat} (hlength : h.length = hb) (d : UInt64) (k : Nat) :
    ((hist h d).take k).sum = (h.take k).sum + if millisecond d < k then 1 else 0 := by
  have hlt := millisecond_lt d
  rw [hist, bucket_eq, sum_take_modify h _ _ (by omega)]

theorem sum_take_foldl (ds : List UInt64) {h : List Nat} (hlength : h.length = hb) (k : Nat) :
    ((ds.foldl hist h).take k).sum = (h.take k).sum + ds.countP (millisecond · < k) := by
  induction ds generalizing h with
  | nil => rfl
  | cons d ds ih =>
    rw [List.foldl_cons, ih ((length_hist h d).trans hlength), sum_take_hist hlength,
      List.countP_cons]
    simp only [decide_eq_true_eq]
    omega

theorem length_histogram (ds : List UInt64) : (histogram ds).length = hb := by
  have hfoldl : ∀ h : List Nat, (ds.foldl hist h).length = h.length := by
    induction ds with
    | nil => exact fun _ => rfl
    | cons d ds ih => exact fun h => (ih (hist h d)).trans (length_hist h d)
  rw [histogram, hfoldl, List.length_replicate]

/-- **So many durations are up to a bucket.** -/
theorem sum_take_histogram (ds : List UInt64) (k : Nat) :
    ((histogram ds).take k).sum = ds.countP (millisecond · < k) := by
  rw [histogram, sum_take_foldl ds List.length_replicate, List.take_replicate,
    List.sum_replicate_nat, Nat.mul_zero, Nat.zero_add]

theorem sum_histogram (ds : List UInt64) : (histogram ds).sum = ds.length := by
  have h := sum_take_histogram ds hb
  rw [List.take_of_length_le (length_histogram ds).le] at h
  rw [h]
  exact List.countP_eq_length.mpr fun d _ => decide_eq_true (millisecond_lt d)

/-! ## The loop -/

/-- **The loop stops where half of the total is reached first.** -/
theorem scan_eq {total j : Nat} (htotal : total ≠ 0) {h : List Nat} (i acc : Nat)
    (hj : j < h.length) (hreached : total ≤ (acc + (h.take (j + 1)).sum) * 2)
    (hbefore : ∀ k, k < j → (acc + (h.take (k + 1)).sum) * 2 < total) :
    scan total i acc h = (i + j : Nat) + 1 / 2 := by
  induction h generalizing i acc j with
  | nil => exact absurd hj (Nat.not_lt_zero j)
  | cons c h ih =>
    cases j with
    | zero =>
      have hstop : total ≠ 0 ∧ total ≤ (acc + c) * 2 := ⟨htotal, by simpa using hreached⟩
      rw [scan, if_pos hstop]
      rfl
    | succ j =>
      have hgo : ¬(total ≠ 0 ∧ total ≤ (acc + c) * 2) := by
        rintro ⟨-, hle⟩
        have hlt := hbefore 0 (Nat.succ_pos j)
        simp only [List.take_succ_cons, List.take_zero, List.sum_cons, List.sum_nil] at hlt
        omega
      have hsum : ∀ k, acc + ((c :: h).take (k + 1 + 1)).sum = acc + c + (h.take (k + 1)).sum := by
        intro k
        rw [List.take_succ_cons, List.sum_cons, Nat.add_assoc]
      have hreached' : total ≤ (acc + c + (h.take (j + 1)).sum) * 2 := by
        rw [← hsum]
        exact hreached
      have hbefore' : ∀ k, k < j → (acc + c + (h.take (k + 1)).sum) * 2 < total := by
        intro k hk
        rw [← hsum]
        exact hbefore (k + 1) (Nat.succ_lt_succ hk)
      have hindex : i + 1 + j = i + (j + 1) := by omega
      rw [scan, if_neg hgo, ih (i + 1) (acc + c) (Nat.lt_of_succ_lt_succ hj) hreached' hbefore',
        hindex]

theorem scan_zero (i acc : Nat) (h : List Nat) : scan 0 i acc h = 0 := by
  induction h generalizing i acc with
  | nil => rfl
  | cons c h ih => rw [scan, if_neg (by simp), ih]

/-! ## Medians -/

/-- The ⌈n/2⌉-th smallest of `n`. -/
def middle (ds : List UInt64) : Option UInt64 :=
  (ds.mergeSort (· ≤ ·))[(ds.length + 1) / 2 - 1]?

/-- The middle of its bucket, in milliseconds; `0` of no durations. -/
def median (ds : List UInt64) : Rat :=
  match middle ds with
  | none => 0
  | some d => millisecond d + 1 / 2

theorem scan_histogram (ds : List UInt64) :
    scan (histogram ds).sum 0 0 (histogram ds) = median ds := by
  rw [sum_histogram]
  by_cases hds : ds = []
  · subst hds
    rw [List.length_nil, scan_zero, median, middle, List.mergeSort_nil, List.getElem?_nil]
  have hpos : 0 < ds.length := List.length_pos_of_ne_nil hds
  have hlength : (ds.mergeSort (· ≤ ·)).length = ds.length := List.length_mergeSort ds
  have hlt : (ds.length + 1) / 2 - 1 < (ds.mergeSort (· ≤ ·)).length := by omega
  have hmiddle : middle ds = some (ds.mergeSort (· ≤ ·))[(ds.length + 1) / 2 - 1] :=
    List.getElem?_eq_getElem hlt
  have hsorted : ((ds.mergeSort (· ≤ ·)).map millisecond).Pairwise (· ≤ ·) :=
    (List.pairwise_map.mpr ((List.pairwise_mergeSort' (· ≤ ·) ds).imp millisecond_mono))
  have hi : (ds.length + 1) / 2 - 1 < ((ds.mergeSort (· ≤ ·)).map millisecond).length := by
    rw [List.length_map]
    exact hlt
  have hget : ((ds.mergeSort (· ≤ ·)).map millisecond)[(ds.length + 1) / 2 - 1] =
      millisecond (ds.mergeSort (· ≤ ·))[(ds.length + 1) / 2 - 1] := List.getElem_map _
  -- how many samples lie at or below a bucket, counted in the sorted list
  have hcount : ∀ k, ds.countP (millisecond · < k + 1) =
      atOrBelow ((ds.mergeSort (· ≤ ·)).map millisecond) k := by
    intro k
    rw [atOrBelow, List.countP_map, (List.mergeSort_perm ds _).countP_eq]
    exact List.countP_congr fun d _ => by
      rw [Function.comp_apply, decide_eq_true_eq, decide_eq_true_eq, Nat.lt_add_one_iff]
  have hreached := succ_le_atOrBelow hsorted hi
  rw [hget] at hreached
  have hbefore : ∀ k, k < millisecond (ds.mergeSort (· ≤ ·))[(ds.length + 1) / 2 - 1] →
      atOrBelow ((ds.mergeSort (· ≤ ·)).map millisecond) k ≤ (ds.length + 1) / 2 - 1 :=
    fun k hk => atOrBelow_le hsorted hi (hget ▸ hk)
  -- the scan stops at the bucket of the middle sample, and at none before it
  rw [median, hmiddle, scan_eq hpos.ne' 0 0
    (j := millisecond (ds.mergeSort (· ≤ ·))[(ds.length + 1) / 2 - 1])]
  · rw [Nat.zero_add]
  · rw [length_histogram]
    exact millisecond_lt _
  · rw [sum_take_histogram, hcount]
    omega
  · intro k hk
    rw [sum_take_histogram, hcount]
    have := hbefore k hk
    omega

/-! ## The text of the dump -/

theorem lines_ended {ls : List (List Char)} (h : ∀ l ∈ ls, '\n' ∉ l) :
    Regex.lines (ls.flatMap (· ++ ['\n'])) = ls ++ [[]] := by
  induction ls with
  | nil => exact Regex.lines_eq_singleton List.not_mem_nil
  | cons l ls ih =>
    obtain ⟨hl, hls⟩ := List.forall_mem_cons.mp h
    rw [List.flatMap_cons, List.append_assoc, List.singleton_append, Regex.lines_cons hl, ih hls,
      List.cons_append]

theorem fileLines_ended {ls : List (List Char)} (h : ∀ l ∈ ls, '\n' ∉ l) :
    fileLines (ls.flatMap (· ++ ['\n'])) = ls := by
  rw [fileLines, lines_ended h]
  simp

theorem partition_entry {key : String} (h : '=' ∉ key.toList) (v : List Char) :
    partition (key.toList ++ '=' :: v) = (key, v) := by
  have hkey : ∀ c ∈ key.toList, decide (c ≠ '=') = true := by
    intro c hc
    exact decide_eq_true fun heq => h (heq ▸ hc)
  rw [partition, List.takeWhile_append_of_pos hkey, List.dropWhile_append_of_pos hkey]
  simp

theorem isDigit_of_mem_decimal {n : Nat} {c : Char} (h : c ∈ decimal n) : c.isDigit = true :=
  Nat.isDigit_of_mem_toDigits (by decide) (by decide) h

theorem not_mem_decimal {c : Char} (hc : c.isDigit = false) (n : Nat) : c ∉ decimal n := by
  intro h
  rw [isDigit_of_mem_decimal h] at hc
  cases hc

theorem not_mem_column (h : List Nat) : '\n' ∉ column h := by
  induction h with
  | nil => exact List.not_mem_nil
  | cons n h ih =>
    cases h with
    | nil =>
      rw [column, List.map_singleton, List.intercalate_singleton]
      exact not_mem_decimal (by decide) n
    | cons m h =>
      have hcolumn : column (n :: m :: h) = decimal n ++ ',' :: column (m :: h) := by
        rw [column, List.map_cons, List.map_cons, List.intercalate_cons_cons]
        simp [column]
      have hn : '\n' ∉ decimal n := not_mem_decimal (by decide) n
      rw [hcolumn]
      simp [hn, ih]

/-- An entry whose text is one line. -/
def OneLine (e : String × List Char) : Prop :=
  '\n' ∉ e.1.toList ∧ '=' ∉ e.1.toList ∧ '\n' ∉ e.2

/-- **What an entry says is read back.** -/
theorem value_entries {es : List (String × List Char)} (hes : ∀ e ∈ es, OneLine e)
    (hkeys : (es.map Prod.fst).Nodup) {e : String × List Char} (he : e ∈ es) :
    value (es.flatMap entryText) e.1 = some e.2 := by
  have htext : es.flatMap entryText =
      (es.map fun e => e.1.toList ++ '=' :: e.2).flatMap (· ++ ['\n']) := by
    rw [List.flatMap_map]
    exact List.flatMap_congr fun e _ => by simp [entryText]
  have hlines : ∀ l ∈ es.map fun e => e.1.toList ++ '=' :: e.2, '\n' ∉ l := by
    intro l hl
    obtain ⟨e, he, rfl⟩ := List.mem_map.mp hl
    obtain ⟨hkey, -, hvalue⟩ := hes e he
    simp [hkey, hvalue]
  have hback : (es.map fun e => e.1.toList ++ '=' :: e.2).map partition = es := by
    rw [List.map_map]
    refine (List.map_congr_left fun e he => ?_).trans (List.map_id es)
    exact partition_entry (hes e he).2.1 e.2
  rw [value, htext, fileLines_ended hlines, hback]
  refine lookup_of_mem ?_ (List.mem_reverse.mpr he)
  rw [List.map_reverse]
  exact (List.reverse_perm _).nodup_iff.mpr hkeys

theorem int_decimal (n : Nat) : int (decimal n) = some n := by
  have hall : (decimal n).all Char.isDigit = true :=
    List.all_eq_true.mpr fun c hc => isDigit_of_mem_decimal hc
  rw [int, if_pos ⟨Nat.toDigits_ne_nil, hall⟩, decimal, Nat.ofDigitChars_ten_toDigits]

theorem mapM_column {h : List Nat} (hne : h ≠ []) :
    ((column h).splitOn ',').mapM int = some h := by
  have hsplit : (column h).splitOn ',' = h.map decimal := by
    refine List.splitOn_intercalate ',' ?_ (by simpa using hne)
    intro l hl
    obtain ⟨n, -, rfl⟩ := List.mem_map.mp hl
    exact not_mem_decimal (by decide) n
  rw [hsplit, mapM_eq_some_iff, List.map_map]
  exact List.map_congr_left fun n _ => int_decimal n

theorem oneLine_entries (d : Dump) : ∀ e ∈ d.entries, OneLine e := by
  have hdecimal : ∀ n, '\n' ∉ decimal n := not_mem_decimal (by decide)
  simp [Dump.entries, Agg.entries, OneLine, hdecimal, not_mem_column]

theorem nodup_entries (d : Dump) : (d.entries.map Prod.fst).Nodup := by
  simp [Dump.entries, Agg.entries]

/-- **The median of what an entry's histogram is made of.** -/
theorem p50_text (d : Dump) {key : String} {ds : List UInt64}
    (hmem : (key, column (histogram ds)) ∈ d.entries) : p50 d.text key = some (median ds) := by
  have hvalue := value_entries (oneLine_entries d) (nodup_entries d) hmem
  have hne : histogram ds ≠ [] := List.ne_nil_of_length_pos (by rw [length_histogram]; decide)
  rw [p50, Dump.text, hvalue, Option.bind_eq_bind, Option.bind_some, mapM_column hne,
    Option.bind_eq_bind, Option.bind_some, scan_histogram]

/-! ## Every run -/

theorem hTtfb_aggregate (xs : List Exchange) :
    (aggregate xs).hTtfb = histogram (xs.map Exchange.ttfb) := by
  have hfoldl : ∀ a : Agg, (xs.foldl Agg.count a).hTtfb =
      (xs.map Exchange.ttfb).foldl hist a.hTtfb := by
    induction xs with
    | nil => exact fun _ => rfl
    | cons x xs ih => exact fun a => ih (a.count x)
  exact hfoldl Agg.zero

theorem hBody_aggregate (xs : List Exchange) :
    (aggregate xs).hBody = histogram (xs.map Exchange.body) := by
  have hfoldl : ∀ a : Agg, (xs.foldl Agg.count a).hBody =
      (xs.map Exchange.body).foldl hist a.hBody := by
    induction xs with
    | nil => exact fun _ => rfl
    | cons x xs ih => exact fun a => ih (a.count x)
  exact hfoldl Agg.zero

/-- Both counts are those of some exchanges. -/
def Counted (p : Process) : Prop := (∃ xs, p.req = aggregate xs) ∧ ∃ xs, p.hs = aggregate xs

theorem aggregate_concat (xs : List Exchange) (x : Exchange) :
    aggregate (xs ++ [x]) = (aggregate xs).count x := List.foldl_concat ..

section

variable {p : Process}

theorem Counted.count (h : Counted p) (first : Bool) (x : Exchange) :
    Counted (p.count first x) := by
  obtain ⟨⟨reqs, hreq⟩, hss, hhs⟩ := h
  cases first with
  | true => exact ⟨⟨reqs, hreq⟩, hss ++ [x], by rw [aggregate_concat, ← hhs]; rfl⟩
  | false => exact ⟨⟨reqs ++ [x], by rw [aggregate_concat, ← hreq]; rfl⟩, hss, hhs⟩

theorem Counted.congr {q : Process} (h : Counted p) (hreq : q.req = p.req) (hhs : q.hs = p.hs) :
    Counted q := by
  rw [Counted, hreq, hhs]
  exact h

theorem Counted.closeExchange (h : Counted p) (fd : Nat) (tNext : Option UInt64) :
    Counted (p.closeExchange fd tNext) := by
  simp only [Process.closeExchange]
  split
  · exact h
  · exact h.count _ _

theorem Counted.step (h : Counted p) (c : Call) : Counted (step p c) := by
  cases c with
  | connect fd port =>
    cases port with
    | none => exact h
    | some port =>
      simp only [Netphase.step, Process.connect]
      split
      · exact h
      · exact h
  | send fd t =>
    simp only [Netphase.step, Process.onSend]
    split
    · exact (h.closeExchange fd.toNat (some t)).congr (by simp) (by simp)
    · exact h
  | recv fd n t =>
    simp only [Netphase.step, Process.onRecv]
    split
    · split
      · exact h
      · exact h.congr (by simp) (by simp)
    · exact h
  | close fd =>
    simp only [Netphase.step, Process.close]
    split
    · exact h.closeExchange _ _
    · exact h

theorem counted_run (calls : List Call) : Counted (run calls) := by
  have hfoldl : ∀ p, Counted p → Counted (calls.foldl Netphase.step p) := by
    induction calls with
    | nil => exact fun _ h => h
    | cons c calls ih => exact fun p h => ih (Netphase.step p c) (h.step c)
  exact hfoldl _ ⟨⟨[], rfl⟩, [], rfl⟩

theorem Counted.closeAll (h : Counted p) : Counted (closeAll p) := by
  rw [Netphase.closeAll]
  generalize List.range maxFd = fds
  induction fds generalizing p with
  | nil => exact h
  | cons fd fds ih =>
    refine ih (p := if (p.slots fd).sock then p.closeExchange fd none else p) ?_
    split
    · exact h.closeExchange _ _
    · exact h

end

/-- **What is dumped are the counts of some exchanges.** -/
theorem exists_aggregate {calls : List Call} {d : Dump} (h : fini (run calls) = some d) :
    (∃ xs, d.req = aggregate xs) ∧ ∃ xs, d.hs = aggregate xs := by
  rw [fini] at h
  split at h
  · cases h
  · have hall := (counted_run calls).closeAll
    rw [← Option.some_inj.mp h, Process.dump_req, Process.dump_hs]
    exact hall

/-- A count with its histograms. -/
structure Sums (a : Agg) : Prop where
  ttfb : a.hTtfb.sum = a.n
  body : a.hBody.sum = a.n

theorem sums_aggregate (xs : List Exchange) : Sums (aggregate xs) where
  ttfb := by rw [hTtfb_aggregate, sum_histogram, n_aggregate, List.length_map]
  body := by rw [hBody_aggregate, sum_histogram, n_aggregate, List.length_map]

/-- The report's medians, and the sums of the dump. -/
structure MedianReported : Prop where
  ttfb : ∀ (d : Dump) (ds : List UInt64), d.req.hTtfb = histogram ds →
    p50 d.text "req_hist_ttfb_ms" = some (median ds)
  body : ∀ (d : Dump) (ds : List UInt64), d.req.hBody = histogram ds →
    p50 d.text "req_hist_body_ms" = some (median ds)
  /-- In a run the histograms are those of the exchanges that were counted. -/
  counted : ∀ calls d, fini (run calls) = some d →
    ∃ xs : List Exchange, d.req.n = xs.length ∧ d.req.hTtfb = histogram (xs.map Exchange.ttfb) ∧
      d.req.hBody = histogram (xs.map Exchange.body)
  sums : ∀ calls d, fini (run calls) = some d → Sums d.req ∧ Sums d.hs

end Netphase
