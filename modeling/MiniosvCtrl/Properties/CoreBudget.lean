import Mathlib.Algebra.Order.BigOperators.Group.List
import MiniosvCtrl.Guest.Prelude
import MiniosvCtrl.Infra.Lines
import MiniosvCtrl.Properties.KillList

/-!
# What confines a run to some cores, and what says that it was

* `capCores_balanced` — IRQs and transmit queues are spread evenly over the cores of the budget
* `Stat` — the kernel's accounting, and `/proc/stat` as it shows it
* `percpu_text` — what `percpu` makes of it
* `budget_split` — the cores that were busy are either in the budget or outside it
-/

namespace Prelude

open Infra Infra.Regex Runner EndChild

variable {B : Builtins}

/-! ## `cap_cores` -/

/-- So many of `k` in turn go to each of `n` places. -/
def share (k n place : Nat) : Nat := k / n + if place < k % n then 1 else 0

theorem shiftLeft_inj {a b : Nat} : 1 <<< a = 1 <<< b ↔ a = b := by
  simp only [Nat.one_shiftLeft]
  exact Nat.pow_right_inj (by decide)

/--
**Every IRQ and every transmit queue that can be written is on one core of the budget, and no
core has two more of them than another.** Those that cannot be written take nobody's turn.
-/
theorem capCores_balanced (B : Builtins) (m : Nic) {n : Nat} (hn : 0 < n) :
    ((capCores B m n).affinity.map Prod.fst =
        ((m.irqs B).map Nic.affinityPath).filter m.writable ∧
      (∀ p ∈ (capCores B m n).affinity, p.2 < n) ∧
      ∀ cpu < n, (capCores B m n).affinity.countP (·.2 = cpu) =
        share (capCores B m n).affinity.length n cpu) ∧
    (capCores B m n).xps.map Prod.fst = (m.txQueues.map m.xpsPath).filter m.writable ∧
      (∀ p ∈ (capCores B m n).xps, ∃ cpu < n, p.2 = 1 <<< cpu) ∧
      ∀ cpu < n, (capCores B m n).xps.countP (·.2 = 1 <<< cpu) =
        share (capCores B m n).xps.length n cpu := by
  have hlength : ∀ paths : List (List Char),
      (spread m.writable n 0 paths).length = (paths.filter m.writable).length := fun paths => by
    rw [← map_fst_spread m.writable n 0 paths, List.length_map]
  refine ⟨⟨map_fst_spread _ _ _ _, fun p hp => snd_lt_of_mem_spread _ hn hp, fun cpu hcpu => ?_⟩,
    ?_, fun p hp => ?_, fun cpu hcpu => ?_⟩
  · rw [share, show (capCores B m n).affinity.length = _ from hlength _]
    exact countP_spread m.writable hn _ hcpu
  · show ((spread m.writable n 0 _).map fun p => (p.1, 1 <<< p.2)).map Prod.fst = _
    rw [List.map_map]
    exact map_fst_spread _ _ _ _
  · obtain ⟨q, hq, rfl⟩ := List.mem_map.mp hp
    exact ⟨q.2, snd_lt_of_mem_spread _ hn hq, rfl⟩
  · -- a mask stands for its CPU
    have hmask : (capCores B m n).xps.countP (·.2 = 1 <<< cpu) =
        (spread m.writable n 0 (m.txQueues.map m.xpsPath)).countP (·.2 = cpu) := by
      show ((spread m.writable n 0 _).map fun p => (p.1, 1 <<< p.2)).countP _ = _
      rw [List.countP_map]
      exact List.countP_congr fun p _ => by simp [shiftLeft_inj]
    rw [hmask, share, show (capCores B m n).xps.length = _ from
      (List.length_map _).trans (hlength _)]
    exact countP_spread m.writable hn _ hcpu

/-- Three IRQs, of which the second cannot be written, and two queues. -/
def threeIrqs : Nic where
  iface := "eth0".toList
  interrupts := some "24: 0 eth0-0\n25: 0 eth0-1\n26: 0 eth0-2\nNMI: 0\n".toList
  queues := ["rx-0", "tx-0", "tx-1"]
  writable := fun path => path != "/proc/irq/25/smp_affinity_list".toList

/-- The third IRQ gets the second core. -/
theorem capCores_balanced_two :
    (capCores Builtins.exact threeIrqs 2).affinity.countP (·.2 = 1) = 1 := by
  have hlength : (capCores Builtins.exact threeIrqs 2).affinity.length = 2 := by
    rewrite [threeIrqs, String.toList_ofList, String.toList_ofList, String.toList_ofList]
    rfl
  have hshare :=
    (capCores_balanced Builtins.exact threeIrqs (n := 2) (by decide)).1.2.2 1 (by decide)
  rw [hlength] at hshare
  exact hshare

/-! ## The budget -/

/-- The busy fraction of a CPU, or nothing. -/
def busyOf (before : List (Nat × Jiffies)) (e : Nat × Jiffies) : Rat :=
  (fraction (since before e.1) e.2).getD 0

/-- A CPU of the budget. -/
def isInside (n : Nat) (e : Nat × Jiffies) : Bool := n = 0 ∨ e.1 < n

theorem foldl_budget (before : List (Nat × Jiffies)) (n : Nat) (l : List (Nat × Jiffies))
    (s : Budget) :
    (l.foldl (Budget.step before n) s).inside =
        s.inside + ((l.filter (isInside n)).map (busyOf before)).sum ∧
      (l.foldl (Budget.step before n) s).outside =
        s.outside + ((l.filter fun e => !isInside n e).map (busyOf before)).sum := by
  induction l generalizing s with
  | nil => simp
  | cons e l ih =>
    rw [List.foldl_cons]
    cases hf : fraction (since before e.1) e.2 with
    | none =>
      have hzero : busyOf before e = 0 := by rw [busyOf, hf]; rfl
      obtain ⟨hin, hout⟩ := ih s
      rw [show Budget.step before n s e = s by rw [Budget.step, hf], hin, hout]
      cases he : isInside n e with
      | true => simp [he, hzero]
      | false => simp [he, hzero]
    | some frac =>
      have hbusy : busyOf before e = frac := by rw [busyOf, hf]; rfl
      obtain ⟨hin, hout⟩ := ih (s.add n e.1 frac)
      rw [show Budget.step before n s e = s.add n e.1 frac by rw [Budget.step, hf], hin, hout]
      cases he : isInside n e with
      | true =>
        have hnot : ¬ (n ≠ 0 ∧ n ≤ e.1) := by
          simp only [isInside, decide_eq_true_eq] at he
          omega
        simp [he, hbusy, Budget.add, hnot, add_assoc]
      | false =>
        have hyes : n ≠ 0 ∧ n ≤ e.1 := by
          simp only [isInside, decide_eq_false_iff_not] at he
          omega
        simp [he, hbusy, Budget.add, hyes, add_assoc]

/-- The cores in the budget and outside it, whatever the order of the CPUs. -/
theorem reportCpuBudget_eq (before after : List (Nat × Jiffies)) (n : Nat) :
    (reportCpuBudget before after n).inside =
        ((after.filter (isInside n)).map (busyOf before)).sum ∧
      (reportCpuBudget before after n).outside =
        ((after.filter fun e => !isInside n e).map (busyOf before)).sum := by
  have hperm := List.mergeSort_perm after fun a b => decide (a.1 ≤ b.1)
  obtain ⟨hin, hout⟩ := foldl_budget before n (after.mergeSort fun a b => decide (a.1 ≤ b.1))
    ⟨0, 0, []⟩
  refine ⟨?_, ?_⟩
  · rw [reportCpuBudget, hin, zero_add]
    exact ((hperm.filter _).map _).sum_eq
  · rw [reportCpuBudget, hout, zero_add]
    exact ((hperm.filter _).map _).sum_eq

/-! ## `/proc/stat` -/

/-- A line without a break in it, and without blanks at its ends. -/
structure Solid (l : List Char) : Prop where
  breaks : ∀ c ∈ l, isBreak c = false
  first : ∃ c t, l = c :: t ∧ isSpace c = false
  last : ∃ t c, l = t ++ [c] ∧ isSpace c = false

theorem Solid.ne_nil {l : List Char} (h : Solid l) : l ≠ [] := by
  obtain ⟨c, t, rfl, -⟩ := h.first
  exact List.cons_ne_nil c t

theorem splitOnP_unlined {ls : List (List Char)} (hne : ls ≠ []) (h : ∀ l ∈ ls, Solid l) :
    (unlined ls).splitOnP isBreak = ls := by
  induction ls with
  | nil => exact absurd rfl hne
  | cons l ls ih =>
    have hl := (h l List.mem_cons_self).breaks
    cases ls with
    | nil =>
      rw [unlined_singleton]
      exact List.splitOnP_eq_singleton hl
    | cons m ls =>
      rw [unlined_cons_cons, List.splitOnP_append_cons_of_forall_mem hl '\n' (by decide),
        ih (List.cons_ne_nil _ _) fun l' hl' => h l' (List.mem_cons_of_mem _ hl')]

theorem unlined_ends {ls : List (List Char)} (hne : ls ≠ []) (h : ∀ l ∈ ls, Solid l) :
    (∃ c t, unlined ls = c :: t ∧ isSpace c = false) ∧
      ∃ t c, unlined ls = t ++ [c] ∧ isSpace c = false := by
  induction ls with
  | nil => exact absurd rfl hne
  | cons l ls ih =>
    have hl := h l List.mem_cons_self
    cases ls with
    | nil =>
      rw [unlined_singleton]
      exact ⟨hl.first, hl.last⟩
    | cons m ls =>
      obtain ⟨c, t, rfl, hc⟩ := hl.first
      obtain ⟨-, t', c', hlast, hc'⟩ :=
        ih (List.cons_ne_nil _ _) fun l' hl' => h l' (List.mem_cons_of_mem _ hl')
      rw [unlined_cons_cons, hlast]
      exact ⟨⟨c, _, rfl, hc⟩, c :: t ++ '\n' :: t', c', by simp, hc'⟩

/-- **The lines of a file are read as they are.** -/
theorem splitlines_read {ls : List (List Char)} (hne : ls ≠ []) (h : ∀ l ∈ ls, Solid l) :
    splitlines (read (some (unlined ls ++ ['\n']))) = ls := by
  obtain ⟨⟨c, t, hfirst, hc⟩, t', c', hlast, hc'⟩ := unlined_ends hne h
  have hstrip : strip (unlined ls ++ ['\n']) = unlined ls := by
    have hdrop : (unlined ls ++ ['\n']).dropWhile isSpace = unlined ls ++ ['\n'] := by
      rw [hfirst, List.cons_append, List.dropWhile_cons_of_neg (by simp [hc])]
    rw [strip, hdrop, List.rdropWhile_concat_pos _ _ _ (by decide), hlast,
      List.rdropWhile_concat_neg _ _ _ (by simp [hc'])]
  have hread : read (some (unlined ls ++ ['\n'])) = unlined ls := hstrip
  have hgetLast : ls.getLast? ≠ some [] := fun hnil =>
    (h _ (List.mem_of_getLast? hnil)).ne_nil rfl
  rw [splitlines, hread, splitOnP_unlined hne h, if_neg hgetLast]

/-- The words of a CPU's line after its name. -/
def fieldChars (fields : List Nat) : List Char := fields.flatMap fun v => ' ' :: Nat.toDigits 10 v

theorem words_of_solid {s : List Char} (hne : s ≠ []) (hs : ∀ d ∈ s, isSpace d = false) :
    words s = [s] := by
  rw [words, List.splitOnP_eq_singleton hs, List.filter_cons_of_pos (by simpa)]
  rfl

theorem not_space_of_mem_toDigits {n : Nat} {d : Char} (h : d ∈ Nat.toDigits 10 n) :
    isSpace d = false := Process.not_space_of_isDigit (Builtins.isDigit_of_mem_toDigits h)

theorem words_fieldChars {s : List Char} (hne : s ≠ []) (hs : ∀ d ∈ s, isSpace d = false)
    (fields : List Nat) :
    words (s ++ fieldChars fields) = s :: fields.map (Nat.toDigits 10) := by
  induction fields generalizing s with
  | nil =>
    rw [fieldChars, List.flatMap_nil, List.append_nil]
    exact words_of_solid hne hs
  | cons v fields ih =>
    rw [fieldChars, List.flatMap_cons, List.cons_append, words_append hne hs (by decide)]
    exact congrArg (s :: ·) (ih Nat.toDigits_ne_nil fun d hd => not_space_of_mem_toDigits hd)

/-- The first word of a line is where the line starts. -/
theorem words_prefix {l : List Char} {c : Char} {t : List Char} (hl : l = c :: t)
    (hc : isSpace c = false) : ∃ name more, words l = name :: more ∧ name <+: l := by
  have hsplit := List.takeWhile_append_dropWhile (p := fun d => !isSpace d) (l := l)
  have hne : l.takeWhile (fun d => !isSpace d) ≠ [] := by
    rw [hl, List.takeWhile_cons_of_pos (by simp [hc])]
    exact List.cons_ne_nil _ _
  have hsolid : ∀ d ∈ l.takeWhile (fun d => !isSpace d), isSpace d = false := fun d hd => by
    simpa using List.mem_takeWhile_imp hd
  refine ⟨l.takeWhile fun d => !isSpace d, ?_⟩
  cases hrest : l.dropWhile fun d => !isSpace d with
  | nil =>
    rw [hrest, List.append_nil] at hsplit
    refine ⟨[], ?_, List.takeWhile_prefix _⟩
    conv_lhs => rw [← hsplit]
    exact words_of_solid hne hsolid
  | cons d rest =>
    have hd : isSpace d = true := by
      have hhead := List.head_dropWhile_not (p := fun d => !isSpace d) (l := l) (by simp [hrest])
      simpa [hrest] using hhead
    rw [hrest] at hsplit
    refine ⟨words rest, ?_, List.takeWhile_prefix _⟩
    conv_lhs => rw [← hsplit]
    exact words_append hne hsolid hd

theorem mapM_ok {ε α β γ : Type} {f : α → Except ε β} {g : γ → β} (l : List γ) (e : γ → α)
    (h : ∀ x ∈ l, f (e x) = .ok (g x)) : (l.map e).mapM f = .ok (l.map g) := by
  induction l with
  | nil => rfl
  | cons x l ih =>
    rw [List.map_cons, List.mapM_cons, h x List.mem_cons_self,
      ih fun y hy => h y (List.mem_cons_of_mem _ hy)]
    rfl

theorem upsert_of_not_mem {κ α : Type} [DecidableEq κ] {d : List (κ × α)} {k : κ} (a : α)
    (f : α → α) (h : k ∉ d.map Prod.fst) : upsert k a f d = d ++ [(k, f a)] := by
  induction d with
  | nil => rfl
  | cons e d ih =>
    obtain ⟨hne, hd⟩ := List.ne_and_not_mem_of_not_mem_cons h
    rw [upsert, if_neg (Ne.symm hne), ih hd, List.cons_append]

/-- A dictionary that is filled with keys that differ. -/
theorem foldl_put {κ α : Type} [DecidableEq κ] (l d : List (κ × α))
    (h : ((d ++ l).map Prod.fst).Nodup) : l.foldl (fun out e => put out e.1 e.2) d = d ++ l := by
  induction l generalizing d with
  | nil => exact (List.append_nil d).symm
  | cons e l ih =>
    have hnot : e.1 ∉ d.map Prod.fst := fun hmem => by
      rw [List.map_append, List.map_cons] at h
      exact List.disjoint_of_nodup_append h hmem List.mem_cons_self
    have hput : put d e.1 e.2 = d ++ [e] := upsert_of_not_mem _ _ hnot
    rw [List.foldl_cons, hput, ih (d ++ [e]) (by rwa [← List.append_cons]), ← List.append_cons]

/-- The kernel's accounting. -/
structure Stat where
  /-- All CPUs together. -/
  total : List Nat
  /-- Each CPU that is online: user, nice, system, idle, iowait and so on. -/
  cpus : List (Nat × List Nat)
  /-- What the file says besides. -/
  others : List (List Char)
  total_ne : total ≠ []
  nodup : (cpus.map Prod.fst).Nodup
  fields : ∀ e ∈ cpus, 4 < e.2.length
  small : ∀ e ∈ cpus, e.1 < 2 ^ 64 ∧ ∀ v ∈ e.2, v < 2 ^ 64
  solid : ∀ l ∈ others, Solid l
  other : ∀ l ∈ others, ¬ "cpu".toList <+: l

namespace Stat

variable (S : Stat)

def cpuChars (e : Nat × List Nat) : List Char :=
  "cpu".toList ++ Nat.toDigits 10 e.1 ++ fieldChars e.2

def totalChars : List Char := "cpu".toList ++ ' ' :: fieldChars S.total

def lines : List (List Char) := S.totalChars :: (S.cpus.map cpuChars ++ S.others)

/-- `/proc/stat` -/
def text : List Char := unlined S.lines ++ ['\n']

/-- What `percpu` keeps of a CPU. -/
def jiffies (v : List Nat) : Jiffies := ⟨v.sum - v.getD 3 0 - v.getD 4 0, v.sum⟩

/-- What `percpu` is to find. -/
def table : List (Nat × Jiffies) := S.cpus.map fun e => (e.1, jiffies e.2)

theorem not_break_of_not_space {c : Char} (h : isSpace c = false) : isBreak c = false := by
  refine Bool.eq_false_iff.mpr fun hbreak => Bool.eq_false_iff.mp h ?_
  simp only [isBreak, Bool.or_eq_true, Bool.and_eq_true, decide_eq_true_eq, or_assoc] at hbreak
  rcases hbreak with rfl | rfl | rfl | hbreak
  · decide
  · decide
  · decide
  · simp only [isSpace, Bool.or_eq_true, Bool.and_eq_true, decide_eq_true_eq]
    omega

theorem mem_fieldChars {fields : List Nat} {c : Char} (h : c ∈ fieldChars fields) :
    c = ' ' ∨ c.isDigit = true := by
  obtain ⟨v, -, hc⟩ := List.mem_flatMap.mp h
  rcases List.mem_cons.mp hc with rfl | hc
  · exact .inl rfl
  · exact .inr (Builtins.isDigit_of_mem_toDigits hc)

theorem not_break_of_mem_fieldChars {fields : List Nat} {c : Char} (h : c ∈ fieldChars fields) :
    isBreak c = false := by
  rcases mem_fieldChars h with rfl | hc
  · decide
  · exact not_break_of_not_space (Process.not_space_of_isDigit hc)

/-- A list of fields that is not empty ends in a digit. -/
theorem fieldChars_last {fields : List Nat} (h : fields ≠ []) :
    ∃ t c, fieldChars fields = t ++ [c] ∧ isSpace c = false := by
  obtain ⟨init, v, rfl⟩ := List.eq_nil_or_concat' fields |>.resolve_left h
  have hdigits := List.dropLast_append_getLast (Nat.toDigits_ne_nil (b := 10) (n := v))
  have hlast := List.getLast_mem (Nat.toDigits_ne_nil (b := 10) (n := v))
  refine ⟨fieldChars init ++ ' ' :: (Nat.toDigits 10 v).dropLast, _, ?_,
    not_space_of_mem_toDigits hlast⟩
  rw [List.append_assoc, List.cons_append, hdigits]
  simp [fieldChars]

/-- A name and its fields: the name, then blanks and digits. -/
theorem solid_named {name : List Char} {v : List Nat} (hbreaks : ∀ c ∈ name, isBreak c = false)
    (hfirst : ∃ c t, name = c :: t ∧ isSpace c = false) (hv : v ≠ []) :
    Solid (name ++ fieldChars v) where
  breaks := fun c hc => (List.mem_append.mp hc).elim (hbreaks c) not_break_of_mem_fieldChars
  first := by
    obtain ⟨c, t, rfl, hc⟩ := hfirst
    exact ⟨c, t ++ fieldChars v, rfl, hc⟩
  last := by
    obtain ⟨t, c, ht, hc⟩ := fieldChars_last hv
    exact ⟨name ++ t, c, by rw [ht, List.append_assoc], hc⟩

theorem not_space_of_mem_cpu {c : Char} (h : c ∈ "cpu".toList) : isSpace c = false := by
  have hall : "cpu".toList.all (fun d => !isSpace d) = true := by decide
  simpa using List.all_eq_true.mp hall c h

theorem mem_name {n : Nat} {c : Char} (h : c ∈ "cpu".toList ++ Nat.toDigits 10 n) :
    isSpace c = false := by
  rcases List.mem_append.mp h with hc | hc
  · exact not_space_of_mem_cpu hc
  · exact not_space_of_mem_toDigits hc

theorem solid_lines {l : List Char} (h : l ∈ S.lines) : Solid l := by
  rcases List.mem_cons.mp h with rfl | h
  · have hcpu : ∀ c ∈ "cpu".toList ++ [' '], isBreak c = false := fun c hc => by
      rcases List.mem_append.mp hc with hc | hc
      · exact not_break_of_not_space (not_space_of_mem_cpu hc)
      · rw [List.mem_singleton.mp hc]
        decide
    rw [totalChars, List.append_cons]
    exact solid_named hcpu ⟨'c', _, rfl, by decide⟩ S.total_ne
  rcases List.mem_append.mp h with h | h
  · obtain ⟨e, he, rfl⟩ := List.mem_map.mp h
    refine solid_named (fun c hc => not_break_of_not_space (mem_name hc))
      ⟨'c', _, rfl, by decide⟩ fun hnil => ?_
    have hfields := S.fields e he
    rw [hnil] at hfields
    exact absurd hfields (by decide)
  · exact S.solid l h

theorem cpuLine_total : cpuLine B S.totalChars = .ok none := by
  have hcpu : ∀ d ∈ "cpu".toList, isSpace d = false := fun _ hd => not_space_of_mem_cpu hd
  rw [cpuLine, totalChars, words_append (by decide) hcpu (by decide)]
  exact if_pos (.inr rfl)

theorem cpuLine_other {l : List Char} (h : l ∈ S.others) : cpuLine B l = .ok none := by
  obtain ⟨c, t, hl, hc⟩ := (S.solid l h).first
  obtain ⟨name, more, hwords, hprefix⟩ := words_prefix hl hc
  rw [cpuLine, hwords]
  exact if_pos (.inl fun hcpu => S.other l h (hcpu.trans hprefix))

theorem mapM_int {v : List Nat} (h : ∀ n ∈ v, n < 2 ^ 64) :
    (v.map (Nat.toDigits 10)).mapM B.int = some v := by
  induction v with
  | nil => rfl
  | cons n v ih =>
    have hn := B.int_toDigits (Builtins.lt_maxDigits
      (Nat.lt_trans (h n List.mem_cons_self) (by decide)))
    rw [List.map_cons, List.mapM_cons, hn, ih fun m hm => h m (List.mem_cons_of_mem _ hm)]
    rfl

theorem cpuLine_cpuChars {e : Nat × List Nat} (he : e ∈ S.cpus) :
    cpuLine B (cpuChars e) = .ok (some (e.1, jiffies e.2)) := by
  obtain ⟨hcpu, hv⟩ := S.small e he
  have hwords : words (cpuChars e) =
      ("cpu".toList ++ Nat.toDigits 10 e.1) :: e.2.map (Nat.toDigits 10) :=
    words_fieldChars (by simp) (fun d hd => mem_name hd) e.2
  have hname : ¬ (¬ "cpu".toList <+: "cpu".toList ++ Nat.toDigits 10 e.1 ∨
      "cpu".toList ++ Nat.toDigits 10 e.1 = "cpu".toList) := by
    simp [Nat.toDigits_ne_nil]
  have hint : B.int (("cpu".toList ++ Nat.toDigits 10 e.1).drop 3) = some e.1 :=
    B.int_toDigits (Builtins.lt_maxDigits (Nat.lt_trans hcpu (by decide)))
  have hidle : e.2[3]? = some (e.2.getD 3 0) := by
    have hlength := S.fields e he
    rw [List.getD_eq_getElem?_getD, List.getElem?_eq_getElem (by omega), Option.getD_some]
  rw [cpuLine, hwords]
  simp only [if_neg hname, mapM_int hv, hidle, hint]
  rfl

theorem mapM_cpuLine : S.lines.mapM (cpuLine B) =
    .ok (none :: (S.table.map some ++ S.others.map fun _ => none)) := by
  have hcpus := mapM_ok (f := cpuLine B) (g := fun e => some (e.1, jiffies e.2)) S.cpus cpuChars
    fun _ he => S.cpuLine_cpuChars he
  have hothers := mapM_ok (f := cpuLine B) (g := fun _ => none) S.others id
    fun _ hl => S.cpuLine_other hl
  rw [List.map_id] at hothers
  rw [lines, List.mapM_cons, cpuLine_total, List.mapM_append, hcpus, hothers, table, List.map_map]
  rfl

theorem filterMap_rows :
    (none :: (S.table.map some ++ S.others.map fun _ => none)).filterMap id = S.table := by
  rw [List.filterMap_cons_none rfl, List.filterMap_append, List.filterMap_map, List.filterMap_map]
  have hnone : S.others.filterMap (id ∘ fun _ => (none : Option (Nat × Jiffies))) = [] :=
    List.filterMap_eq_nil_iff.mpr fun _ _ => rfl
  rw [hnone, List.append_nil]
  exact List.filterMap_some

/-- **`percpu` is the kernel's accounting.** -/
theorem percpu_text : percpu B (some S.text) = .ok S.table := by
  have hread : splitlines (read (some S.text)) = S.lines :=
    splitlines_read (List.cons_ne_nil _ _) fun l hl => S.solid_lines hl
  have hnodup : (S.table.map Prod.fst).Nodup := by
    rw [table, List.map_map]
    exact S.nodup
  rw [percpu, hread, mapM_cpuLine]
  show Except.ok _ = _
  rw [filterMap_rows, foldl_put S.table [] hnodup, List.nil_append]

/-! ## Two snapshots -/

/-- No counter has gone down from the one to the other. -/
def Grows (S₀ S₁ : Stat) : Prop :=
  ∀ e₀ ∈ S₀.cpus, ∀ e ∈ S₁.cpus, e₀.1 = e.1 → List.Forall₂ (· ≤ ·) e₀.2 e.2

/-- The share of the time between them in which a CPU was busy. -/
def busy (e : Nat × List Nat) : Rat :=
  ((jiffies e.2).busy - (since S.table e.1).busy : Int) /
    ((jiffies e.2).total - (since S.table e.1).total : Int)

theorem jiffies_cons (u n s i w : Nat) (rest : List Nat) :
    jiffies (u :: n :: s :: i :: w :: rest) =
      ⟨(u + n + s + rest.sum : Nat), (u + n + s + i + w + rest.sum : Nat)⟩ := by
  simp only [jiffies, List.sum_cons, List.getD_cons_succ, List.getD_cons_zero, Jiffies.mk.injEq]
  omega

/-- What is not busy passes, too. -/
theorem jiffies_le {v w : List Nat} (h : List.Forall₂ (· ≤ ·) v w) (hw : 4 < w.length) :
    (jiffies v).busy ≤ (jiffies w).busy ∧
      (jiffies w).busy - (jiffies v).busy ≤ (jiffies w).total - (jiffies v).total := by
  match w, h, hw with
  | u :: n :: s :: i :: w :: rest, hu, _ =>
    obtain ⟨u₀, v₁, hu, hn, rfl⟩ := List.forall₂_cons_right_iff.mp hu
    obtain ⟨n₀, v₂, hn, hs, rfl⟩ := List.forall₂_cons_right_iff.mp hn
    obtain ⟨s₀, v₃, hs, hi, rfl⟩ := List.forall₂_cons_right_iff.mp hs
    obtain ⟨i₀, v₄, hi, hw, rfl⟩ := List.forall₂_cons_right_iff.mp hi
    obtain ⟨w₀, rest₀, hw, hrest, rfl⟩ := List.forall₂_cons_right_iff.mp hw
    have hsum : rest₀.sum ≤ rest.sum := hrest.sum_le_sum
    rw [jiffies_cons, jiffies_cons]
    dsimp only
    omega

theorem since_table (cpu : Nat) : since S.table cpu = ⟨0, 0⟩ ∨
    ∃ e₀ ∈ S.cpus, e₀.1 = cpu ∧ since S.table cpu = jiffies e₀.2 := by
  rw [since, table]
  induction S.cpus with
  | nil => exact .inl rfl
  | cons e₀ cpus ih =>
    rw [List.map_cons, List.lookup_cons]
    by_cases hcpu : cpu = e₀.1
    · refine .inr ⟨e₀, List.mem_cons_self, hcpu.symm, ?_⟩
      rw [beq_iff_eq.mpr hcpu]
      rfl
    · rw [beq_eq_false_iff_ne.mpr hcpu]
      rcases ih with hzero | ⟨e, he, heq, hsince⟩
      · exact .inl hzero
      · exact .inr ⟨e, List.mem_cons_of_mem _ he, heq, hsince⟩

variable {S₀ S₁ : Stat}

/-- What a CPU did between the snapshots: it was busy for no more than the time that passed. -/
theorem Grows.since_le (h : S₀.Grows S₁) {e : Nat × List Nat} (he : e ∈ S₁.cpus) :
    (since S₀.table e.1).busy ≤ (jiffies e.2).busy ∧
      (jiffies e.2).busy - (since S₀.table e.1).busy ≤
        (jiffies e.2).total - (since S₀.table e.1).total := by
  have hlength := S₁.fields e he
  rcases S₀.since_table e.1 with hzero | ⟨e₀, he₀, hcpu, hsince⟩
  · -- it was not online before
    have hnone : jiffies (List.replicate e.2.length 0) = ⟨0, 0⟩ := by
      obtain ⟨k, hk⟩ := Nat.exists_eq_add_of_lt hlength
      rw [show e.2.length = k + 5 by omega]
      show jiffies (0 :: 0 :: 0 :: 0 :: 0 :: List.replicate k 0) = _
      rw [jiffies_cons]
      simp
    have hle : List.Forall₂ (· ≤ ·) (List.replicate e.2.length 0) e.2 := by
      refine List.forall₂_iff_get.mpr ⟨List.length_replicate, fun i h₁ h₂ => ?_⟩
      simp
    rw [hzero, ← hnone]
    exact jiffies_le hle hlength
  · rw [hsince]
    exact jiffies_le (h e₀ he₀ e he hcpu) hlength

theorem Grows.busyOf_eq (h : S₀.Grows S₁) {e : Nat × List Nat} (he : e ∈ S₁.cpus) :
    busyOf S₀.table (e.1, jiffies e.2) = S₀.busy e := by
  obtain ⟨hbusy, htotal⟩ := h.since_le he
  rw [busyOf, fraction, busy]
  split
  · rename_i hle
    have hzero : (jiffies e.2).total - (since S₀.table e.1).total = 0 := by
      have hle : (jiffies e.2).total - (since S₀.table e.1).total ≤ 0 := ‹_›
      omega
    rw [hzero]
    simp
  · rfl

/-- A share: not below 0, and not above 1. -/
theorem Grows.busy_mem (h : S₀.Grows S₁) {e : Nat × List Nat} (he : e ∈ S₁.cpus) :
    0 ≤ S₀.busy e ∧ S₀.busy e ≤ 1 := by
  obtain ⟨hbusy, htotal⟩ := h.since_le he
  refine ⟨div_nonneg (by exact_mod_cast (by omega)) (by exact_mod_cast (by omega)), ?_⟩
  refine div_le_one_of_le₀ (by exact_mod_cast htotal) (by exact_mod_cast (by omega))

theorem Grows.busy_eq_zero (h : S₀.Grows S₁) {e : Nat × List Nat} (he : e ∈ S₁.cpus) :
    S₀.busy e = 0 ↔ (jiffies e.2).busy = (since S₀.table e.1).busy := by
  obtain ⟨hbusy, htotal⟩ := h.since_le he
  rw [busy, div_eq_zero_iff, Int.cast_eq_zero, Int.cast_eq_zero]
  omega

end Stat

open Stat

/-- The CPUs of a snapshot in the budget, and those outside it. -/
def Stat.inside (S : Stat) (n : Nat) : List (Nat × List Nat) :=
  S.cpus.filter fun e => n = 0 ∨ e.1 < n

def Stat.outside (S : Stat) (n : Nat) : List (Nat × List Nat) :=
  S.cpus.filter fun e => ¬ (n = 0 ∨ e.1 < n)

variable {S₀ S₁ : Stat}

theorem sum_busy {l : List (Nat × List Nat)} (h : ∀ e ∈ l, 0 ≤ S₀.busy e ∧ S₀.busy e ≤ 1) :
    (0 ≤ (l.map S₀.busy).sum ∧ (l.map S₀.busy).sum ≤ l.length) ∧
      ((l.map S₀.busy).sum = 0 ↔ ∀ e ∈ l, S₀.busy e = 0) := by
  induction l with
  | nil => simp
  | cons e l ih =>
    obtain ⟨hzero, hone⟩ := h e List.mem_cons_self
    obtain ⟨⟨hsum, hlength⟩, hiff⟩ := ih fun e' he' => h e' (List.mem_cons_of_mem _ he')
    rw [List.map_cons, List.sum_cons, List.length_cons, Nat.cast_succ, List.forall_mem_cons, ← hiff,
      add_eq_zero_iff_of_nonneg hzero hsum]
    exact ⟨⟨add_nonneg hzero hsum, by linarith⟩, Iff.rfl⟩

/-- What `report_cpu_budget` adds up is what the CPUs were busy for. -/
theorem sum_busyOf (h : S₀.Grows S₁) {p : Nat × Jiffies → Bool} {q : Nat × List Nat → Bool}
    (hpq : ∀ e, p (e.1, jiffies e.2) = q e) :
    ((S₁.table.filter p).map (busyOf S₀.table)).sum = ((S₁.cpus.filter q).map S₀.busy).sum := by
  obtain rfl : (fun e => p (e.1, jiffies e.2)) = q := funext hpq
  rw [show S₁.table = S₁.cpus.map fun e => (e.1, jiffies e.2) from rfl, List.filter_map,
    List.map_map]
  refine congrArg List.sum (List.map_congr_left fun e he => ?_)
  exact h.busyOf_eq (List.mem_filter.mp he).1

/--
**What every CPU was busy for goes to the budget or past it, and no more than that CPU's time.**
Nothing was outside exactly if no CPU outside the budget did anything.
-/
theorem budget_split (h : S₀.Grows S₁) (n : Nat) :
    ∃ b, budgetOf B (some S₀.text) (some S₁.text) n = .ok b ∧
      b.inside + b.outside = (S₁.cpus.map S₀.busy).sum ∧
      (0 ≤ b.inside ∧ b.inside ≤ (S₁.inside n).length) ∧
      (0 ≤ b.outside ∧ b.outside ≤ (S₁.outside n).length) ∧
      (b.outside = 0 ↔ ∀ e ∈ S₁.cpus, n ≠ 0 → n ≤ e.1 →
        (jiffies e.2).busy = (since S₀.table e.1).busy) := by
  obtain ⟨hin, hout⟩ := reportCpuBudget_eq S₀.table S₁.table n
  rw [sum_busyOf (q := fun e => n = 0 ∨ e.1 < n) h fun _ => rfl] at hin
  rw [sum_busyOf (q := fun e => ¬ (n = 0 ∨ e.1 < n)) h fun _ => (decide_not ..).symm] at hout
  have hmem : ∀ e ∈ S₁.cpus, 0 ≤ S₀.busy e ∧ S₀.busy e ≤ 1 := fun e he => h.busy_mem he
  obtain ⟨hboundsIn, -⟩ := sum_busy (l := S₁.inside n) fun e he => hmem e (List.mem_filter.mp he).1
  obtain ⟨hboundsOut, hzero⟩ :=
    sum_busy (l := S₁.outside n) fun e he => hmem e (List.mem_filter.mp he).1
  refine ⟨reportCpuBudget S₀.table S₁.table n, ?_, ?_, ?_, ?_, ?_⟩
  · rw [budgetOf, percpu_text, percpu_text]
    rfl
  · rw [hin, hout]
    exact List.sum_map_filter_add_sum_map_filter_not _ _ _
  · rw [hin]
    exact hboundsIn
  · rw [hout]
    exact hboundsOut
  · rw [hout]
    refine hzero.trans ⟨fun hall e he hn hle => ?_, fun hall e he => ?_⟩
    · refine (h.busy_eq_zero he).mp (hall e (List.mem_filter.mpr ⟨he, ?_⟩))
      simp [hn, hle]
    · obtain ⟨he, houtside⟩ := List.mem_filter.mp he
      have hcpu : n ≠ 0 ∧ n ≤ e.1 := by simpa using houtside
      exact (h.busy_eq_zero he).mpr (hall e he hcpu.1 hcpu.2)

/-- Two CPUs after some time. -/
def twoCpus : Stat where
  total := [4, 0, 0, 16, 0]
  cpus := [(0, [2, 0, 0, 8, 0]), (1, [2, 0, 0, 8, 0])]
  others := ["intr 5".toList]
  total_ne := by decide
  nodup := by decide
  fields := by decide
  small := by decide
  solid := fun l hl => by
    obtain rfl := List.mem_singleton.mp hl
    have hall : "intr 5".toList.all (fun c => !isBreak c) = true := by decide
    exact ⟨fun c hc => by simpa using List.all_eq_true.mp hall c hc,
      ⟨'i', _, rfl, by decide⟩, ⟨"intr ".toList, '5', rfl, by decide⟩⟩
  other := by decide

/-- Later, when the first was busy for half of the time, and the second for none of it. -/
def twoCpusLater : Stat :=
  { twoCpus with
    total := [9, 0, 0, 31, 0]
    cpus := [(0, [7, 0, 0, 13, 0]), (1, [2, 0, 0, 18, 0])]
    total_ne := by decide
    nodup := by decide
    fields := by decide
    small := by decide }

theorem budget_split_two :
    ∃ b, budgetOf Builtins.exact (some twoCpus.text) (some twoCpusLater.text) 1 = .ok b ∧
      b.outside = 0 := by
  have hgrows : twoCpus.Grows twoCpusLater := by
    show ∀ e₀ ∈ twoCpus.cpus, ∀ e ∈ twoCpusLater.cpus, e₀.1 = e.1 →
      List.Forall₂ (fun a b => a ≤ b) e₀.2 e.2
    decide
  obtain ⟨b, hb, -, -, -, hiff⟩ := budget_split (B := Builtins.exact) hgrows 1
  exact ⟨b, hb, hiff.mpr (by decide)⟩

end Prelude
