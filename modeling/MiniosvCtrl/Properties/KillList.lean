import MiniosvCtrl.Queue.EndChild

/-!
# The kill list

A snapshot of the process table, and `/proc` as it shows it. The name that a program gave a process
stands in `stat` as it is, cut by the kernel to fifteen bytes wherever that falls. What `stat` says
is read only if these bytes are UTF-8, and a process that is passed over takes what is below it out
of the walk.

* `Process.entry` — a process in `/proc`
* `Snapshot` — a process table, and a listing of `/proc` that shows it
* `Below`, `NoCycle` — the parent relation
* `complete_iff` — when `descendants` returns all that is below a process
* `ends_iff_readable` — when `end_child` signals all that is in flight
-/

namespace EndChild

open Infra Infra.Utf8 Runner

variable {B : Builtins} {s t : List Char} {c : Char}

/-! ## Reading `stat` -/

theorem newlines_cons_of_ne (h : c ≠ '\r') : newlines (c :: t) = c :: newlines t :=
  if_neg h

theorem newlines_append (h : t.head? ≠ some '\n') :
    newlines (s ++ t) = newlines s ++ newlines t := by
  induction s with
  | nil => rfl
  | cons c s ih =>
    by_cases hc : c = '\r'
    · have hhead : (s ++ t).head? = some '\n' ↔ s.head? = some '\n' := by
        cases s with
        | nil => simp [h]
        | cons d s => rfl
      simp only [List.cons_append, newlines, if_pos hc, hhead, ih]
      split <;> rfl
    · rw [List.cons_append, newlines_cons_of_ne hc, newlines_cons_of_ne hc, ih, List.cons_append]

theorem newlines_of_not_mem (h : '\r' ∉ t) : newlines t = t := by
  induction t with
  | nil => rfl
  | cons c t ih =>
    obtain ⟨hc, ht⟩ := List.ne_and_not_mem_of_not_mem_cons h
    rw [newlines_cons_of_ne (Ne.symm hc), ih ht]

theorem afterLast_of_not_mem (h : c ∉ t) : afterLast c t = none := by
  induction t with
  | nil => rfl
  | cons d t ih =>
    obtain ⟨hd, ht⟩ := List.ne_and_not_mem_of_not_mem_cons h
    rw [afterLast, ih ht]
    exact if_neg (Ne.symm hd)

theorem afterLast_append (h : c ∉ t) : afterLast c (s ++ c :: t) = some t := by
  induction s with
  | nil =>
    rw [List.nil_append, afterLast, afterLast_of_not_mem h]
    exact if_pos rfl
  | cons d s ih => rw [List.cons_append, afterLast, ih]

theorem words_cons_of_isSpace (h : isSpace c = true) : words (c :: t) = words t := by
  have hnil : ∀ d ∈ ([] : List Char), isSpace d = false := by simp
  have hsplit : (c :: t).splitOnP isSpace = [] :: t.splitOnP isSpace :=
    List.splitOnP_append_cons_of_forall_mem hnil c h t
  rw [words, hsplit, List.filter_cons_of_neg (by simp)]
  rfl

theorem words_append (hne : s ≠ []) (hs : ∀ d ∈ s, isSpace d = false) (hc : isSpace c = true) :
    words (s ++ c :: t) = s :: words t := by
  rw [words, List.splitOnP_append_cons_of_forall_mem hs c hc, List.filter_cons_of_pos (by simpa)]
  rfl

/-! ## Processes -/

/-- The letters for what a process is doing. -/
def states : List Char := "RSDTtWXxKPIZ".toList

/-- A process, as the table has it. -/
structure Process where
  pid : Nat
  ppid : Nat
  /-- The name that it was given, as far as the kernel keeps it. -/
  comm : List UInt8
  state : Char
  /-- What `stat` says besides. -/
  fields : List Int
  cmdline : List UInt8
  state_mem : state ∈ states
  pid_lt : pid < 4194304
  ppid_lt : ppid < 4194304

namespace Process

variable (p : Process)

/-- `stat`, from what follows the name. -/
def tail : List Char :=
  ' ' :: p.state :: ' ' :: (Nat.toDigits 10 p.ppid ++
    (p.fields.flatMap (fun n => ' ' :: (toString n).toList) ++ ['\n']))

/-- `/proc/<pid>/stat` -/
def stat : List UInt8 :=
  encode (Nat.toDigits 10 p.pid ++ [' ', '(']) ++ (p.comm ++ encode (')' :: p.tail))

def entry : Entry :=
  { name := Nat.toDigits 10 p.pid, stat := some p.stat, cmdline := some p.cmdline }

def row : Row := { pid := p.pid, ppid := p.ppid, cmd := shown p.cmdline }

/-- Its name is UTF-8. -/
def Readable : Prop := (decode p.comm).isSome = true

instance : Decidable p.Readable := inferInstanceAs (Decidable (_ = true))

theorem digit_or_dash (n : Int) : ∀ d ∈ (toString n).toList, d.isDigit = true ∨ d = '-' := by
  intro d hd
  cases n with
  | ofNat n =>
    have hlist : (toString (Int.ofNat n)).toList = Nat.toDigits 10 n := String.toList_ofList
    exact .inl (Builtins.isDigit_of_mem_toDigits (hlist ▸ hd))
  | negSucc n =>
    have hlist : (toString (Int.negSucc n)).toList = '-' :: Nat.toDigits 10 (n + 1) := by
      show ("-" ++ Nat.repr (n + 1)).toList = _
      rw [String.toList_append]
      exact congrArg ('-' :: ·) String.toList_ofList
    rw [hlist] at hd
    rcases List.mem_cons.mp hd with rfl | hd
    · exact .inr rfl
    · exact .inl (Builtins.isDigit_of_mem_toDigits hd)

/-- The characters of what follows the name. -/
theorem mem_tail {d : Char} (h : d ∈ p.tail) :
    d.isDigit = true ∨ d ∈ states ∨ d ∈ [' ', '-', '\n'] := by
  simp only [tail, List.mem_cons, List.mem_append, List.mem_flatMap, List.not_mem_nil,
    or_false] at h ⊢
  rcases h with h | rfl | h | h | ⟨n, -, h | h⟩ | h
  · exact .inr (.inr (.inl h))
  · exact .inr (.inl p.state_mem)
  · exact .inr (.inr (.inl h))
  · exact .inl (Builtins.isDigit_of_mem_toDigits h)
  · exact .inr (.inr (.inl h))
  · rcases digit_or_dash n d h with h | h
    · exact .inl h
    · exact .inr (.inr (.inr (.inl h)))
  · exact .inr (.inr (.inr (.inr h)))

theorem paren_not_mem_tail : ')' ∉ p.tail := fun h => absurd (p.mem_tail h) (by decide)

theorem return_not_mem_tail : '\r' ∉ p.tail := fun h => absurd (p.mem_tail h) (by decide)

theorem not_space_of_isDigit {d : Char} (h : d.isDigit = true) : isSpace d = false := by
  obtain ⟨hlow, hhigh⟩ := Char.isDigit_iff_toNat.mp h
  have hzero : '0'.toNat = 48 := rfl
  have hnine : '9'.toNat = 57 := rfl
  simp [isSpace]
  omega

theorem not_space_of_mem_states {d : Char} (h : d ∈ states) : isSpace d = false := by
  have hall : states.all (fun c => !isSpace c) = true := by decide
  simpa using List.all_eq_true.mp hall d h

theorem lt_maxDigits {n : Nat} (h : n < 4194304) : n < 10 ^ Builtins.maxDigits :=
  Builtins.lt_maxDigits (Nat.lt_trans h (by decide))

/-- The parent stands second after the name, whatever the name is. -/
theorem ppidOf_append (s : List Char) : ppidOf B (s ++ ')' :: p.tail) = some p.ppid := by
  have hdigits : ∀ d ∈ Nat.toDigits 10 p.ppid, isSpace d = false := fun d hd =>
    not_space_of_isDigit (Builtins.isDigit_of_mem_toDigits hd)
  have hstate : ∀ d ∈ [p.state], isSpace d = false := fun d hd => by
    rw [List.mem_singleton.mp hd]
    exact not_space_of_mem_states p.state_mem
  obtain ⟨d, more, hd, hmore⟩ : ∃ d more, isSpace d = true ∧
      p.fields.flatMap (fun n => ' ' :: (toString n).toList) ++ ['\n'] = d :: more := by
    cases p.fields with
    | nil => exact ⟨'\n', [], by decide, rfl⟩
    | cons n fields => exact ⟨' ', _, by decide, rfl⟩
  have hwords : words p.tail = [p.state] :: Nat.toDigits 10 p.ppid :: words more := by
    rw [tail, words_cons_of_isSpace (by decide), hmore]
    show words ([p.state] ++ ' ' :: _) = _
    rw [words_append (by simp) hstate (by decide), words_append Nat.toDigits_ne_nil hdigits hd]
  rw [ppidOf, afterLast_append p.paren_not_mem_tail]
  show (words p.tail)[1]?.bind B.int = _
  rw [hwords]
  exact B.int_toDigits (lt_maxDigits p.ppid_lt)

theorem readText_stat : readText p.stat = (decode p.comm).map fun s =>
    newlines (Nat.toDigits 10 p.pid ++ [' ', '('] ++ s) ++ ')' :: p.tail := by
  have htail : newlines (')' :: p.tail) = ')' :: p.tail :=
    newlines_of_not_mem (by simp [p.return_not_mem_tail])
  rw [readText, stat, decode_encode_append, decode_append_encode, Option.map_map, Option.map_map]
  refine congrArg (Option.map · _) (funext fun s => ?_)
  show newlines (_ ++ (s ++ ')' :: p.tail)) = _
  rw [← List.append_assoc, newlines_append (by simp), htail]

theorem isDigit_entry : p.entry.isDigit B = true := by
  have hall : ∀ d ∈ Nat.toDigits 10 p.pid, B.digit d = true := fun d hd =>
    B.digit_of_isDigit (Builtins.isDigit_of_mem_toDigits hd)
  rw [Entry.isDigit, Bool.and_eq_true, decide_eq_true_eq, List.all_eq_true]
  exact ⟨Nat.toDigits_ne_nil, hall⟩

/-- **A process is read exactly if its name is UTF-8.** -/
theorem row_entry : p.entry.row B = if p.Readable then some p.row else none := by
  rw [Entry.row, if_pos p.isDigit_entry]
  show (readText p.stat).bind _ = _
  rw [readText_stat]
  by_cases hread : p.Readable
  · obtain ⟨s, hs⟩ := Option.isSome_iff_exists.mp hread
    rw [hs, if_pos hread]
    show (ppidOf B _).bind _ = _
    rw [ppidOf_append]
    show (B.int (Nat.toDigits 10 p.pid)).bind _ = _
    rw [B.int_toDigits (lt_maxDigits p.pid_lt)]
    rfl
  · rw [if_neg hread, Option.not_isSome_iff_eq_none.mp hread]
    rfl

end Process

/-! ## The process table -/

/-- `q` is a child of `p`. -/
def Kid (ps : List Process) (p q : Nat) : Prop := ∃ r ∈ ps, r.ppid = p ∧ r.pid = q

/-- `q` is strictly below `p`. -/
def Below (ps : List Process) : Nat → Nat → Prop := Relation.TransGen (Kid ps)

/-- The parent relation has no cycle below `p`. -/
def NoCycle (ps : List Process) (p : Nat) : Prop := ∀ q, Below ps p q → ¬ Below ps q q

variable (B) in
/-- A process table, and a listing of `/proc` that shows it among what else is there. -/
structure Snapshot where
  table : List Process
  proc : List Entry
  nodup : (table.map Process.pid).Nodup
  shows : proc.filter (Entry.isDigit B) = table.map Process.entry

variable {σ : Snapshot B} {p q : Nat}

/-- Where each process is older than its children, there is no cycle. -/
theorem lt_of_below {ps : List Process} (h : ∀ r ∈ ps, r.ppid < r.pid) (hb : Below ps p q) :
    p < q := by
  have hkid : ∀ {p q}, Kid ps p q → p < q := by
    rintro p q ⟨r, hr, rfl, rfl⟩
    exact h r hr
  induction hb with
  | single hpq => exact hkid hpq
  | tail _ hpq ih => exact Nat.lt_trans ih (hkid hpq)

namespace Snapshot

variable (σ)

/-- What the loop keeps. -/
def kept : List Process := σ.table.filter fun r => r.Readable

theorem rows_eq : rows B σ.proc = σ.kept.map Process.row := by
  have hdigit : ∀ l : List Entry,
      l.filterMap (Entry.row B) = (l.filter (Entry.isDigit B)).filterMap (Entry.row B) := by
    intro l
    rw [List.filterMap_filter]
    refine List.filterMap_congr fun e _ => ?_
    by_cases he : e.isDigit B = true
    · rw [if_pos he]
    · rw [if_neg he, Entry.row, if_neg he]
  rw [rows, hdigit, σ.shows, List.filterMap_map, kept]
  induction σ.table with
  | nil => rfl
  | cons r ps ih =>
    by_cases hr : r.Readable
    · rw [List.filter_cons_of_pos (by simpa), List.filterMap_cons_some, ih]
      · rfl
      · exact r.row_entry.trans (if_pos hr)
    · rw [List.filter_cons_of_neg (by simpa), List.filterMap_cons_none, ih]
      exact r.row_entry.trans (if_neg hr)

theorem mem_kept {r : Process} : r ∈ σ.kept ↔ r ∈ σ.table ∧ r.Readable := by
  simp [kept]

theorem mem_kids : q ∈ kids (rows B σ.proc) p ↔ ∃ r ∈ σ.kept, r.ppid = p ∧ r.pid = q := by
  simp [kids, rows_eq, Process.row, and_assoc]

theorem nodup_pids : (σ.kept.map Process.pid).Nodup :=
  σ.nodup.sublist (List.filter_sublist.map _)

theorem eq_of_pid {r r' : Process} (hr : r ∈ σ.table) (hr' : r' ∈ σ.table)
    (h : r.pid = r'.pid) : r = r' :=
  List.inj_on_of_nodup_map σ.nodup hr hr' h

theorem length_kept_le : σ.kept.length ≤ σ.proc.length := by
  calc σ.kept.length ≤ σ.table.length := List.length_filter_le _ _
    _ = (σ.proc.filter (Entry.isDigit B)).length := by rw [σ.shows, List.length_map]
    _ ≤ σ.proc.length := List.length_filter_le _ _

/-! ## The walk -/

/-- What is listed as a child is one. -/
theorem kid_of_mem (h : q ∈ kids (rows B σ.proc) p) : Kid σ.table p q := by
  obtain ⟨r, hr, hrel⟩ := σ.mem_kids.mp h
  exact ⟨r, (σ.mem_kept.mp hr).1, hrel⟩

theorem below_of_under (h : Under (kids (rows B σ.proc)) p q) : Below σ.table p q :=
  Relation.TransGen.mono (fun _ _ => σ.kid_of_mem) p q h

/-- What the loop keeps is a tree, as a process has one parent. -/
theorem forest (h : NoCycle σ.table p) :
    Forest (kids (rows B σ.proc)) (σ.kept.map Process.pid) p where
  nodup x := by
    have hsub : (kids (rows B σ.proc) x).Sublist (σ.kept.map Process.pid) := by
      rw [kids, rows_eq, List.filter_map, List.map_map]
      exact List.filter_sublist.map _
    exact σ.nodup_pids.sublist hsub
  parent x y z hx hy := by
    obtain ⟨r, hr, rfl, rfl⟩ := σ.kid_of_mem hx
    obtain ⟨r', hr', rfl, hpid⟩ := σ.kid_of_mem hy
    rw [σ.eq_of_pid hr hr' hpid.symm]
  acyclic hunder := h p (σ.below_of_under hunder) (σ.below_of_under hunder)
  finite x y hy := by
    obtain ⟨r, hr, -, rfl⟩ := σ.mem_kids.mp hy
    exact List.mem_map_of_mem hr

/-- A process is listed below another if what is between them is kept, and it as well. -/
theorem under_iff_below (h : ∀ r ∈ σ.table, Below σ.table p r.pid → r.Readable) :
    Under (kids (rows B σ.proc)) p q ↔ Below σ.table p q := by
  have hkid : ∀ {x q}, Below σ.table p q → Kid σ.table x q →
      q ∈ kids (rows B σ.proc) x := by
    rintro x q hb ⟨r, hr, hppid, rfl⟩
    exact σ.mem_kids.mpr ⟨r, σ.mem_kept.mpr ⟨hr, h r hr hb⟩, hppid, rfl⟩
  refine ⟨σ.below_of_under, fun hb => ?_⟩
  induction hb with
  | single hpq => exact .single (hkid (.single hpq) hpq)
  | tail hb hpq ih => exact ih.tail (hkid (hb.tail hpq) hpq)

/-- Whatever the names are, the walk ends. -/
theorem descendants_ends (h : NoCycle σ.table p) :
    ∃ out, (∀ n, σ.proc.length < n → descendants B n σ.proc p = some out) ∧
      (out.map Prod.fst).Nodup ∧
      ∀ q, q ∈ out.map Prod.fst ↔ Under (kids (rows B σ.proc)) p q := by
  obtain ⟨out, hwalk, hnodup, hmem⟩ := walk_spec (σ.forest h)
  have hfst : (out.map fun k => (k, cmdOf (rows B σ.proc) k)).map Prod.fst = out := by
    rw [List.map_map]
    exact List.map_id out
  refine ⟨out.map fun k => (k, cmdOf (rows B σ.proc) k), fun n hn => ?_, ?_, ?_⟩
  · have hlength : (σ.kept.map Process.pid).length < n := by
      rw [List.length_map]
      exact Nat.lt_of_le_of_lt σ.length_kept_le hn
    rw [descendants, hwalk n hlength]
    rfl
  · rwa [hfst]
  · rwa [hfst]

/-- `descendants(p)` ends with each process below `p`, once, and no other. -/
def Complete (p : Nat) : Prop :=
  ∃ out, (∀ n, σ.proc.length < n → descendants B n σ.proc p = some out) ∧
    (out.map Prod.fst).Nodup ∧ ∀ q, q ∈ out.map Prod.fst ↔ Below σ.table p q

/-- **The kill list is complete exactly if all names below are UTF-8.** -/
theorem complete_iff_readable (h : NoCycle σ.table p) :
    σ.Complete p ↔ ∀ r ∈ σ.table, Below σ.table p r.pid → r.Readable := by
  obtain ⟨out, hout, hnodup, hmem⟩ := σ.descendants_ends h
  constructor
  · rintro ⟨out', hout', -, hmem'⟩ r hr hb
    obtain rfl : out = out' := Option.some_inj.mp
      ((hout _ (Nat.lt_succ_self _)).symm.trans (hout' _ (Nat.lt_succ_self _)))
    -- What is listed is somebody's child, and has been kept.
    have hunder := (hmem r.pid).mp ((hmem' r.pid).mpr hb)
    obtain ⟨x, -, hkid⟩ := Relation.TransGen.tail'_iff.mp hunder
    obtain ⟨r', hr', -, hpid⟩ := σ.mem_kids.mp hkid
    obtain ⟨htable, hread⟩ := σ.mem_kept.mp hr'
    exact σ.eq_of_pid htable hr hpid ▸ hread
  · intro hread
    exact ⟨out, hout, hnodup, fun q => (hmem q).trans (σ.under_iff_below hread)⟩

end Snapshot

/-! ## `end_child` -/

/-- The call is meant for `q`: it signals `q` if `q` runs, and the runner may signal it. -/
def Kill.Aimed (q : Nat) (k : Kill) : Prop :=
  ∀ running l, running q = some l → l.ours = true → k.Reaches running q

theorem aimed_one (q : Nat) (sig : Signal) : (Kill.one q sig).Aimed q := fun _ l hl hours =>
  ⟨rfl, l, hl, hours⟩

theorem aimed_group (q : Nat) (sig : Signal) : (Kill.group q sig).Aimed q := fun _ l hl hours =>
  ⟨l, l, hl, hl, rfl, hours⟩

/-- There is a call for the child, and for each process of its list. -/
theorem exists_aimed {child : Nat} {pids : List (Nat × List Char)}
    (h : q = child ∨ q ∈ pids.map Prod.fst) : ∃ k ∈ (endOne child pids).kills, k.Aimed q := by
  rcases h with rfl | h
  · exact ⟨.group q .sigterm, by simp [endOne], aimed_group q _⟩
  by_cases hmine : q ∈ (pids.filter fun x => isDeploy x.2).map Prod.fst
  · refine ⟨.group q .sigint, ?_, aimed_group q _⟩
    exact List.mem_append_left _ (List.mem_append_left _ (List.mem_map_of_mem hmine))
  · refine ⟨.one q .sigterm, ?_, aimed_one q _⟩
    refine List.mem_append_left _ (List.mem_append_right _ (List.mem_map_of_mem ?_))
    exact List.mem_filter.mpr ⟨h, by simpa using hmine⟩

variable {xs : List (Nat × List Entry)}

/-- The calls for each of the children are made. -/
theorem endChild_ends
    (h : ∀ x ∈ xs, ∃ out, ∀ n, x.2.length < n → descendants B n x.2 x.1 = some out) :
    ∃ e, (∀ n, (∀ x ∈ xs, x.2.length < n) → endChild B n xs = some e) ∧
      ∀ x ∈ xs, ∀ n out, x.2.length < n → descendants B n x.2 x.1 = some out →
        (endOne x.1 out).kills ⊆ e.kills ∧ (endOne x.1 out).deploys ⊆ e.deploys := by
  induction xs with
  | nil => exact ⟨_, fun _ _ => rfl, by simp⟩
  | cons x xs ih =>
    obtain ⟨out, hout⟩ := h x List.mem_cons_self
    obtain ⟨e, he, hlater⟩ := ih fun y hy => h y (List.mem_cons_of_mem x hy)
    let first := endOne x.1 out
    refine ⟨⟨first.kills ++ e.kills, first.deploys ++ e.deploys⟩, fun n hn => ?_,
      fun y hy n out' hn hout' => ?_⟩
    · rw [endChild, hout n (hn x List.mem_cons_self)]
      show (endChild B n xs).bind _ = _
      rw [he n fun y hy => hn y (List.mem_cons_of_mem x hy)]
      rfl
    · rcases List.mem_cons.mp hy with rfl | hy
      · obtain rfl : out = out' := Option.some_inj.mp ((hout n hn).symm.trans hout')
        exact ⟨List.subset_append_left _ _, List.subset_append_left _ _⟩
      · obtain ⟨hkills, hdeploys⟩ := hlater y hy n out' hn hout'
        exact ⟨List.subset_append_of_subset_right _ hkills,
          List.subset_append_of_subset_right _ hdeploys⟩

/-- `end_child` signals each child in flight, and all that is below one. -/
structure Ends (xs : List (Nat × Snapshot B)) : Prop where
  listed : ∀ x ∈ xs, x.2.Complete x.1
  signals : ∃ e,
    (∀ n, (∀ x ∈ xs, x.2.proc.length < n) →
      endChild B n (xs.map fun x => (x.1, x.2.proc)) = some e) ∧
    ∀ x ∈ xs, ∀ q, q = x.1 ∨ Below x.2.table x.1 q → ∃ k ∈ e.kills, k.Aimed q

/-- What `end_child` does for a child is what it does with all that is below it. -/
theorem endChild_of_complete {xs : List (Nat × Snapshot B)} (h : ∀ x ∈ xs, x.2.Complete x.1) :
    ∃ e, (∀ n, (∀ x ∈ xs, x.2.proc.length < n) →
        endChild B n (xs.map fun x => (x.1, x.2.proc)) = some e) ∧
      ∀ x ∈ xs, ∃ n out, descendants B n x.2.proc x.1 = some out ∧
        (∀ q, q ∈ out.map Prod.fst ↔ Below x.2.table x.1 q) ∧
        (endOne x.1 out).kills ⊆ e.kills ∧ (endOne x.1 out).deploys ⊆ e.deploys := by
  have hout : ∀ y ∈ xs.map fun x => (x.1, x.2.proc),
      ∃ out, ∀ n, y.2.length < n → descendants B n y.2 y.1 = some out := by
    intro y hy
    obtain ⟨x, hx, rfl⟩ := List.mem_map.mp hy
    obtain ⟨out, hout, -⟩ := h x hx
    exact ⟨out, hout⟩
  obtain ⟨e, he, hkills⟩ := endChild_ends hout
  refine ⟨e, fun n hn => he n fun y hy => ?_, fun x hx => ?_⟩
  · obtain ⟨x, hx, rfl⟩ := List.mem_map.mp hy
    exact hn x hx
  · obtain ⟨out, hdesc, -, hmem⟩ := h x hx
    have hlt := Nat.lt_succ_self x.2.proc.length
    exact ⟨_, out, hdesc _ hlt, hmem, hkills _ (List.mem_map_of_mem hx) _ out hlt (hdesc _ hlt)⟩

/-- What is listed below each child is signalled. -/
theorem signals_of_listed {xs : List (Nat × Snapshot B)} (h : ∀ x ∈ xs, x.2.Complete x.1) :
    Ends xs where
  listed := h
  signals := by
    obtain ⟨e, he, hchildren⟩ := endChild_of_complete h
    refine ⟨e, he, fun x hx q hq => ?_⟩
    obtain ⟨n, out, -, hmem, hkills, -⟩ := hchildren x hx
    obtain ⟨k, hk, haimed⟩ := exists_aimed (hq.imp_right (hmem q).mpr)
    exact ⟨k, hkills hk, haimed⟩

/--
**`end_child` lists and signals all that is in flight exactly if the name of each process below a
child is UTF-8.**
-/
theorem ends_iff_readable {xs : List (Nat × Snapshot B)}
    (h : ∀ x ∈ xs, NoCycle x.2.table x.1) :
    Ends xs ↔ ∀ x ∈ xs, ∀ r ∈ x.2.table, Below x.2.table x.1 r.pid → r.Readable := by
  constructor
  · intro hends x hx
    exact (x.2.complete_iff_readable (h x hx)).mp (hends.listed x hx)
  · intro hread
    exact signals_of_listed fun x hx => (x.2.complete_iff_readable (h x hx)).mpr (hread x hx)

/-! A driver of this name below a child, and below the driver a deploy. -/

def child : Process :=
  { pid := 100, ppid := 1, comm := encode "python3".toList, state := 'S', fields := [100, 100]
    cmdline := encode "run-experiment".toList, state_mem := by decide, pid_lt := by decide
    ppid_lt := by decide }

def driver (comm : List UInt8) : Process :=
  { pid := 200, ppid := 100, comm := comm, state := 'S', fields := [200, 200]
    cmdline := encode "bench.py".toList, state_mem := by decide, pid_lt := by decide
    ppid_lt := by decide }

def deploy : Process :=
  { pid := 300, ppid := 200, comm := encode "aws-deploy.py".toList, state := 'S'
    fields := [300, 300], cmdline := encode "aws-deploy.py".toList, state_mem := by decide
    pid_lt := by decide, ppid_lt := by decide }

/-- Nothing else is in `/proc`. -/
def inFlight (comm : List UInt8) : Snapshot Builtins.exact where
  table := [child, driver comm, deploy]
  proc := [child.entry, (driver comm).entry, deploy.entry]
  nodup := by
    show ([100, 200, 300] : List Nat).Nodup
    decide
  shows := by
    simp only [List.filter_cons_of_pos, Process.isDigit_entry, List.filter_nil, List.map_cons,
      List.map_nil]

theorem noCycle_inFlight (comm : List UInt8) : NoCycle (inFlight comm).table 100 := by
  intro q _ hb
  have holder : ∀ r ∈ [child, driver comm, deploy], r.ppid < r.pid := by
    simp [child, driver, deploy]
  exact Nat.lt_irrefl q (lt_of_below holder hb)

theorem ends_iff_readable_bench : Ends [(100, inFlight (encode "bench.py".toList))] := by
  have hnoCycle : ∀ x ∈ [(100, inFlight (encode "bench.py".toList))], NoCycle x.2.table x.1 := by
    intro x hx
    rw [List.mem_singleton.mp hx]
    exact noCycle_inFlight _
  refine (ends_iff_readable hnoCycle).mpr fun x hx r hr _ => ?_
  rw [List.mem_singleton.mp hx] at hr
  have hread : ∀ s : List Char, (decode (encode s)).isSome = true := fun s => by
    rw [decode_encode]
    rfl
  rcases List.mem_cons.mp hr with rfl | hr
  · exact hread _
  rcases List.mem_cons.mp hr with rfl | hr
  · exact hread _
  · rw [List.mem_singleton.mp hr]
    exact hread _

/-- The first fourteen bytes of the name, and the first of the two of the letter that follows. -/
def cutName : List UInt8 := encode "messung-der-gr".toList ++ [0xc3]

theorem not_ends_cutName :
    ¬ ∀ (B : Builtins) (xs : List (Nat × Snapshot B)), (∀ x ∈ xs, NoCycle x.2.table x.1) →
      Ends xs := by
  intro h
  have hnoCycle : ∀ x ∈ [(100, inFlight cutName)], NoCycle x.2.table x.1 := by
    intro x hx
    rw [List.mem_singleton.mp hx]
    exact noCycle_inFlight _
  have hcomplete := (h _ _ hnoCycle).listed _ List.mem_cons_self
  have hdriver : driver cutName ∈ (inFlight cutName).table :=
    List.mem_cons_of_mem _ List.mem_cons_self
  have hread := ((inFlight cutName).complete_iff_readable (noCycle_inFlight _)).mp hcomplete
    _ hdriver (.single ⟨_, hdriver, rfl, rfl⟩)
  have hnone : decode cutName = none := by
    have hlast : decode [0xc3] = none := by decide
    rw [cutName, decode_encode_append, hlast]
    rfl
  rw [Process.Readable, driver, hnone] at hread
  cases hread

/-! ## Deploys -/

theorem shown_encode (s : List Char) :
    shown (encode s) = s.map fun c => if c = '\x00' then ' ' else c := by
  have hmap : (encode s).map (fun x => if x = 0 then 0x20 else x) =
      encode (s.map fun c => if c = '\x00' then ' ' else c) := by
    induction s with
    | nil => rfl
    | cons c s ih =>
      rw [encode_cons, List.map_append, ih, List.map_cons, encode_cons]
      congr 1
      by_cases hc : c = '\x00'
      · rw [hc]
        rfl
      · rw [if_neg hc]
        calc (String.utf8EncodeChar c).map (fun x => if x = 0 then 0x20 else x) =
              (String.utf8EncodeChar c).map id :=
              List.map_congr_left fun x hx =>
                if_neg fun hzero : x = 0 => hc (eq_of_zero_mem (hzero ▸ hx))
          _ = String.utf8EncodeChar c := List.map_id _
  rw [shown, hmap, decodeReplace_encode]

theorem infix_map {f : Char → Char} (hf : t.map f = t) (h : t <:+: s) : t <:+: s.map f := by
  have hmap := h.map f
  rwa [hf] at hmap

/-- A program of this name is taken for a deploy, whatever else is in its command line. -/
theorem isDeploy_shown (h : "aws-deploy.py".toList <:+: s) :
    isDeploy (shown (encode s)) = true := by
  have hinfix := infix_map (f := fun c => if c = '\x00' then ' ' else c) rfl h
  rw [← shown_encode] at hinfix
  exact decide_eq_true hinfix

namespace Snapshot

variable (σ)

theorem cmdOf_eq {r : Process} (hr : r ∈ σ.kept) :
    cmdOf (rows B σ.proc) r.pid = shown r.cmdline := by
  have hmem : r.row ∈ (rows B σ.proc).reverse := by
    rw [rows_eq, List.mem_reverse]
    exact List.mem_map_of_mem hr
  rw [cmdOf]
  cases hfind : (rows B σ.proc).reverse.find? (·.pid == r.pid) with
  | none => exact absurd (beq_self_eq_true r.pid) (List.find?_eq_none.mp hfind r.row hmem)
  | some y =>
    have hy := List.mem_of_find?_eq_some hfind
    rw [rows_eq, List.mem_reverse] at hy
    obtain ⟨r', hr', rfl⟩ := List.mem_map.mp hy
    have hpid := List.find?_some hfind
    rw [σ.eq_of_pid (σ.mem_kept.mp hr').1 (σ.mem_kept.mp hr).1 (beq_iff_eq.mp hpid)]
    rfl

end Snapshot

theorem cmd_of_mem {n p : Nat} {proc : List Entry} {out : List (Nat × List Char)}
    (h : descendants B n proc p = some out) {x : Nat × List Char} (hx : x ∈ out) :
    x.2 = cmdOf (rows B proc) x.1 := by
  obtain ⟨l, -, rfl⟩ := Option.map_eq_some_iff.mp h
  obtain ⟨k, -, rfl⟩ := List.mem_map.mp hx
  rfl

/--
**A deploy in flight gets `SIGINT`, with all of its group**, and is among those that are given time
to end.
-/
theorem deploy_interrupted {xs : List (Nat × Snapshot B)} (h : ∀ x ∈ xs, x.2.Complete x.1) :
    ∃ e, (∀ n, (∀ x ∈ xs, x.2.proc.length < n) →
        endChild B n (xs.map fun x => (x.1, x.2.proc)) = some e) ∧
      ∀ x ∈ xs, ∀ r ∈ x.2.kept, Below x.2.table x.1 r.pid →
        ∀ s, r.cmdline = encode s → "aws-deploy.py".toList <:+: s →
          .group r.pid .sigint ∈ e.kills ∧ r.pid ∈ e.deploys := by
  obtain ⟨e, he, hchildren⟩ := endChild_of_complete h
  refine ⟨e, he, fun x hx r hr hb s hcmd hs => ?_⟩
  obtain ⟨n, out, hdesc, hmem, hkills, hdeploys⟩ := hchildren x hx
  obtain ⟨y, hy, hpid⟩ := List.mem_map.mp ((hmem r.pid).mpr hb)
  have hdeploy : isDeploy y.2 = true := by
    rw [cmd_of_mem hdesc hy, hpid, x.2.cmdOf_eq hr, hcmd]
    exact isDeploy_shown hs
  have hmine : r.pid ∈ (out.filter fun y => isDeploy y.2).map Prod.fst :=
    List.mem_map.mpr ⟨y, List.mem_filter.mpr ⟨hy, hdeploy⟩, hpid⟩
  exact ⟨hkills (List.mem_append_left _ (List.mem_append_left _ (List.mem_map_of_mem hmine))),
    hdeploys hmine⟩

end EndChild
