import MiniosvCtrl.Bench.Duckdb
import MiniosvCtrl.Infra.Lines
import MiniosvCtrl.Infra.Through
import MiniosvCtrl.Properties.Terminated

/-!
# What the console reader keeps

The poll loop of linux-s3 and duckdb-linux keeps a reading only if it is longer than the text it
has. EC2's answer is the last part of the console, of a fixed size: once that is full, a reading is
as long as the one before it.

* `ended_found_iff` — the loop ends at a text with a line that is a verdict
* `poll_stops` — how many readings the loop makes, and what it returns
* `keeps_iff` — when the first verdict shown is the one that is parsed
-/

namespace RunOnce

open Infra Infra.Regex Ec2

/-! ## Verdicts -/

/-- The line is a verdict. -/
def isVerdict (l : List Char) : Bool :=
  "COMPLETE:".toList.isPrefixOf l || "INCOMPLETE:".toList.isPrefixOf l

def verdicts (t : List Char) : List (List Char) := (lines t).filter isVerdict

theorem ended_lineBound : ended.LineBound :=
  ⟨trivial, ⟨(by decide : '\n' ∉ "COMPLETE".toList), (by decide : '\n' ∉ "INCOMPLETE".toList)⟩,
    (by decide : '\n' ∉ ":".toList)⟩

theorem lineGroups_ended {l : List Char} : lineGroups ended l ≠ none ↔ isVerdict l = true := by
  rw [isVerdict, Bool.or_eq_true, List.isPrefixOf_iff_prefix, List.isPrefixOf_iff_prefix]
  constructor
  · intro h
    cases hm : ended.matchAt ⟨none, l⟩ with
    | none => rw [lineGroups, hm] at h; exact absurd rfl h
    | some f =>
      obtain ⟨e, g, ⟨-, rfl, rfl⟩, e', g', ⟨g'', halt, -⟩, hcolon, -⟩ :=
        through_of_matchAt (d := f.1) (g := f.2) hm
      rcases halt with ⟨hword, -⟩ | ⟨hword, -⟩
      · refine .inl ⟨f.1.rest, ?_⟩
        rw [show l = "COMPLETE".toList ++ e'.rest from hword, hcolon, ← List.append_assoc]
        rfl
      · refine .inr ⟨f.1.rest, ?_⟩
        rw [show l = "INCOMPLETE".toList ++ e'.rest from hword, hcolon, ← List.append_assoc]
        rfl
  · intro h
    have hgoes : Goes (fun c g => run (.seq (.group (.alt (.text "COMPLETE") (.text "INCOMPLETE")))
        (.text ":")) c g fun d g => some (d, g)) l := by
      rcases h with ⟨rest, rfl⟩ | ⟨rest, rfl⟩
      · exact goes_group (fun _ hk => goes_alt_left (goes_lit "COMPLETE".toList hk))
          (goes_lit ":".toList (goes_some rest))
      · exact goes_group (fun _ hk => goes_alt_right (goes_lit "INCOMPLETE".toList hk))
          (goes_lit ":".toList (goes_some rest))
    exact fun hnone => hgoes none [] (Option.map_eq_none_iff.mp hnone)

theorem ended_found_iff (t : List Char) : ended.found t = true ↔ verdicts t ≠ [] := by
  have hline := found_line ended_lineBound trivial t
  rw [verdicts, Ne, List.filter_eq_nil_iff, not_forall]
  refine hline.trans ?_
  constructor
  · rintro ⟨l, hl, h⟩
    exact ⟨l, fun hall => hall hl (lineGroups_ended.mp h)⟩
  · rintro ⟨l, h⟩
    rw [Classical.not_imp, not_not] at h
    exact ⟨l, h.1, lineGroups_ended.mpr h.2⟩

/-! ## Readings -/

section Readings

variable {α : Type} (d : Driver α) (r : Replies)

/-- The `n`-th reading; one that is refused is empty. -/
def snapshot (n : Nat) : List Char :=
  match r.console n with
  | .ok out => out.getD []
  | .error _ => []

/-- What is made of it. -/
def view (n : Nat) : List Char := d.clean (snapshot r n)

/-- The text after `n` readings. -/
def kept : Nat → List Char
  | 0 => []
  | n + 1 => if (kept n).length < (snapshot r n).length then view d r n else kept n

/-- The reading that it was made of. -/
def source : Nat → Option Nat
  | 0 => none
  | n + 1 => if (kept d r n).length < (snapshot r n).length then some n else source n

/-- When the `n`-th reading is due. -/
def time : Nat → Nat
  | 0 => 0
  | n + 1 => time n + d.interval + r.turn n

/-- Every reading is the end of a growing console, of so many characters, or empty. -/
def Windows (size : Nat) : Prop :=
  ∃ full : Nat → List Char, (∀ m n, m ≤ n → full m <+: full n) ∧
    ∀ n, snapshot r n = [] ∨ snapshot r n = (full n).drop ((full n).length - size)

/-- The first reading that shows a verdict. -/
def FirstVerdict (k : Nat) : Prop :=
  verdicts (view d r k) ≠ [] ∧ ∀ j < k, verdicts (view d r j) = []

/-- The loop stops at the first reading with a verdict, with the verdict in its text, and the text
never gives way to one of a shorter reading. -/
structure Keeps (i : InstanceId) : Prop where
  stops : ∀ k, time d r k < d.maxVmSeconds → FirstVerdict d r k →
    ∃ text, poll d r i 0 0 [] [] = (.ok text, List.replicate (k + 1) (.getConsoleOutput i)) ∧
      verdicts (view d r k) ⊆ verdicts text
  longer : ∀ n j, source d r n = some j → (kept d r n).length < (snapshot r n).length →
    (snapshot r j).length ≤ (snapshot r n).length

/-- What is made of a reading is no longer than it. -/
structure Shrinks (d : Driver α) : Prop where
  nil : d.clean [] = []
  length_le : ∀ t, (d.clean t).length ≤ t.length

variable {d r} {i : InstanceId} {k n : Nat}

theorem kept_cases (n : Nat) :
    (kept d r n = [] ∧ source d r n = none) ∨
      ∃ j < n, kept d r n = view d r j ∧ source d r n = some j := by
  induction n with
  | zero => exact .inl ⟨rfl, rfl⟩
  | succ n ih =>
    rw [kept, source]
    split
    · exact .inr ⟨n, Nat.lt_succ_self n, rfl, rfl⟩
    · rcases ih with h | ⟨j, hj, h⟩
      · exact .inl h
      · exact .inr ⟨j, Nat.lt_succ_of_lt hj, h⟩

theorem verdicts_kept (h : ∀ j < k, verdicts (view d r j) = []) (hn : n ≤ k) :
    verdicts (kept d r n) = [] := by
  rcases kept_cases (d := d) (r := r) n with ⟨hnil, -⟩ | ⟨j, hj, hview, -⟩
  · rw [hnil]
    rfl
  · rw [hview]
    exact h j (Nat.lt_of_lt_of_le hj hn)

theorem found_kept (h : ∀ j < k, verdicts (view d r j) = []) (hn : n ≤ k) :
    ended.found (kept d r n) = false := by
  rw [Bool.eq_false_iff]
  exact fun hfound => (ended_found_iff _).mp hfound (verdicts_kept h hn)

theorem time_mono {m n : Nat} (h : m ≤ n) : time d r m ≤ time d r n := by
  induction n with
  | zero => rw [Nat.le_zero.mp h]
  | succ n ih =>
    rcases Nat.lt_or_eq_of_le h with hlt | rfl
    · exact (ih (Nat.le_of_lt_succ hlt)).trans (by rw [time]; omega)
    · exact Nat.le_refl _

/-! ## The loop -/

section Loop

variable (hwrite : ∀ n, r.write n = .ok ())
include hwrite

/-- One turn of the loop. -/
theorem poll_step (n : Nat) (made : List Call) :
    poll d r i n (time d r n) (kept d r n) made =
      if time d r n < d.maxVmSeconds then
        if ended.found (kept d r (n + 1)) = true then
          (.ok (kept d r (n + 1)), made ++ [.getConsoleOutput i])
        else poll d r i (n + 1) (time d r (n + 1)) (kept d r (n + 1))
          (made ++ [.getConsoleOutput i])
      else (.ok (kept d r n), made) := by
  have hconsole : console r i n made = (.ok (snapshot r n), made ++ [.getConsoleOutput i]) := by
    unfold console snapshot makeEc2
    cases r.console n <;> rfl
  have hkeep : ∀ made, keep d r n (snapshot r n) (kept d r n) made =
      (.ok (kept d r (n + 1)), made) := by
    intro made
    rw [keep, kept, hwrite n]
    split <;> rfl
  rw [poll]
  split
  · rw [Py.bind_ok hconsole, Py.bind_ok (hkeep _)]
    split <;> rfl
  · rfl

/-- As long as no text shows a verdict, the loop goes on. -/
theorem poll_until {m : Nat} (htime : ∀ l < m, time d r l < d.maxVmSeconds)
    (hfound : ∀ l ≤ m, ended.found (kept d r l) = false) :
    poll d r i 0 0 [] [] =
      poll d r i m (time d r m) (kept d r m) (List.replicate m (.getConsoleOutput i)) := by
  induction m with
  | zero => rfl
  | succ m ih =>
    rw [ih (fun l hl => htime l (Nat.lt_succ_of_lt hl)) fun l hl => hfound l (Nat.le_succ_of_le hl),
      poll_step hwrite, if_pos (htime m (Nat.lt_succ_self m)), hfound (m + 1) (Nat.le_refl _),
      if_neg Bool.false_ne_true, List.replicate_succ']

/-- The first verdict is parsed exactly when its reading is longer than the text kept so far. -/
theorem halts_iff (htime : time d r k < d.maxVmSeconds) (hk : FirstVerdict d r k) :
    (∃ text, poll d r i 0 0 [] [] = (.ok text, List.replicate (k + 1) (.getConsoleOutput i)) ∧
      verdicts (view d r k) ⊆ verdicts text) ↔ (kept d r k).length < (snapshot r k).length := by
  have hbefore : ∀ l < k, time d r l < d.maxVmSeconds := fun l hl =>
    Nat.lt_of_le_of_lt (time_mono (Nat.le_of_lt hl)) htime
  have hnone : ∀ l ≤ k, ended.found (kept d r l) = false := fun l hl => found_kept hk.2 hl
  constructor
  · rintro ⟨text, hpoll, hsub⟩
    by_contra hnot
    have hsame : kept d r (k + 1) = kept d r k := if_neg hnot
    have hverdicts : verdicts (kept d r (k + 1)) = [] := by
      rw [hsame]
      exact verdicts_kept hk.2 (Nat.le_refl k)
    have hnone' : ∀ l ≤ k + 1, ended.found (kept d r l) = false := by
      intro l hl
      rcases Nat.lt_or_eq_of_le hl with hlt | rfl
      · exact hnone l (Nat.le_of_lt_succ hlt)
      · rw [hsame]
        exact hnone k (Nat.le_refl k)
    have htime' : ∀ l < k + 1, time d r l < d.maxVmSeconds := by
      intro l hl
      rcases Nat.lt_or_eq_of_le (Nat.le_of_lt_succ hl) with hlt | rfl
      · exact hbefore l hlt
      · exact htime
    rw [poll_until hwrite htime' hnone', poll_step hwrite] at hpoll
    split at hpoll
    · -- a reading more
      have hcalls : ∀ made, ∃ l, (poll d r i (k + 2) (time d r (k + 2)) (kept d r (k + 2)) made).2 =
          made ++ l := fun made => (makes_poll d r i _ _ _ made).imp fun _ h => h.1
      have hlength := congrArg (fun p => p.2.length) hpoll
      split at hlength
      · simp at hlength
      · obtain ⟨l, hl⟩ := hcalls (List.replicate (k + 1) (Call.getConsoleOutput i) ++
          [Call.getConsoleOutput i])
        simp only [hl, List.length_append, List.length_replicate, List.length_singleton] at hlength
        omega
    · have htext : kept d r (k + 1) = text := by
        injection hpoll with h _
        injection h
      rw [← htext, hverdicts] at hsub
      exact hk.1 (List.subset_nil.mp hsub)
  · intro hlt
    have hview : kept d r (k + 1) = view d r k := if_pos hlt
    refine ⟨view d r k, ?_, List.Subset.refl _⟩
    rw [poll_until hwrite hbefore hnone, poll_step hwrite, if_pos htime, hview,
      if_pos ((ended_found_iff _).mpr hk.1), List.replicate_succ']

end Loop

/-! ## Windows -/

theorem length_window (full : List Char) (size : Nat) :
    (full.drop (full.length - size)).length = min size full.length := by
  rw [List.length_drop]
  omega

/-- A reading is no shorter than one before it, unless it is empty. -/
theorem length_snapshot_le {size m : Nat} (h : Windows r size) (hm : m ≤ n)
    (hne : snapshot r n ≠ []) : (snapshot r m).length ≤ (snapshot r n).length := by
  obtain ⟨full, hgrows, hwindow⟩ := h
  rcases hwindow m with hempty | heq
  · rw [hempty]
    exact Nat.zero_le _
  · have heq' := (hwindow n).resolve_left hne
    have hlength := (hgrows m n hm).length_le
    rw [heq, heq', length_window, length_window]
    omega

theorem ne_nil_of_lt {l : List Char} (h : n < l.length) : l ≠ [] :=
  List.ne_nil_of_length_pos (Nat.lt_of_le_of_lt (Nat.zero_le n) h)

/-- A text as long as the reading with the verdict stays until it. -/
theorem length_kept_ge {size : Nat} (h : Windows r size) (hd : Shrinks d)
    (hne : snapshot r k ≠ []) {j : Nat} (hj : (snapshot r k).length ≤ (view d r j).length)
    (hjn : j < n) (hnk : n ≤ k) : (snapshot r k).length ≤ (kept d r n).length := by
  induction n with
  | zero => cases hjn
  | succ n ih =>
    rw [kept]
    rcases Nat.lt_or_eq_of_le (Nat.le_of_lt_succ hjn) with hlt | rfl
    · -- what is kept is as long as any reading up to here
      have hkept := ih hlt (Nat.le_of_succ_le hnk)
      split
      case isFalse => exact hkept
      case isTrue hlonger =>
        have hmono := length_snapshot_le h (Nat.le_of_succ_le hnk) hne
        omega
    · split
      case isTrue => exact hj
      case isFalse hshort =>
        have hview := hd.length_le (snapshot r j)
        rw [view] at hj
        omega

theorem kept_lt_iff {size : Nat} (h : Windows r size) (hd : Shrinks d)
    (hk : FirstVerdict d r k) : (kept d r k).length < (snapshot r k).length ↔
      ∀ j < k, (view d r j).length < (snapshot r k).length := by
  have hne : snapshot r k ≠ [] := by
    intro hnil
    refine hk.1 ?_
    rw [view, hnil, hd.nil]
    rfl
  constructor
  · intro hlt j hj
    by_contra hge
    have hkept := length_kept_ge h hd hne (Nat.le_of_not_lt hge) hj (Nat.le_refl k)
    omega
  · intro hall
    rcases kept_cases (d := d) (r := r) k with ⟨hnil, -⟩ | ⟨j, hj, hview, -⟩
    · rw [hnil]
      exact List.length_pos_of_ne_nil hne
    · rw [hview]
      exact hall j hj

theorem source_le {size : Nat} (h : Windows r size) {j : Nat} (hj : source d r n = some j)
    (hlt : (kept d r n).length < (snapshot r n).length) :
    (snapshot r j).length ≤ (snapshot r n).length := by
  rcases kept_cases (d := d) (r := r) n with ⟨-, hnone⟩ | ⟨j', hj', -, hsome⟩
  · rw [hnone] at hj
    cases hj
  · rw [hsome] at hj
    obtain rfl := Option.some_inj.mp hj
    exact length_snapshot_le h (Nat.le_of_lt hj') (ne_nil_of_lt hlt)

end Readings

/-! ## The two drivers -/

theorem length_subFrom_le {rx : Regex} {repl : List Char} (hrepl : repl.length ≤ 1) (skip : Nat)
    (prev : Option Char) (t : List Char) : (rx.subFrom repl skip prev t).length ≤ t.length := by
  induction t generalizing skip prev with
  | nil => cases skip <;> exact Nat.le_refl 0
  | cons x t ih =>
    cases skip with
    | succ skip => exact (ih skip (some x)).trans (Nat.le_succ _)
    | zero =>
      rw [subFrom]
      split
      · rename_i f _
        have hrest := ih (t.length - f.1.rest.length) (some x)
        rw [List.length_append, List.length_cons]
        omega
      · rw [List.length_cons, List.length_cons]
        exact Nat.succ_le_succ (ih 0 (some x))

/-- The drivers that read a console. -/
inductive Reader (B : Builtins)
  | linuxS3 (k : Runner.Stack B) (maxVmSeconds : Nat) (s : Bool → Runner.Setting)
  | duckdbLinux (maxVmSeconds : Nat) (s : Bool → Runner.Setting)

def Reader.driver {B : Builtins} : Reader B → Driver (List (Runner.Record B))
  | linuxS3 k maxVmSeconds s => LinuxS3.driver B k maxVmSeconds s
  | duckdbLinux maxVmSeconds s => DuckdbLinux.driver B maxVmSeconds s

theorem Reader.shrinks {B : Builtins} (x : Reader B) : Shrinks x.driver := by
  cases x with
  | linuxS3 k maxVmSeconds s => exact ⟨rfl, fun t => Nat.le_refl _⟩
  | duckdbLinux maxVmSeconds s =>
    exact ⟨rfl, fun t => length_subFrom_le (by decide : ['\n'].length ≤ 1) 0 none t⟩

/-- **The reader keeps what it was shown exactly when the reading that first shows a verdict is
longer than what was made of each reading before it.** -/
theorem keeps_iff {B : Builtins} (x : Reader B) (r : Replies) (size : Nat) (i : InstanceId)
    (hwrite : ∀ n, r.write n = .ok ()) (hwindows : Windows r size) :
    Keeps x.driver r i ↔ ∀ k, time x.driver r k < x.driver.maxVmSeconds →
      FirstVerdict x.driver r k →
        ∀ j < k, (view x.driver r j).length < (snapshot r k).length := by
  constructor
  · intro h k htime hk
    exact (kept_lt_iff hwindows x.shrinks hk).mp
      ((halts_iff hwrite htime hk).mp (h.stops k htime hk))
  · intro h
    exact
      { stops := fun k htime hk => (halts_iff hwrite htime hk).mpr
          ((kept_lt_iff hwindows x.shrinks hk).mpr (h k htime hk))
        longer := fun n j hj hlt => source_le hwindows hj hlt }

/-! ### A full window -/

def linuxS3Reader : Reader Builtins.exact :=
  .linuxS3 (LinuxS3.stack Builtins.exact) 900 (defaults (LinuxS3.bench Builtins.exact))

/-- The console, one reading after the other. -/
def consoleOf (size : Nat) (full : Nat → List Char) : Replies :=
  { completes (.ok []) with
    console := fun n => .ok (some ((full n).drop ((full n).length - size))) }

theorem windows_consoleOf (size : Nat) {full : Nat → List Char}
    (h : ∀ m n, m ≤ n → full m <+: full n) : Windows (consoleOf size full) size :=
  ⟨full, h, fun _ => .inr rfl⟩

/-- The verdict is on the console from the second reading on. -/
def early (before : List Char) : Nat → List Char
  | 0 => before
  | _ + 1 => before ++ "\nCOMPLETE: 0 bytes\n".toList

theorem early_grows (before : List Char) (m n : Nat) (h : m ≤ n) :
    early before m <+: early before n := by
  cases m with
  | zero =>
    cases n with
    | zero => exact List.prefix_refl before
    | succ n => exact List.prefix_append before _
  | succ m =>
    cases n with
    | zero => cases h
    | succ n => exact List.prefix_refl _

/-- A boot that prints little: what it printed last is all there. -/
theorem keeps_iff_booted :
    Keeps linuxS3Reader.driver (consoleOf 65536 (early "booted".toList)) 7 ↔
      ∀ k, time linuxS3Reader.driver (consoleOf 65536 (early "booted".toList)) k < 900 →
        FirstVerdict linuxS3Reader.driver (consoleOf 65536 (early "booted".toList)) k →
          ∀ j < k, (view linuxS3Reader.driver (consoleOf 65536 (early "booted".toList)) j).length <
            (snapshot (consoleOf 65536 (early "booted".toList)) k).length :=
  keeps_iff linuxS3Reader _ 65536 7 (fun _ => rfl) (windows_consoleOf 65536 (early_grows _))

/-- So much on the console already that every reading is full. -/
def filled (size : Nat) : Replies := consoleOf size (early (List.replicate size '.'))

theorem firstVerdict_filled {size : Nat} (h : 19 ≤ size) :
    FirstVerdict linuxS3Reader.driver (filled size) 1 := by
  constructor
  · have hview : view linuxS3Reader.driver (filled size) 1 =
        List.replicate (size - 19) '.' ++ '\n' :: ("COMPLETE: 0 bytes".toList ++ '\n' :: []) := by
      show (List.replicate size '.' ++ "\nCOMPLETE: 0 bytes\n".toList).drop
        ((List.replicate size '.' ++ "\nCOMPLETE: 0 bytes\n".toList).length - size) = _
      have htail : "\nCOMPLETE: 0 bytes\n".toList.length = 19 := by decide
      rw [List.length_append, List.length_replicate, htail, Nat.add_sub_cancel_left,
        List.drop_append_of_le_length (by rw [List.length_replicate]; exact h), List.drop_replicate]
      rfl
    have hmem : "COMPLETE: 0 bytes".toList ∈
        verdicts (view linuxS3Reader.driver (filled size) 1) := by
      refine List.mem_filter.mpr ⟨?_, by decide⟩
      rw [hview, lines_append_cons, lines_append_cons]
      refine List.mem_append_right _ (List.mem_append_left _ ?_)
      rw [lines_eq_singleton (by decide)]
      exact List.mem_singleton.mpr rfl
    exact List.ne_nil_of_mem hmem
  · intro j hj
    obtain rfl := Nat.lt_one_iff.mp hj
    have hview : view linuxS3Reader.driver (filled size) 0 = List.replicate size '.' := by
      show (List.replicate size '.').drop ((List.replicate size '.').length - size) = _
      rw [List.length_replicate, Nat.sub_self, List.drop_zero]
    have hline : '\n' ∉ List.replicate size '.' := fun hmem =>
      absurd (List.eq_of_mem_replicate hmem) (by decide)
    rw [verdicts, hview, lines_eq_singleton hline, List.filter_eq_nil_iff]
    intro l hl
    obtain ⟨n, rfl⟩ : ∃ n, size = n + 1 := ⟨size - 1, by omega⟩
    rw [List.mem_singleton.mp hl, List.replicate_succ]
    simp [isVerdict]

theorem length_filled (size n : Nat) : (snapshot (filled size) n).length = size := by
  show ((early _ n).drop _).length = size
  rw [length_window]
  have hle : size ≤ (early (List.replicate size '.') n).length := by
    have hprefix := (early_grows (List.replicate size '.') 0 n (Nat.zero_le n)).length_le
    rwa [early, List.length_replicate] at hprefix
  omega

theorem windows_filled (size : Nat) : Windows (filled size) size :=
  windows_consoleOf size (early_grows _)

theorem lost_filled {size : Nat} (h : 19 ≤ size) :
    ¬ Keeps linuxS3Reader.driver (filled size) 7 := by
  intro hkeeps
  have htime : time linuxS3Reader.driver (filled size) 1 < linuxS3Reader.driver.maxVmSeconds := by
    show 0 + 15 + 1 < 900
    omega
  have hlt := (halts_iff (fun _ => rfl) htime (firstVerdict_filled h)).mp
    (hkeeps.stops 1 htime (firstVerdict_filled h))
  have hview := (kept_lt_iff (windows_filled size) linuxS3Reader.shrinks
    (firstVerdict_filled h)).mp hlt 0 Nat.one_pos
  have hid : view linuxS3Reader.driver (filled size) 0 = snapshot (filled size) 0 := rfl
  rw [hid, length_filled, length_filled] at hview
  exact absurd hview (Nat.lt_irrefl _)

/-- The first verdict is on a reading as long as the one before it: it is never seen. -/
theorem not_keeps_filled : Windows (filled 65536) 65536 ∧
    ¬ Keeps linuxS3Reader.driver (filled 65536) 7 :=
  ⟨windows_filled 65536, lost_filled (by omega)⟩

end RunOnce
