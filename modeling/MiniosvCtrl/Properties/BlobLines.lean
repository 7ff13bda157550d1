import Mathlib.Data.List.Infix
import MiniosvCtrl.AnyBlob.Summary
import MiniosvCtrl.Properties.Summary

/-!
# The lines of the AnyBlob client, as a search sees them

The lines that linux-s3 prints as well are looked through there. Those of a callback begin with the
worker and hold nothing but numbers and words of their own; the host and a daemon's error are as
`Plain` says.

* `Entry.Clean` — what is known of a line with a text from outside
* `free_aggregate`, … — patterns that begin with a word
* `Entry.opening`, `skips_of_begins` — patterns for the start of a line
* `hits_tlsStub`, … — what a metric reads in its line
-/

namespace AnyBlob

open Infra Infra.Regex Runner
open LinuxS3 (Piece Line Mutes Plain)

/-- An address, or a part of one. -/
def IsAddress (ip : String) : Prop := ∀ c ∈ ip.toList, c.isDigit = true ∨ c = '.'

/-- A callback's line: it begins with the worker, and has none of the words that are
looked for. -/
def IsCalled (line : String) : Prop := line.toList.head? = some 'q' ∧ Plain line

namespace Entry

open LinuxS3.Entry (cores)

def Clean : Entry → Prop
  | both e => e.Clean
  | target ip _ host => IsAddress ip ∧ Plain host
  | said (.called line) => IsCalled line
  | said (.daemon _ what) => Plain what
  | _ => True

/-- No line of the client's own has these. -/
def quiet : List (List Char) := ['\n'] :: cores

/-! ## Lines without a text from outside -/

/-- Neither one of linux-s3 nor one with a text from outside. -/
def isOwn : Entry → Bool
  | both _ | bench .. | target .. | said _ => false
  | _ => true

theorem mutes_httpStatus (bad : Nat) (throttled : Bool) :
    Mutes quiet (httpStatus bad throttled).line := by
  refine .lit rfl (.num rfl (.lit rfl ?_))
  by_cases hbad : bad = 0
  · rw [if_pos hbad]
    exact .lit rfl .nil
  · rw [if_neg hbad]
    exact .either rfl rfl .nil

/-- One case for each line: its literals are looked through, and no number has a word. -/
theorem mutes_line {e : Entry} (h : e.isOwn = true) : Mutes quiet e.line := by
  cases e with
  | both => cases h
  | target => cases h
  | said => cases h
  | bench => cases h
  | note perDaemon conns cap cores =>
    exact .lit rfl (.lit rfl (.num rfl (.lit rfl (.num rfl (.lit rfl (.num rfl (.lit rfl
      (.num rfl .nil))))))))
  | pool n mib seconds =>
    exact .lit rfl (.num rfl (.lit rfl (.num rfl (.lit rfl (.fixed rfl (.lit rfl .nil))))))
  | worker w bytes seconds rate requests =>
    exact .lit rfl (.num rfl (.lit rfl (.num rfl (.lit rfl (.num rfl (.lit rfl (.fixed rfl
      (.lit rfl (.fixed rfl (.lit rfl (.num rfl (.lit rfl .nil))))))))))))
  | req ttfb wire =>
    exact .lit rfl (.lit rfl (.num rfl (.lit rfl (.num rfl (.lit rfl (.num rfl (.lit rfl (.num rfl
      (.lit rfl (.num rfl (.lit rfl (.num rfl (.lit rfl (.num rfl (.lit rfl (.num rfl
        .nil))))))))))))))))
  | cpu user sys total cores seconds rate =>
    exact .lit rfl (.lit rfl (.fixed rfl (.lit rfl (.fixed rfl (.lit rfl (.fixed rfl (.lit rfl
      (.fixed rfl (.lit rfl (.fixed rfl (.lit rfl (.fixed rfl (.lit rfl .nil)))))))))))))
  | tail idle => exact .lit rfl (.lit rfl (.fixed rfl (.lit rfl (.fixed rfl .nil))))
  | remark => exact .lit rfl (.lit rfl .nil)
  | httpStatus bad throttled => exact mutes_httpStatus bad throttled
  | firstBad code => exact .lit rfl (.num rfl .nil)
  | heads short => exact .lit rfl (.num rfl (.lit rfl .nil))
  | setup failed =>
    exact .lit rfl (.lit rfl (.num rfl (.lit rfl (.num rfl (.lit rfl (.num rfl (.lit rfl (.num rfl
      (.lit rfl (.num rfl (.lit rfl (.num rfl (.lit rfl .nil)))))))))))))
  | incomplete failed bad short bytes surplus =>
    exact .lit rfl (.num rfl (.lit rfl (.num rfl (.lit rfl (.num rfl (.lit rfl (.num rfl (.lit rfl
      (.either rfl rfl .nil)))))))))

/-! ## Lines with a text from outside -/

section Outside

variable {s : List Char}

theorem mem_quiet (hs : s ∈ cores) : s ∈ quiet := List.mem_cons_of_mem _ hs

theorem ne_nil_of_mem_cores (hs : s ∈ cores) : s ≠ [] := by
  rcases (LinuxS3.Entry.core_cases hs).2.2 with hmem | hmem
  · exact List.ne_nil_of_mem hmem
  · exact List.ne_nil_of_mem hmem

theorem free_of_plain {t : String} (ht : Plain t) (hs : s ∈ cores) : Free s t.toList := by
  obtain ⟨⟨s', hs', hpre⟩, -, -⟩ := LinuxS3.Entry.core_cases hs
  exact (ht.free s' hs').extend hpre.isInfix

/-- What is printed before the end of the line. -/
def benchFront (w c m : Nat) (https : Bool) (blocks chunk : Nat) : Line :=
  [.lit "bench: ", .num w, .lit " workers x ", .num c, .lit " conns x ", .num m,
    .lit " MiB block, tls_stub=", .lit "false", .lit " scheme=",
    .lit (if https then "https" else "http"), .lit " blocks=", .num blocks, .lit " chunk=",
    .num chunk]

theorem mutes_benchFront (w c m : Nat) (https : Bool) (blocks chunk : Nat) :
    Mutes quiet (benchFront w c m https blocks chunk) :=
  .lit rfl (.num rfl (.lit rfl (.num rfl (.lit rfl (.num rfl (.lit rfl (.lit rfl (.lit rfl
    (.either rfl rfl (.lit rfl (.num rfl (.lit rfl (.num rfl .nil)))))))))))))

theorem chars_bench (w c m : Nat) (https : Bool) (blocks chunk : Nat) :
    (bench w c m https blocks chunk).line.chars =
      (benchFront w c m https blocks chunk).chars ++ " stack=anyblob".toList := by
  show Line.chars (benchFront w c m https blocks chunk ++ [.lit " stack=anyblob"]) = _
  rw [LinuxS3.Line.chars_append, LinuxS3.Line.chars_cons, LinuxS3.Line.chars_nil, List.append_nil,
    LinuxS3.Piece.chars]

/-- The line's end is the beginning of a word, which does not go on. -/
theorem free_bench (w c m : Nat) (https : Bool) (blocks chunk : Nat) (hs : s ∈ cores) :
    Free s (bench w c m https blocks chunk).line.chars := by
  rw [chars_bench]
  refine free_append (mutes_benchFront w c m https blocks chunk s (mem_quiet hs)) ?_
  rcases (LinuxS3.Entry.core_cases hs).2.2 with hmark | hmark
  · exact free_of_not_mem hmark (by decide)
  · exact free_of_not_mem hmark (by decide)

theorem clear_address {ip : String} (hip : IsAddress ip) (hs : LinuxS3.wordlike s = true) :
    Clear s ip.toList := by
  obtain ⟨c, hc, hnot⟩ := (Option.any_eq_true _ _).mp hs
  obtain ⟨s, rfl⟩ := List.head?_eq_some_iff.mp hc
  rw [Bool.and_eq_true, Bool.not_eq_true', bne_iff_ne] at hnot
  refine Clear.of_head fun hmem => ?_
  rcases hip c hmem with hdigit | hpoint
  · rw [hnot.1] at hdigit
    cases hdigit
  · exact hnot.2 hpoint

/-- What is printed before the host. -/
def targetFront (ip : String) (port : Nat) : Line :=
  [.lit "target: ", .given ip, .lit ":", .num port, .lit " "]

theorem mutes_targetFront {ip : String} (hip : IsAddress ip) (port : Nat) :
    Mutes quiet (targetFront ip port) := by
  have hwords : quiet.all LinuxS3.wordlike = true := rfl
  have hgiven : Mutes quiet [.given ip] := fun s hs => by
    rw [LinuxS3.Line.chars_cons, LinuxS3.Line.chars_nil, List.append_nil, LinuxS3.Piece.chars]
    exact clear_address hip (List.all_eq_true.mp hwords s hs)
  have hrest : Mutes quiet [.lit ":", .num port, .lit " "] := .lit rfl (.num rfl (.lit rfl .nil))
  exact .lit rfl (.append hgiven hrest)

theorem chars_target (ip : String) (port : Nat) (host : String) :
    (target ip port host).line.chars = (targetFront ip port).chars ++ host.toList := by
  show Line.chars (targetFront ip port ++ [.given host]) = _
  rw [LinuxS3.Line.chars_append, LinuxS3.Line.chars_cons, LinuxS3.Line.chars_nil, List.append_nil,
    LinuxS3.Piece.chars]

/-- What is printed before a daemon's error. -/
def daemonFront (w : Nat) : Line := [.lit "FAIL: q", .num w, .lit ": daemon: "]

theorem mutes_daemonFront (w : Nat) : Mutes quiet (daemonFront w) :=
  .lit rfl (.num rfl (.lit rfl .nil))

theorem chars_daemon (w : Nat) (what : String) :
    (said (.daemon w what)).line.chars = (daemonFront w).chars ++ what.toList := by
  show Line.chars (daemonFront w ++ [.given what]) = _
  rw [LinuxS3.Line.chars_append, LinuxS3.Line.chars_cons, LinuxS3.Line.chars_nil, List.append_nil,
    LinuxS3.Piece.chars]

theorem chars_called (line : String) : (said (.called line)).line.chars = line.toList := by
  show Line.chars [.given line] = _
  rw [LinuxS3.Line.chars_cons, LinuxS3.Line.chars_nil, List.append_nil, LinuxS3.Piece.chars]

/-- **What a pattern looks for is in no line but those of linux-s3.** -/
theorem free_line {e : Entry} (he : e.Clean) (hboth : ∀ e', e ≠ both e') (hs : s ∈ cores) :
    Free s e.line.chars := by
  have hown : e.isOwn = true → Free s e.line.chars := fun h =>
    (mutes_line h s (mem_quiet hs)).free (ne_nil_of_mem_cores hs)
  cases e with
  | both e' => exact absurd rfl (hboth e')
  | bench w c m https blocks chunk => exact free_bench w c m https blocks chunk hs
  | target ip port host =>
    rw [chars_target]
    exact free_append (mutes_targetFront he.1 port s (mem_quiet hs)) (free_of_plain he.2 hs)
  | said x =>
    cases x with
    | called line =>
      rw [chars_called]
      exact free_of_plain he.2 hs
    | daemon w what =>
      rw [chars_daemon]
      exact free_append (mutes_daemonFront w s (mem_quiet hs)) (free_of_plain he hs)
  | _ => exact hown rfl

theorem newline_not_mem {e : Entry} (he : e.Clean) : '\n' ∉ e.line.chars := by
  have hn : ['\n'] ∈ quiet := List.mem_cons_self
  cases e with
  | both e' => exact LinuxS3.Entry.newline_not_mem he
  | bench w c m https blocks chunk =>
    rw [chars_bench]
    intro hmem
    rcases List.mem_append.mp hmem with hmem | hmem
    · exact (mutes_benchFront w c m https blocks chunk _ hn).not_mem hmem
    · exact absurd hmem (by decide)
  | target ip port host =>
    rw [chars_target]
    intro hmem
    rcases List.mem_append.mp hmem with hmem | hmem
    · exact (mutes_targetFront he.1 port _ hn).not_mem hmem
    · exact he.2.line hmem
  | said x =>
    cases x with
    | called line =>
      rw [chars_called]
      exact he.2.line
    | daemon w what =>
      rw [chars_daemon]
      intro hmem
      rcases List.mem_append.mp hmem with hmem | hmem
      · exact (mutes_daemonFront w _ hn).not_mem hmem
      · exact he.line hmem
  | _ => exact (mutes_line rfl _ hn).not_mem

end Outside

/-! ## Patterns on the lines of others -/

def isAggregate : Entry → Bool
  | both e => e.isAggregate
  | _ => false

def isTransfer : Entry → Bool
  | both e => e.isTransfer
  | _ => false

def isBlocks : Entry → Bool
  | both e => e.isBlocks
  | _ => false

/-- Only a line of linux-s3 has to be looked at. -/
theorem free_both {e : Entry} {s : List Char} (he : e.Clean) (hs : s ∈ cores)
    (hboth : ∀ e', e = both e' → Free s e.line.chars) : Free s e.line.chars := by
  by_cases h : ∃ e', e = both e'
  · obtain ⟨e', heq⟩ := h
    exact hboth e' heq
  · exact free_line he (not_exists.mp h) hs

theorem free_aggregate {e : Entry} (he : e.Clean) (h : e.isAggregate = false) :
    Free "AGGREGATE:".toList e.line.chars :=
  free_both he (.head _) fun _ heq => by
    subst heq
    exact LinuxS3.Entry.free_aggregate he h

theorem free_transfer {e : Entry} (he : e.Clean) (h : e.isTransfer = false) :
    Free "TRANSFER:".toList e.line.chars :=
  free_both he (.tail _ (.head _)) fun _ heq => by
    subst heq
    exact LinuxS3.Entry.free_transfer he h

theorem free_cpu {e : Entry} (he : e.Clean) : Free "CPU:".toList e.line.chars :=
  free_both he (.tail _ (.tail _ (.head _))) fun _ heq => by
    subst heq
    exact LinuxS3.Entry.free_cpu he

theorem free_running {e : Entry} (he : e.Clean) : Free "Instance running:".toList e.line.chars :=
  free_both he (.tail _ (.tail _ (.tail _ (.head _)))) fun _ heq => by
    subst heq
    exact LinuxS3.Entry.free_running he

theorem free_bytes {e : Entry} (he : e.Clean) (h : e.isBlocks = false) :
    Free "bytes)".toList e.line.chars :=
  free_both he (.tail _ (.tail _ (.tail _ (.tail _ (.head _))))) fun _ heq => by
    subst heq
    exact LinuxS3.Entry.free_bytes he h

/-! ## How a line begins -/

/-- So much of the line's first characters as tells it from others. -/
def opening : Entry → List Char
  | both (.transfer ..) => ['T', 'R']
  | both e => e.opening
  | bench .. => ['b', 'e']
  | target .. => ['t', 'a']
  | note .. => ['n']
  | pool .. => ['p', 'o']
  | said (.called _) => ['q']
  | said (.daemon ..) => ['F']
  | worker .. => ['w']
  | req .. => ['R']
  | cpu .. => ['C', 'P', 'U', ' ', 'S']
  | tail _ => ['T', 'A']
  | remark => [' ']
  | httpStatus .. => ['h']
  | firstBad _ => ['f']
  | heads _ => ['r']
  | setup _ => ['S']
  | incomplete .. => ['I']

theorem opening_stands {e : Entry} (he : e.Clean) (t : List Char) :
    e.opening <+: e.line.chars ++ '\n' :: t := by
  cases e with
  | both e' =>
    have hstands := LinuxS3.Entry.opening_stands e' t
    cases e' with
    | transfer => exact LinuxS3.Entry.prefix_lit
    | _ => exact hstands
  | said x =>
    cases x with
    | called line =>
      obtain ⟨rest, hrest⟩ := List.head?_eq_some_iff.mp he.1
      rw [chars_called, hrest]
      exact ⟨rest ++ '\n' :: t, rfl⟩
    | daemon w what => exact LinuxS3.Entry.prefix_lit
  | _ => exact LinuxS3.Entry.prefix_lit

/-- The line may begin with the word. -/
def begins (s : List Char) (e : Entry) : Bool := s.isPrefixOf e.opening || e.opening.isPrefixOf s

theorem begins_of_stands {s t : List Char} {e : Entry} (he : e.Clean)
    (h : s <+: e.line.chars ++ '\n' :: t) : begins s e = true := by
  rw [begins, Bool.or_eq_true]
  rcases List.prefix_or_prefix_of_prefix h (opening_stands he t) with hp | hp
  · exact Or.inl (List.isPrefixOf_iff_prefix.mpr hp)
  · exact Or.inr (List.isPrefixOf_iff_prefix.mpr hp)

/-- **A pattern for the start of a line passes over the lines that begin with something else.** -/
theorem skips_of_begins {e : Entry} (he : e.Clean) {r : Regex} {s : List Char} (hr : r.Anchored)
    (ho : Opens s r) (h : begins s e = false) : Skips r e.line.chars :=
  skips_of_anchored hr ho (newline_not_mem he) fun t hpre => by
    rw [begins_of_stands he hpre] at h
    cases h

/-! ## What a metric reads -/

open LinuxS3 (Follows Ends Figures figures_num figures_fixed figures_lit ends_digit ends_point
  ends_word hits_key hits_start hits_count hits_first hits_statistic hits_stats fixedChars)

variable (B : Builtins)

section Bench

variable (w c m : Nat) (https : Bool) (blocks chunk : Nat)

theorem clean_bench : (bench w c m https blocks chunk).Clean := trivial

theorem hits_tlsStub :
    Hits (.seqs [.bol, .text "bench:", anything, .text "tls_stub=", .group (letters B)])
      (bench w c m https blocks chunk).line.chars ["false".toList] := by
  have hl := newline_not_mem (clean_bench w c m https blocks chunk)
  have hfollows : Follows B.word "tls_stub=".toList (.lit "false")
      [.lit " scheme=", .lit (if https then "https" else "http"), .lit " blocks=", .num blocks,
        .lit " chunk=", .num chunk, .lit " stack=anyblob"] :=
    .of_mutes (figures_lit B (List.cons_ne_nil _ _) rfl) (ends_word B (by decide) rfl (by decide))
      (LinuxS3.clear_lit rfl)
      (.lit rfl (.either rfl rfl (.lit rfl (.num rfl (.lit rfl (.num rfl (.lit rfl .nil))))))) rfl
  exact hits_key [.num w, .lit " workers x ", .num c, .lit " conns x ", .num m]
    " MiB block, ".toList hl rfl hfollows

theorem hits_scheme :
    Hits (.seqs [.bol, .text "bench:", anything, .text "scheme=", .group (letters B)])
      (bench w c m https blocks chunk).line.chars
      [(if https then "https" else "http").toList] := by
  have hl := newline_not_mem (clean_bench w c m https blocks chunk)
  have hfigures : Figures B.word (.lit (if https then "https" else "http")) := by
    cases https with
    | true => exact figures_lit B (List.cons_ne_nil _ _) rfl
    | false => exact figures_lit B (List.cons_ne_nil _ _) rfl
  have hrest : Clear "scheme=".toList
      (Line.chars [.num blocks, .lit " chunk=", .num chunk, .lit " stack=anyblob"] ++ ['\n']) := by
    have hmutes : Mutes ["scheme=".toList]
        [.num blocks, .lit " chunk=", .num chunk, .lit " stack=anyblob"] :=
      .num rfl (.lit rfl (.num rfl (.lit rfl .nil)))
    exact Clear.append (hmutes _ (List.mem_singleton.mpr rfl)) (clear_of_clears rfl)
  have hclear : Clear "scheme=".toList
      ((Piece.lit (if https then "https" else "http")).chars ++ (Line.chars [.lit " blocks=",
        .num blocks, .lit " chunk=", .num chunk, .lit " stack=anyblob"] ++ ['\n'])) := by
    -- the last letter of the scheme may be the first of the key
    have hword : ∀ u : List Char, clears "scheme=".toList (u ++ " blocks=".toList) = true →
        Clear "scheme=".toList (u ++ (Line.chars [.lit " blocks=", .num blocks, .lit " chunk=",
          .num chunk, .lit " stack=anyblob"] ++ ['\n'])) := fun u hu => by
      have h := Clear.append (clear_of_clears hu) hrest
      rwa [List.append_assoc] at h
    cases https with
    | true => exact hword "https".toList rfl
    | false => exact hword "http".toList rfl
  have hfollows : Follows B.word "scheme=".toList (.lit (if https then "https" else "http"))
      [.lit " blocks=", .num blocks, .lit " chunk=", .num chunk, .lit " stack=anyblob"] :=
    ⟨hfigures, ends_word B (by decide) rfl (by decide), hclear⟩
  exact hits_key [.num w, .lit " workers x ", .num c, .lit " conns x ", .num m,
    .lit " MiB block, tls_stub=", .lit "false"] [' '] hl rfl hfollows

theorem hits_workers :
    Hits (.seqs [.bol, .text "bench: ", .group (digits B), .text " workers"])
      (bench w c m https blocks chunk).line.chars [Nat.toDigits 10 w] :=
  hits_start (figures_num B w) (ends_digit B (by decide) rfl)

end Bench

section Target

variable {ip : String} (hip : IsAddress ip) (hne : ip ≠ "") (port : Nat) (host : String)

theorem target_rest (ip : String) (port : Nat) (host : String) (t : List Char) :
    (target ip port host).line.chars ++ '\n' :: t =
      ['t', 'a', 'r', 'g', 'e', 't', ':', ' '] ++ (ip.toList ++ ([':'] ++
        (Nat.toDigits 10 port ++ ' ' :: (host.toList ++ '\n' :: t)))) := by
  show Line.chars [.lit (String.ofList ['t', 'a', 'r', 'g', 'e', 't', ':', ' ']), .given ip,
    .lit (String.ofList [':']), .num port, .lit (String.ofList [' ']), .given host] ++ _ = _
  simp only [LinuxS3.Line.chars_cons, LinuxS3.Line.chars_nil, LinuxS3.Piece.chars_lit,
    List.append_assoc, List.cons_append, List.nil_append]
  rfl

include hip hne

theorem hits_targetIp :
    Hits (.seqs [.bol, .text "target: ", .group (figure B), .text ":", digits B])
      (target ip port host).line.chars [ip.toList] := by
  show Hits (.seqs [.bol, .text (String.ofList ['t', 'a', 'r', 'g', 'e', 't', ':', ' ']),
    .group (.plus B.digitOrPoint), .text (String.ofList [':']), .plus B.digit]) _ _
  have hlist : ip.toList ≠ [] := fun h => hne (String.toList_eq_nil_iff.mp h)
  refine hits_of_start fun prev t hbol => ?_
  rw [target_rest]
  simp only [seqs, matchAt, run_seq, Regex.text, String.toList_ofList]
  refine Yields.bol hbol (Yields.lit fun _ => Yields.group_plus hlist
    (fun x hx => LinuxS3.digitOrPoint_of_isDigit B (hip x hx)) (LinuxS3.Entry.head_colon B _)
    fun _ => ?_)
  exact Yields.lit fun _ => Yields.plus (figures_num B port).ne (figures_num B port).all
    (LinuxS3.Entry.head_space B _) fun _ => ⟨_, rfl⟩

theorem hits_targetPort :
    Hits (.seqs [.bol, .text "target: ", figure B, .text ":", .group (digits B)])
      (target ip port host).line.chars [Nat.toDigits 10 port] := by
  show Hits (.seqs [.bol, .text (String.ofList ['t', 'a', 'r', 'g', 'e', 't', ':', ' ']),
    .plus B.digitOrPoint, .text (String.ofList [':']), .group (.plus B.digit)]) _ _
  have hlist : ip.toList ≠ [] := fun h => hne (String.toList_eq_nil_iff.mp h)
  refine hits_of_start fun prev t hbol => ?_
  rw [target_rest]
  simp only [seqs, matchAt, run_seq, Regex.text, String.toList_ofList]
  refine Yields.bol hbol (Yields.lit fun _ => Yields.plus hlist
    (fun x hx => LinuxS3.digitOrPoint_of_isDigit B (hip x hx)) (LinuxS3.Entry.head_colon B _)
    fun _ => ?_)
  exact Yields.lit fun _ => Yields.group_plus (figures_num B port).ne (figures_num B port).all
    (LinuxS3.Entry.head_space B _) fun _ => ⟨_, rfl⟩

end Target

section Counts

variable (n : Nat)

theorem hits_httpBad (throttled : Bool) :
    Hits (.seqs [.bol, .text "http status", blanks, .text ": ", .group (digits B),
        .text " non-206"])
      (httpStatus n throttled).line.chars [Nat.toDigits 10 n] :=
  hits_count (Or.inr rfl) 2 (figures_num B n) (ends_digit B (by decide) rfl)

theorem hits_hdrBad :
    Hits (.seqs [.bol, .text "response heads: ", .group (digits B), .text " did not match"])
      (heads n).line.chars [Nat.toDigits 10 n] :=
  hits_start (figures_num B n) (ends_digit B (by decide) rfl)

theorem hits_setupConns :
    Hits (.seqs [.bol, .text "SETUP STATS", Runner.blank, .text ": conns=", .group (digits B)])
      (setup n).line.chars [['0']] :=
  hits_first (q := .num 0) (Or.inl rfl) 2 (figures_num B 0) (ends_digit B (by decide) rfl)

theorem hits_setupStat {key : List Char} {m : Nat}
    (h : (key, m) ∈ LinuxS3.Entry.setupStats ⟨0, 0, 0, 0, 0⟩ n) :
    Hits (statistic "SETUP STATS" (String.ofList key) (digits B)) (setup n).line.chars
      [Nat.toDigits 10 m] := by
  have hl := newline_not_mem (e := setup n) trivial
  have hkeys : LinuxS3.Keys ((LinuxS3.Entry.setupStats ⟨0, 0, 0, 0, 0⟩ n).map Prod.fst)
      [.lit " (handshakes happen inside the library; not timed)"] := by
    show LinuxS3.Keys (['f', 'a', 'i', 'l', 'e', 'd', '='] :: LinuxS3.Entry.usKeys) _
    refine ⟨by decide, by decide, ?_⟩
    simp only [LinuxS3.Entry.usKeys, List.forall_mem_cons, List.not_mem_nil, false_implies,
      implies_true, and_true]
    exact ⟨.lit rfl .nil, .lit rfl .nil, .lit rfl .nil, .lit rfl .nil, .lit rfl .nil⟩
  refine hits_stats B 2 [.num 0] (LinuxS3.Entry.setupStats ⟨0, 0, 0, 0, 0⟩ n)
    [.lit " (handshakes happen inside the library; not timed)"] ?_ hkeys
    (ends_digit B (by decide) rfl) h
  exact hl

end Counts

section Requests

variable (ttfb wire : Dist)

def reqKeys : List (List Char) :=
  ["ttfb_us_avg=".toList, "ttfb_us_p50=".toList, "wire_us_avg=".toList, "wire_us_p50=".toList,
    "wire_us_p90=".toList, "wire_us_p99=".toList, "wire_us_max=".toList]

/-- The figures of the requests, with their keys. -/
def reqStats : List (List Char × Nat) :=
  reqKeys.zip [ttfb.avg.toNat, ttfb.p50.toNat, wire.avg.toNat, wire.p50.toNat, wire.p90.toNat,
    wire.p99.toNat, wire.max.toNat]

theorem hits_reqStat {key : List Char} {m : Nat} (h : (key, m) ∈ reqStats ttfb wire) :
    Hits (statistic "REQ STATS" (String.ofList key) (digits B)) (req ttfb wire).line.chars
      [Nat.toDigits 10 m] := by
  have hl := newline_not_mem (e := req ttfb wire) trivial
  have hkeys : LinuxS3.Keys ((reqStats ttfb wire).map Prod.fst) [] := by
    show LinuxS3.Keys reqKeys []
    exact ⟨by decide, by decide, fun a ha => .nil⟩
  have hend : Ends B.digit [] := .nil (LinuxS3.digit_eq_false B (by decide) rfl)
  refine hits_stats B 4 [.num wire.n.toNat] (reqStats ttfb wire) [] ?_ hkeys hend h
  exact hl

end Requests

section Times

variable (user sys total cores seconds rate idle : Nat)

theorem hits_user :
    Hits (.seqs [.bol, .text "CPU STATS", Runner.blank, .text ": user_s=", .group (figure B)])
      (cpu user sys total cores seconds rate).line.chars [fixedChars 2 user] :=
  hits_first (Or.inl rfl) 4 (figures_fixed B 2 user) (ends_point B (by decide) rfl (by decide))

theorem hits_sys :
    Hits (statistic "CPU STATS" "sys_s=" (figure B))
      (cpu user sys total cores seconds rate).line.chars [fixedChars 2 sys] := by
  have hl := newline_not_mem (e := cpu user sys total cores seconds rate) trivial
  refine hits_statistic 4 [.fixed 2 user] [' '] hl rfl (.of_mutes (figures_fixed B 2 sys)
    (ends_point B (by decide) rfl (by decide)) (LinuxS3.clear_number rfl rfl) ?_ rfl)
  exact .lit rfl (.fixed rfl (.lit rfl (.fixed rfl (.lit rfl (.fixed rfl (.lit rfl (.fixed rfl
    (.lit rfl .nil))))))))

theorem hits_cpuTotal :
    Hits (statistic "CPU STATS" "total_s=" (figure B))
      (cpu user sys total cores seconds rate).line.chars [fixedChars 2 total] := by
  have hl := newline_not_mem (e := cpu user sys total cores seconds rate) trivial
  refine hits_statistic 4 [.fixed 2 user, .lit " sys_s=", .fixed 2 sys] [' '] hl rfl
    (.of_mutes (figures_fixed B 2 total) (ends_point B (by decide) rfl (by decide))
      (LinuxS3.clear_number rfl rfl) ?_ rfl)
  exact .lit rfl (.fixed rfl (.lit rfl (.fixed rfl (.lit rfl (.fixed rfl (.lit rfl .nil))))))

theorem hits_cores :
    Hits (statistic "CPU STATS" "cores_avg=" (figure B))
      (cpu user sys total cores seconds rate).line.chars [fixedChars 2 cores] := by
  have hl := newline_not_mem (e := cpu user sys total cores seconds rate) trivial
  refine hits_statistic 4 [.fixed 2 user, .lit " sys_s=", .fixed 2 sys, .lit " total_s=",
    .fixed 2 total] [' '] hl rfl (.of_mutes (figures_fixed B 2 cores)
      (ends_point B (by decide) rfl (by decide)) (LinuxS3.clear_number rfl rfl) ?_ rfl)
  exact .lit rfl (.fixed rfl (.lit rfl (.fixed rfl (.lit rfl .nil))))

theorem hits_tailMax :
    Hits (.seqs [.bol, .text "TAIL STATS", Runner.blank, .text ": idle_max_ms=",
        .group (figure B)])
      (tail idle).line.chars [fixedChars 1 idle] :=
  hits_first (Or.inl rfl) 3 (figures_fixed B 1 idle) (ends_point B (by decide) rfl (by decide))

theorem hits_tailAvg :
    Hits (statistic "TAIL STATS" "idle_avg_ms=" (figure B)) (tail idle).line.chars
      [fixedChars 1 idle] := by
  have hl := newline_not_mem (e := tail idle) trivial
  have hpoint : B.digitOrPoint '\n' = false :=
    LinuxS3.digitOrPoint_eq_false B (by decide) rfl (by decide)
  exact hits_statistic 3 [.fixed 1 idle] [' '] hl rfl (.of_mutes (figures_fixed B 1 idle)
    (.nil hpoint) (LinuxS3.clear_number rfl rfl) .nil rfl)

/-- No figure stands after the blank. -/
theorem run_blank_eq_none {p : Char → Bool} {l : List Char} {prev : Option Char} {g : Groups}
    {k : Cont} (h : ∀ c l', l = ' ' :: c :: l' → p c = false) :
    run (.lit [' ']) ⟨prev, l⟩ g (fun c g => run (.group (.plus p)) c g k) = none := by
  by_contra hne
  obtain ⟨l₁, prev₁, rfl, hrest⟩ := run_lit_split hne
  rw [run_group] at hrest
  obtain ⟨d, l₂, prev₂, rfl, hd, hall, -⟩ := run_plus_split hrest
  obtain ⟨x, d, rfl⟩ := List.exists_cons_of_ne_nil hd
  have hx := h x (d ++ l₂) rfl
  rw [hall x List.mem_cons_self] at hx
  cases hx

/-- After a blank of the text comes a letter. -/
def lettered (u : List Char) : Bool :=
  u.head? != some ' ' ||
    u.tail.head?.any fun c => decide (c.toNat < 128) && !c.isDigit && c != '.'

theorem digitOrPoint_of_lettered {u l l' : List Char} {c x : Char} (hu : lettered u = true)
    (hx : x ≠ ' ') (h : u ++ x :: l = ' ' :: c :: l') : B.digitOrPoint c = false := by
  cases u with
  | nil => exact absurd (List.cons.inj h).1 hx
  | cons y u =>
    obtain ⟨rfl, htail⟩ := List.cons.inj h
    rw [lettered, List.head?_cons, bne_self_eq_false, Bool.false_or, List.tail_cons] at hu
    obtain ⟨z, hz, hletter⟩ := (Option.any_eq_true _ _).mp hu
    obtain ⟨u, rfl⟩ := List.head?_eq_some_iff.mp hz
    obtain ⟨rfl, -⟩ := List.cons.inj htail
    rw [Bool.and_eq_true, Bool.and_eq_true, decide_eq_true_eq, Bool.not_eq_true', bne_iff_ne]
      at hletter
    exact LinuxS3.digitOrPoint_eq_false B hletter.1.1 hletter.1.2 hletter.2

variable {q : LinuxS3.Piece} {label v e z : List Char}

/-- Behind the blank before the figure, no other one is before a figure. -/
theorem digitOrPoint_after_blank {b₁ b₂ t l' : List Char} {c : Char}
    (hq : Figures B.digitOrPoint q) (he : e.tails.all lettered = true)
    (hb : q.chars ++ e = b₁ ++ b₂) (h : b₂ ++ '\n' :: t = ' ' :: c :: l') :
    B.digitOrPoint c = false := by
  rcases List.append_eq_append_iff.mp hb with ⟨m, -, hm⟩ | ⟨m, hm, rfl⟩
  · have hmem : b₂ ∈ e.tails := (List.mem_tails _ _).mpr ⟨m, hm.symm⟩
    exact digitOrPoint_of_lettered B (List.all_eq_true.mp he b₂ hmem) (by decide) h
  · cases m with
    | nil =>
      have hmem : e ∈ e.tails := (List.mem_tails _ _).mpr (List.suffix_refl e)
      exact digitOrPoint_of_lettered B (List.all_eq_true.mp he e hmem) (by decide) h
    | cons x m =>
      -- no figure has a blank
      obtain ⟨rfl, -⟩ := List.cons.inj h
      have hfigure := hq.all ' ' (by rw [hm]; simp)
      rw [LinuxS3.digitOrPoint_eq_false B (by decide) rfl (by decide)] at hfigure
      cases hfigure

/-- `^label.* (figure)end` -/
theorem hits_gap (before : Line) (u : List Char) (hl : '\n' ∉ Line.chars
      (.lit (String.ofList (label ++ v)) ::
      (before ++ [.lit (String.ofList (u ++ [' '])), q, .lit (String.ofList (e ++ z))])))
    (hq : Figures B.digitOrPoint q) (he : (e ++ z).tails.all lettered = true)
    (hafter : Ends B.digitOrPoint [.lit (String.ofList (e ++ z))]) :
    Hits (.seqs [.bol, .text (String.ofList label), anything, .text (String.ofList [' ']),
        .group (figure B), .text (String.ofList e)])
      (Line.chars (.lit (String.ofList (label ++ v)) ::
        (before ++ [.lit (String.ofList (u ++ [' '])), q, .lit (String.ofList (e ++ z))])))
      [q.chars] := by
  simp only [LinuxS3.Line.chars_cons, LinuxS3.Line.chars_append, LinuxS3.Line.chars_nil,
    LinuxS3.Piece.chars_lit, List.append_nil] at hl ⊢
  refine hits_of_start fun prev t hbol => ?_
  have htext : label ++ v ++ (before.chars ++ (u ++ [' '] ++ (q.chars ++ (e ++ z)))) ++ '\n' :: t =
      label ++ ((v ++ (before.chars ++ u)) ++ ((' ' :: (q.chars ++ (e ++ z))) ++ '\n' :: t)) := by
    simp
  have hdot : ∀ x ∈ (v ++ (before.chars ++ u)) ++ (' ' :: (q.chars ++ (e ++ z))), dot x = true :=
    fun x hx => by
      refine bne_iff_ne.mpr fun he => hl ?_
      rw [he] at hx
      simp only [List.mem_append, List.mem_cons, List.not_mem_nil, or_false] at hx ⊢
      tauto
  have hline : dot '\n' = false := rfl
  rw [htext]
  simp only [seqs, matchAt, run_seq, Regex.text, String.toList_ofList]
  refine Yields.bol hbol (Yields.lit fun _ => Yields.back
    (fun x hx => hdot x (List.mem_append_left _ hx))
    (fun x hx => hdot x (List.mem_append_right _ hx))
    (fun x hx => Option.some_inj.mp hx ▸ hline) (fun prev' b₁ b₂ hb hne => ?_) fun _ => ?_)
  · obtain ⟨x, b₁, rfl⟩ := List.exists_cons_of_ne_nil hne
    exact run_blank_eq_none fun c l' h =>
      digitOrPoint_after_blank B hq he (List.cons.inj hb).2 h
  · have hsplit : (' ' :: (q.chars ++ (e ++ z))) ++ '\n' :: t =
        [' '] ++ (q.chars ++ (e ++ (z ++ (Line.chars [] ++ '\n' :: t)))) := by simp
    rw [hsplit]
    exact Yields.lit fun _ => LinuxS3.Yields.figure_end hq hafter

theorem hits_pool (n mib : Nat) :
    Hits (.seqs [.bol, .text "pool: ", anything, .text " ", .group (figure B),
        .text " s to allocate"])
      (pool n mib seconds).line.chars [fixedChars 2 seconds] := by
  have hl := newline_not_mem (e := pool n mib seconds) trivial
  exact hits_gap B [.num n, .lit " buffers x ", .num mib] [' ', 'M', 'i', 'B', ','] hl
    (figures_fixed B 2 seconds) rfl (ends_point B (by decide) rfl (by decide))

end Times

end Entry

end AnyBlob
