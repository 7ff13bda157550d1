import MiniosvCtrl.Infra.Python
import MiniosvCtrl.Infra.Search
import MiniosvCtrl.LinuxS3.Summary

/-!
# The lines of linux-s3, as a search sees them

A pattern that begins with a word of its own is looked for in every line that is printed before.
Which words do not begin in a line is read off its pieces: no number has them, and the errors and
the host are as `Plain` and `IsHost` say.

* `Mutes` — words that do not begin in a line
* `Entry.absent`, `mutes_line` — those of each line without a text from outside
* `Fail.free_line`, `free_target` — the others
* `Entry.opening` — how a line begins
-/

namespace LinuxS3

open Infra Infra.Regex

/-! ## Pieces -/

/-- Numbers, with or without a point. -/
def Piece.isNumber : Piece → Bool
  | num _ | fixed _ _ => true
  | _ => false

theorem isDigit_of_mem_fixedChars {places units : Nat} {c : Char}
    (h : c ∈ fixedChars places units) : c.isDigit = true ∨ c = '.' := by
  rcases List.mem_append.mp h with h | h
  · exact Or.inl (Builtins.isDigit_of_mem_toDigits h)
  · rcases List.mem_cons.mp h with h | h
    · exact Or.inr h
    · rcases List.mem_append.mp h with h | h
      · rw [List.eq_of_mem_replicate h]
        exact Or.inl rfl
      · exact Or.inl (Builtins.isDigit_of_mem_toDigits h)

theorem fixedChars_ne_nil (places units : Nat) : fixedChars places units ≠ [] :=
  List.append_ne_nil_of_left_ne_nil Nat.toDigits_ne_nil _

theorem Piece.isDigit_of_isNumber {p : Piece} (h : p.isNumber = true) :
    ∀ c ∈ p.chars, c.isDigit = true ∨ c = '.' := by
  cases p with
  | num n => exact fun c hc => Or.inl (Builtins.isDigit_of_mem_toDigits hc)
  | fixed places units => exact fun c hc => isDigit_of_mem_fixedChars hc
  | lit s => cases h
  | given s => cases h

@[simp] theorem Piece.chars_lit (u : List Char) : (lit (String.ofList u)).chars = u :=
  String.toList_ofList

@[simp] theorem Line.chars_nil : Line.chars [] = [] := rfl

@[simp] theorem Line.chars_cons (p : Piece) (l : Line) :
    Line.chars (p :: l) = p.chars ++ Line.chars l := rfl

@[simp] theorem Line.chars_append (l l' : Line) :
    Line.chars (l ++ l') = Line.chars l ++ Line.chars l' := List.flatMap_append

/-! ## Words that do not begin in a line -/

/-- No number has the first character of the word. -/
def wordlike (s : List Char) : Bool := s.head?.any fun c => !c.isDigit && c != '.'

theorem clear_number {s : List Char} {p : Piece} (hs : wordlike s = true)
    (hp : p.isNumber = true) : Clear s p.chars := by
  obtain ⟨c, hc, hnot⟩ := (Option.any_eq_true _ _).mp hs
  obtain ⟨s, rfl⟩ := List.head?_eq_some_iff.mp hc
  rw [Bool.and_eq_true, Bool.not_eq_true', bne_iff_ne] at hnot
  refine Clear.of_head fun hmem => ?_
  rcases Piece.isDigit_of_isNumber hp c hmem with hdigit | hpoint
  · rw [hnot.1] at hdigit
    cases hdigit
  · exact hnot.2 hpoint

theorem clear_lit {s u : List Char} (h : clears s u = true) :
    Clear s (Piece.lit (String.ofList u)).chars := by
  rw [Piece.chars_lit]
  exact clear_of_clears h

/-- None of the words begins in the line. -/
def Mutes (ws : List (List Char)) (l : Line) : Prop := ∀ s ∈ ws, Clear s l.chars

namespace Mutes

variable {ws : List (List Char)} {l l' : Line} {u v : List Char}

theorem nil : Mutes ws [] := fun _ _ => Clear.nil

theorem append (h : Mutes ws l) (h' : Mutes ws l') : Mutes ws (l ++ l') := by
  intro s hs
  rw [Line.chars_append]
  exact Clear.append (h s hs) (h' s hs)

theorem lit (h : ws.all (fun s => clears s u) = true) (hl : Mutes ws l) :
    Mutes ws (.lit (String.ofList u) :: l) := by
  intro s hs
  rw [Line.chars_cons]
  exact Clear.append (clear_lit (List.all_eq_true.mp h s hs)) (hl s hs)

theorem either {c : Prop} [Decidable c] (hu : ws.all (fun s => clears s u) = true)
    (hv : ws.all (fun s => clears s v) = true) (hl : Mutes ws l) :
    Mutes ws (.lit (if c then String.ofList u else String.ofList v) :: l) := by
  by_cases hc : c
  · rw [if_pos hc]
    exact lit hu hl
  · rw [if_neg hc]
    exact lit hv hl

theorem number {p : Piece} (hp : p.isNumber = true) (hw : ws.all wordlike = true)
    (hl : Mutes ws l) : Mutes ws (p :: l) := by
  intro s hs
  rw [Line.chars_cons]
  exact Clear.append (clear_number (List.all_eq_true.mp hw s hs) hp) (hl s hs)

theorem num {n : Nat} (hw : ws.all wordlike = true) (hl : Mutes ws l) : Mutes ws (.num n :: l) :=
  number rfl hw hl

theorem fixed {places units : Nat} (hw : ws.all wordlike = true) (hl : Mutes ws l) :
    Mutes ws (.fixed places units :: l) := number rfl hw hl

theorem option {o : Option Nat} (hw : ws.all wordlike = true)
    (hsome : ws.all (fun s => clears s ['S', 'o', 'm', 'e', '(']) = true)
    (hclose : ws.all (fun s => clears s [')']) = true)
    (hnone : ws.all (fun s => clears s ['N', 'o', 'n', 'e']) = true) :
    Mutes ws (optionPieces o) := by
  cases o with
  | none => exact lit hnone nil
  | some n => exact lit hsome (num hw (lit hclose nil))

end Mutes

/-! ## The lines without a text from outside -/

namespace Entry

/-- Words that patterns begin or end with, and that do not begin in the line. -/
def absent : Entry → List (List Char)
  | aggregate .. => [['\n'], ['T', 'R'], ['C', 'P'], ['I', 'n'], ['b', 'y', 't', 'e', 's', ')']]
  | transfer .. => [['\n'], ['A', 'G'], ['C', 'P'], ['I', 'n'], ['b', 'y', 't', 'e', 's', ')']]
  | blocks .. => [['\n'], ['A', 'G'], ['T', 'R'], ['C', 'P'], ['I', 'n']]
  | fail _ | target .. => []
  | _ => [['\n'], ['A', 'G'], ['T', 'R'], ['C', 'P'], ['I', 'n'], ['b', 'y', 't', 'e', 's', ')']]

theorem mutes_note (mode : Mode) (t : Tuning) (cores : Nat) :
    Mutes (note mode t cores).absent (note mode t cores).line := by
  have hmode : Mutes (note mode t cores).absent [.lit mode.text] := by
    cases mode with
    | stock => exact .lit rfl .nil
    | capped => exact .lit rfl .nil
    | parity => exact .lit rfl .nil
    | nogro => exact .lit rfl .nil
    | nogro1500 => exact .lit rfl .nil
  have hoption : ∀ o, Mutes (note mode t cores).absent (optionPieces o) := fun o =>
    .option rfl rfl rfl rfl
  refine .append (.append (.append (.append (.append (.append (.lit rfl ?_) (hoption _))
    (.lit rfl .nil)) (hoption _)) (.lit rfl .nil)) (hoption _))
    (.lit rfl (.either rfl rfl (.lit rfl (.num rfl .nil))))
  exact .append hmode (.lit rfl .nil)

/-- One case for each line: its literals are looked through, and no number has a word. -/
theorem mutes_line (e : Entry) : Mutes e.absent e.line := by
  cases e with
  | ignored => exact .lit rfl .nil
  | bench w c m stub plain =>
    exact .lit rfl (.num rfl (.lit rfl (.num rfl (.lit rfl (.num rfl (.lit rfl (.either rfl rfl
      (.lit rfl (.either rfl rfl .nil)))))))))
  | target => exact fun s hs => absurd hs List.not_mem_nil
  | note mode t cores => exact mutes_note mode t cores
  | fail f => exact fun s hs => absurd hs List.not_mem_nil
  | unclean w port received expected =>
    exact .lit rfl (.num rfl (.lit rfl (.num rfl (.lit rfl (.num rfl (.lit rfl (.num rfl
      (.lit rfl .nil))))))))
  | more n => exact .lit rfl (.num rfl (.lit rfl .nil))
  | worker w bytes seconds rate =>
    exact .lit rfl (.num rfl (.lit rfl (.num rfl (.lit rfl (.num rfl (.lit rfl (.fixed rfl
      (.lit rfl (.fixed rfl (.lit rfl .nil))))))))))
  | blank => exact .nil
  | aggregate mib seconds rate gbps =>
    exact .lit rfl (.fixed rfl (.lit rfl (.fixed rfl (.lit rfl (.fixed rfl (.lit rfl (.fixed rfl
      (.lit rfl .nil))))))))
  | transfer mib seconds rate gbps longest =>
    exact .lit rfl (.fixed rfl (.lit rfl (.fixed rfl (.lit rfl (.fixed rfl (.lit rfl (.fixed rfl
      (.lit rfl (.fixed rfl (.lit rfl .nil))))))))))
  | noIface => exact .lit rfl .nil
  | wire gbps bytes => exact .lit rfl (.fixed rfl (.lit rfl (.num rfl (.lit rfl .nil))))
  | steady gbps start stop bytes =>
    exact .lit rfl (.fixed rfl (.lit rfl (.fixed rfl (.lit rfl (.fixed rfl (.lit rfl (.num rfl
      (.lit rfl .nil))))))))
  | noWindow => exact .lit rfl .nil
  | peak gbps => exact .lit rfl (.fixed rfl (.lit rfl .nil))
  | connections clean total failed =>
    exact .lit rfl (.num rfl (.lit rfl (.num rfl (.lit rfl (.num rfl (.lit rfl .nil))))))
  | misrouted => exact .lit rfl .nil
  | drops => exact .lit rfl .nil
  | setup d failed =>
    exact .lit rfl (.lit rfl (.num rfl (.lit rfl (.num rfl (.lit rfl (.num rfl (.lit rfl (.num rfl
      (.lit rfl (.num rfl (.lit rfl (.num rfl .nil))))))))))))
  | dial d =>
    exact .lit rfl (.lit rfl (.num rfl (.lit rfl (.num rfl (.lit rfl (.num rfl (.lit rfl (.num rfl
      (.lit rfl (.num rfl (.lit rfl (.lit rfl .nil))))))))))))
  | blocks total planned mib requested =>
    exact .lit rfl (.num rfl (.lit rfl (.num rfl (.lit rfl (.num rfl (.lit rfl (.num rfl
      (.lit rfl .nil))))))))
  | ciphertext bytes negative overhead =>
    exact .lit rfl (.num rfl (.lit rfl (.either rfl rfl (.fixed rfl (.lit rfl .nil)))))
  | body bytes => exact .lit rfl (.num rfl (.lit rfl .nil))
  | fetched n => exact .lit rfl (.num rfl (.lit rfl .nil))
  | exact bytes => exact .lit rfl (.num rfl (.lit rfl .nil))
  | incomplete abandoned unrequested bytes surplus =>
    exact .lit rfl (.num rfl (.lit rfl (.num rfl (.lit rfl (.num rfl (.lit rfl
      (.either rfl rfl .nil)))))))

end Entry

/-! ## The lines with a text from outside -/

/-- Words that patterns begin or end with. -/
def words : List (List Char) :=
  ["AGGREGATE:".toList, "TRANSFER:".toList, "CPU:".toList, "Instance".toList, "bytes".toList]

/-- How they begin. -/
def heads : List (List Char) := [['A', 'G'], ['T', 'R'], ['C', 'P'], ['I', 'n'], ['b', 'y']]

theorem exists_head {s : List Char} (hs : s ∈ words) : ∃ s' ∈ heads, s' <+: s := by
  simp only [words, List.mem_cons, List.not_mem_nil, or_false] at hs
  rcases hs with rfl | rfl | rfl | rfl | rfl
  · exact ⟨['A', 'G'], by decide, ⟨_, rfl⟩⟩
  · exact ⟨['T', 'R'], by decide, ⟨_, rfl⟩⟩
  · exact ⟨['C', 'P'], by decide, ⟨_, rfl⟩⟩
  · exact ⟨['I', 'n'], by decide, ⟨_, rfl⟩⟩
  · exact ⟨['b', 'y'], by decide, ⟨_, rfl⟩⟩

theorem ne_nil_of_mem_words {s : List Char} (hs : s ∈ words) : s ≠ [] := by
  obtain ⟨s', hs', hpre⟩ := exists_head hs
  rintro rfl
  rw [List.prefix_nil.mp hpre] at hs'
  exact absurd hs' (by decide)

theorem not_mem_words {s : List Char} (hs : s ∈ words) : ' ' ∉ s ∧ ')' ∉ s := by
  have hall : words.all (fun s => !s.contains ' ' && !s.contains ')') = true := rfl
  have h := List.all_eq_true.mp hall s hs
  rw [Bool.and_eq_true, Bool.not_eq_true', Bool.not_eq_true'] at h
  exact ⟨fun hmem => by simp [hmem] at h, fun hmem => by simp [hmem] at h⟩

/-- A message of the operating system: one line, in which no pattern's word occurs. -/
structure Plain (e : String) : Prop where
  line : '\n' ∉ e.toList
  free : ∀ s ∈ words, Free s e.toList

/-- A DNS name. -/
def IsHost (s : String) : Prop := ∀ c ∈ s.toList, c.isAlphanum = true ∨ c ∈ ['-', '.', '_']

namespace Fail

/-- What stands before the error. -/
def front : Fail → Line
  | setaffinity w _ => [.lit "FAIL: worker ", .num w, .lit ": sched_setaffinity: "]
  | rustlsNew _ => [.lit "FAIL: rustls new: "]
  | syn w _ =>
    [.lit "FAIL: q", .num w, .lit " SYN timeout on port ? after ", .num 5000,
      .lit " ms — no SYN-ACK ("]
  | rcvbuf w _ => [.lit "FAIL: q", .num w, .lit ": SO_RCVBUF: "]
  | busyPoll w _ => [.lit "FAIL: q", .num w, .lit ": SO_BUSY_POLL: "]
  | write w _ => [.lit "FAIL: q", .num w, .lit ": write: "]
  | read w _ => [.lit "FAIL: q", .num w, .lit ": read: "]
  | tls _ => [.lit "FAIL: tls: "]
  | tlsRecord _ => [.lit "FAIL: tls record: "]
  | tlsEncode _ => [.lit "FAIL: tls encode: "]
  | tlsEncrypt _ => [.lit "FAIL: tls encrypt: "]

/-- What stands after it. -/
def back : Fail → Line
  | syn .. => [.lit ")"]
  | busyPoll .. => [.lit " (falling back to sysctl)"]
  | _ => []

theorem line_eq (f : Fail) : f.line = f.front ++ .given f.error :: f.back := by
  cases f <;> rfl

theorem mutes_front (f : Fail) : Mutes (['\n'] :: heads) f.front := by
  cases f with
  | setaffinity | rcvbuf | busyPoll | write | read =>
    exact .lit rfl (.num rfl (.lit rfl .nil))
  | syn => exact .lit rfl (.num rfl (.lit rfl (.num rfl (.lit rfl .nil))))
  | rustlsNew | tls | tlsRecord | tlsEncode | tlsEncrypt => exact .lit rfl .nil

/-- What follows an error is no part of a word. -/
theorem back_cases (f : Fail) :
    f.back = [] ∨ ∃ c u, (c = ' ' ∨ c = ')') ∧ f.back = [.lit (String.ofList (c :: u))] ∧
      (['\n'] :: heads).all (fun s => clears s (c :: u)) = true := by
  cases f with
  | syn => exact Or.inr ⟨')', [], Or.inr rfl, rfl, rfl⟩
  | busyPoll => exact Or.inr ⟨' ', _, Or.inl rfl, rfl, rfl⟩
  | _ => exact Or.inl rfl

/-- **A word that an error does not have is not in its line.** -/
theorem free_line {f : Fail} {s : List Char} (hs : s ∈ words) (hf : Plain f.error) :
    Free s f.line.chars := by
  obtain ⟨s', hhead, hpre⟩ := exists_head hs
  have hs' : s' ∈ ['\n'] :: heads := List.mem_cons_of_mem _ hhead
  have hne := ne_nil_of_mem_words hs
  rw [line_eq, Line.chars_append, Line.chars_cons]
  -- the word does not begin before the error, and does not reach over what follows it
  refine free_append ((mutes_front f s' hs').longer hpre) ?_
  rcases back_cases f with hback | ⟨c, u, hc, hback, hclears⟩
  · rw [hback, Line.chars_nil, List.append_nil]
    exact hf.free s hs
  · have hclear := (clear_of_clears (List.all_eq_true.mp hclears s' hs')).longer hpre
    rw [hback, Line.chars_cons, Line.chars_nil, List.append_nil, Piece.chars_lit]
    refine free_append_cons (fun hmem => ?_) (hf.free s hs)
      ((hclear.free hne).part (List.suffix_cons c u).isInfix)
    rcases hc with rfl | rfl
    · exact (not_mem_words hs).1 hmem
    · exact (not_mem_words hs).2 hmem

theorem newline_not_mem {f : Fail} (hf : Plain f.error) : '\n' ∉ f.line.chars := by
  have hn : ['\n'] ∈ ['\n'] :: heads := List.mem_cons_self
  rw [line_eq, Line.chars_append, Line.chars_cons]
  intro hmem
  rcases List.mem_append.mp hmem with hmem | hmem
  · exact (mutes_front f _ hn).not_mem hmem
  · rcases List.mem_append.mp hmem with hmem | hmem
    · exact hf.line hmem
    · rcases back_cases f with hback | ⟨c, u, -, hback, hclears⟩
      · rw [hback] at hmem
        exact absurd hmem List.not_mem_nil
      · rw [hback, Line.chars_cons, Line.chars_nil, List.append_nil, Piece.chars,
          String.toList_ofList] at hmem
        exact (clear_of_clears (List.all_eq_true.mp hclears _ hn)).not_mem hmem

end Fail

namespace Entry

/-- What is printed before the host. -/
def targetFront (a b c d port : Nat) : Line :=
  [.lit "target: ", .num a, .lit ".", .num b, .lit ".", .num c, .lit ".", .num d, .lit ":",
    .num port, .lit " "]

theorem mutes_targetFront (a b c d port : Nat) :
    Mutes (['\n'] :: heads) (targetFront a b c d port) :=
  .lit rfl (.num rfl (.lit rfl (.num rfl (.lit rfl (.num rfl (.lit rfl (.num rfl (.lit rfl (.num rfl
    (.lit rfl .nil))))))))))

theorem chars_target (a b c d port : Nat) (host : String) :
    (target a b c d port host).line.chars =
      (targetFront a b c d port).chars ++ host.toList := by
  show Line.chars (targetFront a b c d port ++ [.given host]) = _
  rw [Line.chars_append, Line.chars_cons, Line.chars_nil, List.append_nil, Piece.chars]

/-- The text from outside that the line has is as it should be. -/
def Clean : Entry → Prop
  | fail f => Plain f.error
  | target _ _ _ _ _ host => IsHost host
  | _ => True

/-- Whether there is such a text. -/
def isOutside : Entry → Bool
  | fail _ | target .. => true
  | _ => false

/-- What the patterns look for, as far as it tells a line from the others. -/
def cores : List (List Char) :=
  ["AGGREGATE:".toList, "TRANSFER:".toList, "CPU:".toList, "Instance running:".toList,
    "bytes)".toList]

theorem core_cases {s : List Char} (hs : s ∈ cores) : (∃ s' ∈ words, s' <+: s) ∧
    (∃ s' ∈ heads, s' <+: s) ∧ (':' ∈ s ∨ ')' ∈ s) := by
  simp only [cores, List.mem_cons, List.not_mem_nil, or_false] at hs
  rcases hs with rfl | rfl | rfl | rfl | rfl
  · exact ⟨⟨_, .head _, List.prefix_rfl⟩, ⟨['A', 'G'], by decide, ⟨_, rfl⟩⟩, Or.inl (by decide)⟩
  · exact ⟨⟨_, .tail _ (.head _), List.prefix_rfl⟩, ⟨['T', 'R'], by decide, ⟨_, rfl⟩⟩,
      Or.inl (by decide)⟩
  · exact ⟨⟨_, .tail _ (.tail _ (.head _)), List.prefix_rfl⟩, ⟨['C', 'P'], by decide, ⟨_, rfl⟩⟩,
      Or.inl (by decide)⟩
  · exact ⟨⟨_, .tail _ (.tail _ (.tail _ (.head _))), ⟨_, rfl⟩⟩, ⟨['I', 'n'], by decide, ⟨_, rfl⟩⟩,
      Or.inl (by decide)⟩
  · exact ⟨⟨_, .tail _ (.tail _ (.tail _ (.tail _ (.head _)))), ⟨_, rfl⟩⟩,
      ⟨['b', 'y'], by decide, ⟨_, rfl⟩⟩, Or.inr (by decide)⟩

end Entry

theorem IsHost.not_mem {host : String} (h : IsHost host) {c : Char} (hc : c.isAlphanum = false)
    (hother : c ∉ ['-', '.', '_']) : c ∉ host.toList := by
  intro hmem
  rcases h c hmem with halnum | hmem
  · rw [hc] at halnum
    cases halnum
  · exact hother hmem

namespace Entry

theorem free_target {a b c d port : Nat} {host : String} (hhost : IsHost host) {s : List Char}
    (hs : s ∈ cores) : Free s (target a b c d port host).line.chars := by
  obtain ⟨-, ⟨s', hhead, hpre⟩, hmark⟩ := core_cases hs
  have hfront := mutes_targetFront a b c d port s' (List.mem_cons_of_mem _ hhead)
  rw [chars_target]
  refine free_append (hfront.longer hpre) ?_
  -- no host has a colon or a bracket
  rcases hmark with hmark | hmark
  · exact free_of_not_mem hmark (hhost.not_mem rfl (by decide))
  · exact free_of_not_mem hmark (hhost.not_mem rfl (by decide))

/-- **What a pattern looks for is only in the lines of its own.** -/
theorem free_line {e : Entry} (he : e.Clean) {s s' : List Char} (hs : s ∈ cores)
    (hpre : s' <+: s) (hne : s' ≠ []) (hown : e.isOutside = false → s' ∈ e.absent) :
    Free s e.line.chars := by
  cases e with
  | fail f =>
    -- an error may have the word in part, but not the beginning that `words` has
    obtain ⟨⟨w, hw, hpart⟩, -, -⟩ := core_cases hs
    exact (Fail.free_line hw he).extend hpart.isInfix
  | target a b c d port host => exact free_target he hs
  | _ => exact ((mutes_line _ s' (hown rfl)).free hne).extend hpre.isInfix

theorem newline_not_mem {e : Entry} (he : e.Clean) : '\n' ∉ e.line.chars := by
  cases e with
  | fail f => exact Fail.newline_not_mem he
  | target a b c d port host =>
    rw [chars_target]
    intro hmem
    rcases List.mem_append.mp hmem with hmem | hmem
    · exact (mutes_targetFront a b c d port _ List.mem_cons_self).not_mem hmem
    · exact he.not_mem rfl (by decide) hmem
  | _ => exact (mutes_line _ ['\n'] (.head _)).not_mem

/-! ## How a line begins -/

/-- So much of the line's first characters as tells it from others. -/
def opening : Entry → List Char
  | ignored | note .. => ['n']
  | bench .. => ['b', 'e']
  | target .. => ['t', 'a']
  | fail _ => ['F']
  | unclean .. => ['q']
  | more _ => ['.']
  | worker .. => ['w']
  | blank => ['\n']
  | aggregate .. => ['A']
  | transfer .. => ['T']
  | noIface => ['W', 'I', 'R', 'E', ':', ' ', 'n']
  | wire .. => ['W', 'I', 'R', 'E', ':']
  | steady .. => ['W', 'I', 'R', 'E', ' ', 'S']
  | noWindow => ['W', 'I', 'R', 'E', ' ', 'S', 'T', 'E', 'A', 'D', 'Y', ':', ' ', 'n']
  | peak _ => ['W', 'I', 'R', 'E', ' ', 'P']
  | connections .. => ['c']
  | misrouted => ['m']
  | drops => ['t', 'x']
  | setup .. => ['S']
  | dial _ => ['D']
  | blocks .. => ['b', 'l']
  | ciphertext .. | body _ => ['b', 'y']
  | fetched _ | exact _ => ['C', 'O']
  | incomplete .. => ['I']

theorem prefix_lit {u v t : List Char} {l : Line} :
    u <+: Line.chars (.lit (String.ofList (u ++ v)) :: l) ++ t := by
  rw [Line.chars_cons, Piece.chars_lit, List.append_assoc, List.append_assoc]
  exact List.prefix_append u _

theorem opening_stands (e : Entry) (t : List Char) : e.opening <+: e.line.chars ++ '\n' :: t := by
  cases e with
  | blank => exact ⟨t, rfl⟩
  | fail f => cases f <;> exact prefix_lit
  | _ => exact prefix_lit

/-- The line may begin with the word. -/
def begins (s : List Char) (e : Entry) : Bool := s.isPrefixOf e.opening || e.opening.isPrefixOf s

theorem begins_of_stands {s t : List Char} {e : Entry} (h : s <+: e.line.chars ++ '\n' :: t) :
    begins s e = true := by
  rw [begins, Bool.or_eq_true]
  rcases List.prefix_or_prefix_of_prefix h (opening_stands e t) with hp | hp
  · exact Or.inl (List.isPrefixOf_iff_prefix.mpr hp)
  · exact Or.inr (List.isPrefixOf_iff_prefix.mpr hp)

/-- **A pattern for the start of a line passes over the lines that begin with something else.** -/
theorem skips_of_begins {e : Entry} (he : e.Clean) {r : Regex} {s : List Char} (hr : r.Anchored)
    (ho : Opens s r) (h : begins s e = false) : Skips r e.line.chars :=
  skips_of_anchored hr ho (newline_not_mem he) fun t hpre => by
    rw [begins_of_stands hpre] at h
    cases h

end Entry

end LinuxS3
