import MiniosvCtrl.Infra.Pieces
import MiniosvCtrl.Properties.Tokens

/-!
# What the patterns read of a dump

A text is part of a console: lines of a dump and other output, and at its end a line that may have
been cut short. The patterns read a line that is whole as it is, and one that is cut as a line with
less in it, or not at all.

* `Dump` — the lines that a guest prints
* `Shown` — a text
* `line_iff` — what `COV:` lines are made of
* `Dump.line_shown`, `Dump.begins_shown`, `Dump.ends_shown`
-/

namespace Cov

open Infra Infra.Regex

/-! ## The dump -/

/-- What a guest prints: the profile's run lengths in base64, line by line. -/
structure Dump (B : Builtins) where
  raw : List UInt8
  tokens : List Token
  expansion_tokens : expansion tokens = raw
  /-- The text of each line. -/
  chunks : List (List Char)
  ne_nil : ∀ chunk ∈ chunks, chunk ≠ []
  flatten_chunks : chunks.flatten = Base64.encode (serialise tokens)
  /-- What follows the numbers of the lines before and after. -/
  beginTail : List Char
  endTail : List Char
  beginTail_ends : ∀ c ∈ beginTail.head?, B.digit c = false
  endTail_ends : ∀ c ∈ endTail.head?, B.digit c = false
  raw_lt : raw.length < 2 ^ 64
  chunks_lt : chunks.length < 2 ^ 64

inductive Entry
  | begins
  | line (i : Nat)
  | ends

variable {B : Builtins}

/-- A line as it is printed. -/
def Dump.text (d : Dump B) : Entry → List Char
  | .begins => "COV BEGIN raw=".toList ++ (Nat.toDigits 10 d.raw.length ++ d.beginTail)
  | .line i => "COV:".toList ++ (Nat.toDigits 10 i ++ ':' :: d.chunks.getD i [])
  | .ends => "COV END lines=".toList ++ (Nat.toDigits 10 d.chunks.length ++ d.endTail)

theorem Dump.text_begins (d : Dump B) : d.text .begins =
    "COV BEGIN raw=".toList ++ (Nat.toDigits 10 d.raw.length ++ d.beginTail) := rfl

theorem Dump.text_line (d : Dump B) (i : Nat) : d.text (.line i) =
    "COV:".toList ++ (Nat.toDigits 10 i ++ ':' :: d.chunks.getD i []) := rfl

theorem Dump.text_ends (d : Dump B) : d.text .ends =
    "COV END lines=".toList ++ (Nat.toDigits 10 d.chunks.length ++ d.endTail) := rfl

/-- A line of the dump: those between the first and the last are numbered from 0. -/
def Dump.Has (d : Dump B) : Entry → Prop
  | .line i => i < d.chunks.length
  | _ => True

/-- A line that is whole, perhaps with the carriage return of the console. -/
def Dump.Intact (d : Dump B) (e : Entry) (l : List Char) : Prop :=
  l = d.text e ∨ l = d.text e ++ ['\x0d']

/-- Other output. -/
structure Other (B : Builtins) (l : List Char) : Prop where
  line : lineGroups (line B) l = none
  begins : lineGroups (begins B) l = none
  ends : lineGroups (ends B) l = none

/-- A text in which each line is intact, or other output, or is the last and cut short. -/
structure Shown (d : Dump B) (t : List Char) : Prop where
  whole : ∀ l ∈ (lines t).dropLast, Other B l ∨ ∃ e, d.Has e ∧ d.Intact e l
  last : ∀ l ∈ (lines t).getLast?, Other B l ∨ ∃ e, d.Has e ∧ (d.Intact e l ∨ l <+: d.text e)

/-- Each line of the dump is intact somewhere. -/
def Complete (d : Dump B) (texts : List (List Char)) : Prop :=
  ∀ e, d.Has e → ∃ t ∈ texts, ∃ l ∈ lines t, d.Intact e l

theorem Shown.mem {d : Dump B} {t l : List Char} (h : Shown d t) (hl : l ∈ lines t) :
    Other B l ∨ ∃ e, d.Has e ∧ (d.Intact e l ∨ l <+: d.text e) := by
  have hne : lines t ≠ [] := lines_ne_nil t
  rw [← List.dropLast_append_getLast hne] at hl
  rcases List.mem_append.mp hl with hl | hl
  · exact (h.whole l hl).imp_right fun ⟨e, he, hintact⟩ => ⟨e, he, .inl hintact⟩
  · rw [List.mem_singleton.mp hl]
    exact h.last _ (List.getLast?_eq_some_getLast hne)

/-! ## The lines in between -/

/-- The number, the text and the carriage return of a line. -/
structure Parts (B : Builtins) (l num pay cr : List Char) : Prop where
  eq : l = "COV:".toList ++ (num ++ ([':'] ++ (pay ++ cr)))
  num_ne_nil : num ≠ []
  digits : ∀ c ∈ num, B.digit c = true
  pay_ne_nil : pay ≠ []
  payload : ∀ c ∈ pay, isPayload c = true
  cr_eq : cr = [] ∨ cr = ['\x0d']

theorem digit_eq_false {c : Char} (hlt : c.toNat < 128) (hc : c.isDigit = false) :
    B.digit c = false := by
  rw [B.digit_ascii hlt, hc]

section Eol

variable {prev : Option Char} {cr : List Char} {g : Groups} {k : Cont}

/-- `\r?$` -/
theorem yields_eol (h : cr = [] ∨ cr = ['\x0d']) :
    Yields (Regex.run (.seq (.opt (.lit ['\x0d'])) .eol) ⟨prev, cr⟩ g done) g := by
  rcases h with rfl | rfl
  · exact ⟨_, rfl⟩
  · exact ⟨_, rfl⟩

theorem eq_of_atEol (hcr : '\n' ∉ cr) (h : Regex.run .eol ⟨prev, cr⟩ g k ≠ none) : cr = [] := by
  cases cr with
  | nil => rfl
  | cons c cr =>
    have hc : c ≠ '\n' := ne_of_not_mem_cons hcr
    have hnot : Cursor.atEol ⟨prev, c :: cr⟩ = false := by simp [Cursor.atEol, hc]
    refine absurd ?_ h
    show (if Cursor.atEol ⟨prev, c :: cr⟩ then k ⟨prev, c :: cr⟩ g else none) = none
    rw [hnot]
    rfl

theorem eq_of_eol (hcr : '\n' ∉ cr)
    (h : Regex.run (.seq (.opt (.lit ['\x0d'])) .eol) ⟨prev, cr⟩ g k ≠ none) :
    cr = [] ∨ cr = ['\x0d'] := by
  have hor : (Regex.run (.lit ['\x0d']) ⟨prev, cr⟩ g fun d g => Regex.run .eol d g k).or
      (Regex.run .eol ⟨prev, cr⟩ g k) ≠ none := h
  by_cases hfirst : (Regex.run (.lit ['\x0d']) ⟨prev, cr⟩ g fun d g => Regex.run .eol d g k) = none
  · rw [hfirst, Option.none_or] at hor
    exact .inl (eq_of_atEol hcr hor)
  · obtain ⟨rest, prev', rfl, hrest⟩ := run_lit_split hfirst
    have hnil := eq_of_atEol (fun hmem => hcr (List.mem_append_right _ hmem)) hrest
    exact .inr (by rw [hnil, List.append_nil])

end Eol

theorem isPayload_cr : isPayload '\x0d' = false := by decide

/-- The pattern as its pieces, up to the end of the line. -/
theorem line_matchAt (l : List Char) : (line B).matchAt ⟨none, l⟩ =
    ways [.lit "COV:".toList, .keep B.digit, .lit [':'], .keep isPayload]
      (fun d g => Regex.run (.seq (.opt (.lit ['\x0d'])) .eol) d g done) ⟨none, l⟩ [] := rfl

/-- Two runs that are kept, each behind a literal. -/
theorem yields_two {p q : Char → Bool} {s s' num pay rest : List Char} {prev : Option Char}
    {k : Cont} (hnum : num ≠ []) (hdigits : ∀ c ∈ num, p c = true)
    (hend : ∀ c ∈ (s' ++ (pay ++ rest)).head?, p c = false) (hpay : pay ≠ [])
    (hpayload : ∀ c ∈ pay, q c = true) (hrest : ∀ c ∈ rest.head?, q c = false)
    (hk : ∀ prev, Yields (k ⟨prev, rest⟩ [num, pay]) [num, pay]) :
    Yields (ways [.lit s, .keep p, .lit s', .keep q] k
      ⟨prev, s ++ (num ++ (s' ++ (pay ++ rest)))⟩ []) [num, pay] :=
  Yields.lit fun _ => Yields.group_plus hnum hdigits hend fun _ =>
    Yields.lit fun _ => Yields.group_plus hpay hpayload hrest hk

/-- A line is read as its parts. -/
theorem Parts.lineGroups {l num pay cr : List Char} (h : Parts B l num pay cr) :
    lineGroups (line B) l = some [num, pay] := by
  have hcolon : ∀ c ∈ ([':'] ++ (pay ++ cr)).head?, B.digit c = false := by
    intro c hc
    obtain rfl : ':' = c := Option.some_inj.mp hc
    exact digit_eq_false (by decide) (by decide)
  have hend : ∀ c ∈ cr.head?, isPayload c = false := by
    rcases h.cr_eq with rfl | rfl
    · exact fun c hc => absurd hc (by simp)
    · intro c hc
      obtain rfl : '\x0d' = c := Option.some_inj.mp hc
      exact isPayload_cr
  have hyields : Yields ((line B).matchAt ⟨none, l⟩) [num, pay] := by
    rw [h.eq, line_matchAt]
    exact yields_two h.num_ne_nil h.digits hcolon h.pay_ne_nil h.payload hend fun _ =>
      yields_eol h.cr_eq
  obtain ⟨c, hc⟩ := hyields
  rw [Regex.lineGroups, hc]
  rfl

/-- **What a numbered line is made of.** -/
theorem line_iff {l : List Char} (hl : '\n' ∉ l) {gs : Groups} :
    lineGroups (line B) l = some gs ↔ ∃ num pay cr, Parts B l num pay cr ∧ gs = [num, pay] := by
  constructor
  · intro h
    obtain ⟨f, hf, -⟩ := Option.map_eq_some_iff.mp h
    have hne : (line B).matchAt ⟨none, l⟩ ≠ none := hf ▸ Option.some_ne_none f
    rw [line_matchAt] at hne
    -- One piece of the pattern after the other.
    obtain ⟨l₁, prev₁, rfl, hnumber⟩ := run_lit_split hne
    obtain ⟨num, l₂, prev₂, rfl, hnum, hdigits, hcolon⟩ := run_plus_split hnumber
    obtain ⟨l₃, prev₃, rfl, htext⟩ := run_lit_split hcolon
    obtain ⟨pay, cr, prev₄, rfl, hpay, hpayload, heol⟩ := run_plus_split htext
    have hcr : '\n' ∉ cr := fun hmem => hl (by simp [hmem])
    have hparts : Parts B _ num pay cr :=
      ⟨rfl, hnum, hdigits, hpay, hpayload, eq_of_eol hcr heol⟩
    exact ⟨num, pay, cr, hparts, Option.some_inj.mp (h.symm.trans hparts.lineGroups)⟩
  · rintro ⟨num, pay, cr, h, rfl⟩
    exact h.lineGroups

/-! ## What is shown of a line -/

theorem isPayload_of_isData {c : Char} (h : Base64.isData c = true) : isPayload c = true := by
  have hpayload : isPayload c =
      (c.isUpper || c.isLower || c.isDigit || c == '+' || c == '/' || c == '=') := rfl
  rw [Base64.isData, Base64.value] at h
  rw [hpayload]
  simp only [Bool.or_eq_true, beq_iff_eq]
  split_ifs at h with hupper hlower hdigit hplus hslash
  · exact .inl (.inl (.inl (.inl (.inl hupper))))
  · exact .inl (.inl (.inl (.inl (.inr hlower))))
  · exact .inl (.inl (.inl (.inr hdigit)))
  · exact .inl (.inl (.inr hplus))
  · exact .inl (.inr hslash)
  · cases h

theorem isPayload_of_mem_encode {bytes : List UInt8} {c : Char} (h : c ∈ Base64.encode bytes) :
    isPayload c = true := by
  obtain ⟨data, pads, heq, hdata, -⟩ := Base64.encode_eq bytes
  rw [heq] at h
  rcases List.mem_append.mp h with h | h
  · exact isPayload_of_isData (hdata c h)
  · rw [List.eq_of_mem_replicate h]
    decide

theorem digits_toDigits (n : Nat) : ∀ c ∈ Nat.toDigits 10 n, B.digit c = true := fun _ hc =>
  B.digit_of_isDigit (Builtins.isDigit_of_mem_toDigits hc)

theorem not_mem_of_digits {num : List Char} (h : ∀ c ∈ num, B.digit c = true) : ':' ∉ num := by
  intro hmem
  have hcolon : B.digit ':' = false := digit_eq_false (by decide) (by decide)
  rw [h _ hmem] at hcolon
  cases hcolon

/-- What stands before and behind the first colon. -/
theorem colon_inj {a b a' b' : List Char} (ha : ':' ∉ a) (ha' : ':' ∉ a')
    (h : a ++ ':' :: b <+: a' ++ ':' :: b') : a = a' ∧ b <+: b' := by
  induction a generalizing a' with
  | nil =>
    cases a' with
    | nil => exact ⟨rfl, (List.cons_prefix_cons.mp h).2⟩
    | cons c a' => exact absurd ((List.cons_prefix_cons.mp h).1 ▸ List.mem_cons_self) ha'
  | cons c a ih =>
    cases a' with
    | nil => exact absurd ((List.cons_prefix_cons.mp h).1 ▸ List.mem_cons_self) ha
    | cons c' a' =>
      obtain ⟨rfl, hrest⟩ := List.cons_prefix_cons.mp h
      obtain ⟨rfl, hb⟩ := ih (fun hm => ha (List.mem_cons_of_mem _ hm))
        (fun hm => ha' (List.mem_cons_of_mem _ hm)) hrest
      exact ⟨rfl, hb⟩

section Shown

variable {d : Dump B} {e : Entry} {i : Nat} {t l : List Char} {gs : Groups}

/-- Whole or cut, it is what the line begins with. -/
theorem Dump.prefix_of_shown (h : d.Intact e l ∨ l <+: d.text e) : l <+: d.text e ++ ['\x0d'] := by
  rcases h with (rfl | rfl) | h
  · exact List.prefix_append _ _
  · exact List.prefix_refl _
  · exact h.trans (List.prefix_append _ _)

/-- The lines before and after begin otherwise than those between. -/
theorem Dump.not_colon (he : ∀ i, e ≠ .line i) :
    ¬ "COV:".toList <+: d.text e ++ ['\x0d'] := by
  intro h
  cases e with
  | line i => exact he i rfl
  | begins =>
    rw [d.text_begins, List.append_assoc] at h
    simp at h
  | ends =>
    rw [d.text_ends, List.append_assoc] at h
    simp at h

theorem Dump.getD_mem (hi : i < d.chunks.length) : d.chunks.getD i [] ∈ d.chunks := by
  rw [List.getD_eq_getElem?_getD, List.getElem?_eq_getElem hi]
  exact List.getElem_mem hi

theorem Dump.isPayload_of_mem {chunk : List Char} (h : chunk ∈ d.chunks) {c : Char}
    (hc : c ∈ chunk) : isPayload c = true := by
  have hmem : c ∈ Base64.encode (serialise d.tokens) := by
    rw [← d.flatten_chunks]
    exact List.mem_flatten.mpr ⟨chunk, h, hc⟩
  exact isPayload_of_mem_encode hmem

theorem Dump.parts (hi : i < d.chunks.length) {cr : List Char} (hcr : cr = [] ∨ cr = ['\x0d']) :
    Parts B (d.text (.line i) ++ cr) (Nat.toDigits 10 i) (d.chunks.getD i []) cr where
  eq := by
    rw [d.text_line, List.append_assoc, List.append_assoc, List.cons_append]
    rfl
  num_ne_nil := Nat.toDigits_ne_nil
  digits := digits_toDigits i
  pay_ne_nil := d.ne_nil _ (d.getD_mem hi)
  payload _ hc := d.isPayload_of_mem (d.getD_mem hi) hc
  cr_eq := hcr

/-- A line that is whole is read as it is. -/
theorem Dump.line_intact (hi : i < d.chunks.length) (h : d.Intact (.line i) l) :
    lineGroups (line B) l = some [Nat.toDigits 10 i, d.chunks.getD i []] := by
  rcases h with rfl | rfl
  · have hparts := (d.parts hi (.inl rfl)).lineGroups
    rwa [List.append_nil] at hparts
  · exact (d.parts hi (.inr rfl)).lineGroups

/-- What is read of a numbered line. -/
theorem Dump.line_of_prefix {num pay cr : List Char} (hparts : Parts B l num pay cr)
    (h : l <+: d.text (.line i) ++ ['\x0d']) :
    num = Nat.toDigits 10 i ∧ pay <+: d.chunks.getD i [] := by
  rw [hparts.eq, d.text_line, List.append_assoc, List.prefix_append_right_inj, List.append_assoc,
    List.cons_append] at h
  obtain ⟨hnum, hpay⟩ := colon_inj (not_mem_of_digits hparts.digits)
    (not_mem_of_digits (digits_toDigits (B := B) i)) h
  refine ⟨hnum, ?_⟩
  rcases List.prefix_concat_iff.mp ((List.prefix_append pay cr).trans hpay) with heq | hprefix
  · have hmem : '\x0d' ∈ pay := heq ▸ List.mem_append_right _ List.mem_cons_self
    have hclass := hparts.payload _ hmem
    rw [isPayload_cr] at hclass
    cases hclass
  · exact hprefix

/-- **What the pattern for numbered lines reads of a text.** -/
theorem Dump.line_shown (h : Shown d t) (hl : l ∈ lines t) (hgs : lineGroups (line B) l = some gs) :
    ∃ i pay, i < d.chunks.length ∧ pay ≠ [] ∧ pay <+: d.chunks.getD i [] ∧
      gs = [Nat.toDigits 10 i, pay] := by
  obtain ⟨num, pay, cr, hparts, rfl⟩ := (line_iff (not_mem_of_mem_lines hl)).mp hgs
  have hstart : "COV:".toList <+: l := by
    rw [hparts.eq]
    exact List.prefix_append _ _
  rcases h.mem hl with hother | ⟨e, he, hshown⟩
  · rw [hother.line] at hgs
    cases hgs
  · have hprefix := d.prefix_of_shown hshown
    cases e with
    | line i =>
      obtain ⟨rfl, hpay⟩ := d.line_of_prefix hparts hprefix
      exact ⟨i, pay, he, hparts.pay_ne_nil, hpay, rfl⟩
    | begins | ends => exact absurd (hstart.trans hprefix) (d.not_colon fun i h => by cases h)

/-! ## The numbers -/

/-- A word at the start of a line, and a number. -/
def heading (B : Builtins) (word : List Char) : Regex :=
  .seqs [.bol, .lit word, .group (.plus B.digit)]

theorem heading_iff {word : List Char} : lineGroups (heading B word) l = some gs ↔
    ∃ rest num tail, l = word ++ rest ∧ rest = num ++ tail ∧ Run B.digit num tail ∧
      gs = [num] := by
  have his : (heading B word).Is [.lit word, .keep B.digit] := fun _ => rfl
  rw [lineGroups_iff his trivial]
  constructor
  · rintro ⟨rest, hl, num, tail, gs', hrest, hrun, rfl, rfl⟩
    exact ⟨rest, num, tail, hl, hrest, hrun, rfl⟩
  · rintro ⟨rest, num, tail, hl, hrest, hrun, rfl⟩
    exact ⟨rest, hl, num, tail, [], hrest, hrun, rfl, rfl⟩

theorem head_tail (tail : List Char) (htail : ∀ c ∈ tail.head?, B.digit c = false) :
    ∀ c ∈ (tail ++ ['\x0d']).head?, B.digit c = false := by
  cases tail with
  | nil =>
    intro c hc
    obtain rfl : '\x0d' = c := Option.some_inj.mp hc
    exact digit_eq_false (by decide) (by decide)
  | cons x tail => exact htail

/-- A heading that is whole. -/
theorem heading_intact {word tail : List Char} {n : Nat}
    (htail : ∀ c ∈ tail.head?, B.digit c = false)
    (h : l = word ++ (Nat.toDigits 10 n ++ tail) ∨
      l = word ++ (Nat.toDigits 10 n ++ tail) ++ ['\x0d']) :
    lineGroups (heading B word) l = some [Nat.toDigits 10 n] := by
  rcases h with rfl | rfl
  · exact heading_iff.mpr ⟨_, _, tail, rfl, rfl,
      ⟨Nat.toDigits_ne_nil, digits_toDigits n, htail⟩, rfl⟩
  · refine heading_iff.mpr ⟨_, _, tail ++ ['\x0d'], List.append_assoc .., List.append_assoc ..,
      ⟨Nat.toDigits_ne_nil, digits_toDigits n, head_tail tail htail⟩, rfl⟩

/-- A run of digits at the start of a number and what follows it. -/
theorem prefix_of_run {p : Char → Bool} {num num' rest tail : List Char}
    (hnum : ∀ c ∈ num, p c = true) (htail : ∀ c ∈ tail.head?, p c = false)
    (h : num ++ rest <+: num' ++ tail) : num <+: num' := by
  have hprefix : num <+: num' ++ tail := (List.prefix_append _ _).trans h
  rcases List.prefix_or_prefix_of_prefix hprefix (List.prefix_append num' tail) with h | h
  · exact h
  · obtain ⟨more, rfl⟩ := h
    rw [List.prefix_append_right_inj] at hprefix
    cases more with
    | nil => rw [List.append_nil]
    | cons c more =>
      obtain ⟨tail', rfl⟩ := hprefix
      have hc := htail c rfl
      rw [hnum c (List.mem_append_right _ List.mem_cons_self)] at hc
      cases hc

/-- A heading that may be cut. -/
theorem heading_of_prefix {word tail : List Char} {n : Nat}
    (htail : ∀ c ∈ tail.head?, B.digit c = false)
    (h : l <+: word ++ (Nat.toDigits 10 n ++ tail) ++ ['\x0d'])
    (hgs : lineGroups (heading B word) l = some gs) :
    ∃ num, num ≠ [] ∧ num <+: Nat.toDigits 10 n ∧ gs = [num] := by
  obtain ⟨rest, num, more, rfl, rfl, hrun, rfl⟩ := heading_iff.mp hgs
  rw [List.append_assoc, List.append_assoc, List.prefix_append_right_inj] at h
  exact ⟨num, hrun.ne_nil, prefix_of_run hrun.all (head_tail tail htail) h, rfl⟩

theorem begins_eq : begins B = heading B "COV BEGIN raw=".toList := rfl

theorem ends_eq : ends B = heading B "COV END lines=".toList := rfl

theorem begins_intact (h : d.Intact .begins l) :
    lineGroups (begins B) l = some [Nat.toDigits 10 d.raw.length] :=
  heading_intact d.beginTail_ends h

theorem ends_intact (h : d.Intact .ends l) :
    lineGroups (ends B) l = some [Nat.toDigits 10 d.chunks.length] :=
  heading_intact d.endTail_ends h

theorem word_of_heading {word : List Char} (h : lineGroups (heading B word) l = some gs) :
    word <+: l := by
  obtain ⟨rest, -, -, rfl, -⟩ := heading_iff.mp h
  exact List.prefix_append _ _

/-- **What the pattern for the line before reads of a text.** -/
theorem Dump.begins_shown (h : Shown d t) (hl : l ∈ lines t)
    (hgs : lineGroups (begins B) l = some gs) :
    ∃ num, num ≠ [] ∧ num <+: Nat.toDigits 10 d.raw.length ∧ gs = [num] := by
  rcases h.mem hl with hother | ⟨e, he, hshown⟩
  · rw [hother.begins] at hgs
    cases hgs
  · have hprefix := d.prefix_of_shown hshown
    have hword := (word_of_heading (begins_eq ▸ hgs)).trans hprefix
    cases e with
    | begins => exact heading_of_prefix d.beginTail_ends hprefix hgs
    | line i =>
      rw [d.text_line, List.append_assoc] at hword
      simp at hword
    | ends =>
      rw [d.text_ends, List.append_assoc] at hword
      simp at hword

/-- **What the pattern for the line after reads of a text.** -/
theorem Dump.ends_shown (h : Shown d t) (hl : l ∈ lines t)
    (hgs : lineGroups (ends B) l = some gs) :
    ∃ num, num ≠ [] ∧ num <+: Nat.toDigits 10 d.chunks.length ∧ gs = [num] := by
  rcases h.mem hl with hother | ⟨e, he, hshown⟩
  · rw [hother.ends] at hgs
    cases hgs
  · have hprefix := d.prefix_of_shown hshown
    have hword := (word_of_heading (ends_eq ▸ hgs)).trans hprefix
    cases e with
    | ends => exact heading_of_prefix d.endTail_ends hprefix hgs
    | line i =>
      rw [d.text_line, List.append_assoc] at hword
      simp at hword
    | begins =>
      rw [d.text_begins, List.append_assoc] at hword
      simp at hword

end Shown

end Cov
