import Mathlib.Data.List.Basic

/-!
# A text as a literal

`json.dumps` writes a text in ASCII, and what it writes is a string literal of Python as well. The
two differ in the characters that JSON writes as two units: to Python each of them is a character
of its own.

* `units` — the UTF-16 units of a text
* `dumps`, `dumpsDict` — a text and a dictionary of texts, as JSON has them
* `literal`, `dict` — the literals of Python
* `chars` — the text that some characters of Python can be encoded as
* `literal_dumps`, `dict_dumpsDict` — what Python reads is the units
* `units_eq_iff`, `chars_units` — which are the characters if each of them has one, and cannot
  be encoded otherwise
-/

namespace Infra.Literal

/-! ## Units -/

/-- The units of a character. -/
def unitsOf (c : Char) : List Nat :=
  if c.toNat < 0x10000 then [c.toNat]
  else [0xd800 + (c.toNat - 0x10000) / 0x400, 0xdc00 + (c.toNat - 0x10000) % 0x400]

def units (s : List Char) : List Nat := s.flatMap unitsOf

/-- No character of a text has two. -/
def OneUnit (s : List Char) : Prop := ∀ c ∈ s, c.toNat < 0x10000

instance (s : List Char) : Decidable (OneUnit s) :=
  @List.decidableBAll Char (fun c => c.toNat < 0x10000) (fun _ => Nat.decLt _ _) s

/-- The text of some characters, half of a pair not being one. -/
def chars (us : List Nat) : Option (List Char) :=
  us.mapM fun n => if n.isValidChar then some (Char.ofNat n) else none

/-! ## JSON -/

def hexDigit (n : Nat) : Char := "0123456789abcdef".toList.getD (n % 16) '0'

/-- `'\\u{0:04x}'.format(n)` -/
def escaped (n : Nat) : List Char :=
  ['\\', 'u', hexDigit (n / 4096), hexDigit (n / 256), hexDigit (n / 16), hexDigit n]

/-- `ESCAPE_DCT` -/
def short : Char → Option Char
  | '\\' => some '\\'
  | '"' => some '"'
  | '\x08' => some 'b'
  | '\x0c' => some 'f'
  | '\n' => some 'n'
  | '\r' => some 'r'
  | '\t' => some 't'
  | _ => none

/-- A character, as `ensure_ascii` has it. -/
def escape (c : Char) : List Char :=
  match short c with
  | some d => ['\\', d]
  | none => if 32 ≤ c.toNat ∧ c.toNat ≤ 126 then [c] else (unitsOf c).flatMap escaped

/-- `json.dumps(s)` -/
def dumps (s : List Char) : List Char := '"' :: (s.flatMap escape ++ ['"'])

def dumpsItem (e : List Char × List Char) : List Char := dumps e.1 ++ (':' :: ' ' :: dumps e.2)

/-- `json.dumps(d)`, of texts. -/
def dumpsDict (d : List (List Char × List Char)) : List Char :=
  '{' :: ((", ".toList).intercalate (d.map dumpsItem) ++ ['}'])

/-! ## Python -/

def hexValue (c : Char) : Option Nat :=
  if c.isDigit then some (c.toNat - 48)
  else if 97 ≤ c.toNat ∧ c.toNat ≤ 102 then some (c.toNat - 87)
  else if 65 ≤ c.toNat ∧ c.toNat ≤ 70 then some (c.toNat - 55)
  else none

/-- The escapes of one character. -/
def control : Char → Option Nat
  | '\\' => some 92
  | '\'' => some 39
  | '"' => some 34
  | 'a' => some 7
  | 'b' => some 8
  | 'f' => some 12
  | 'n' => some 10
  | 'r' => some 13
  | 't' => some 9
  | 'v' => some 11
  | _ => none

/-- One character more of a literal. -/
def push (n : Nat) (s : List Nat × List Char) : List Nat × List Char := (n :: s.1, s.2)

/--
A literal from behind its first quote on: its characters, and what follows it. An escape that JSON
never writes is not read, nor is a literal with no end.
-/
def literalFrom : List Char → Option (List Nat × List Char)
  | [] => none
  | '"' :: rest => some ([], rest)
  | '\n' :: _ => none
  | '\\' :: 'u' :: a :: b :: c :: d :: rest => do
    let a ← hexValue a
    let b ← hexValue b
    let c ← hexValue c
    let d ← hexValue d
    (literalFrom rest).map (push (4096 * a + 256 * b + 16 * c + d))
  | '\\' :: c :: rest => do
    let n ← control c
    (literalFrom rest).map (push n)
  | c :: rest => (literalFrom rest).map (push c.toNat)

def literal : List Char → Option (List Nat × List Char)
  | '"' :: rest => literalFrom rest
  | _ => none

def blanks (t : List Char) : List Char := t.dropWhile (· == ' ')

/-- `key: value`, and what follows it. -/
def item (t : List Char) : Option ((List Nat × List Nat) × List Char) := do
  let k ← literal (blanks t)
  match blanks k.2 with
  | ':' :: rest =>
    let v ← literal (blanks rest)
    return ((k.1, v.1), blanks v.2)
  | _ => none

/-- The items of a dictionary, from its first one on; so many at most. -/
def items : Nat → List Char → Option (List (List Nat × List Nat) × List Char)
  | 0, _ => none
  | n + 1, t => do
    let e ← item t
    match e.2 with
    | ',' :: rest =>
      let es ← items n rest
      return (e.1 :: es.1, es.2)
    | '}' :: rest => return ([e.1], rest)
    | _ => none

/-- The items of a dictionary of texts, which is all of a text. -/
def dict (t : List Char) : Option (List (List Nat × List Nat)) :=
  match t with
  | '{' :: rest =>
    match blanks rest with
    | ['}'] => some []
    | rest =>
      match items rest.length rest with
      | some (es, []) => some es
      | _ => none
  | _ => none

/-! ## What Python reads -/

variable {c : Char} {s rest : List Char}

theorem hexValue_hexDigit (n : Nat) : hexValue (hexDigit n) = some (n % 16) := by
  have hall : ∀ k < 16, hexValue ("0123456789abcdef".toList.getD k '0') = some k := by decide
  exact hall _ (Nat.mod_lt _ (by decide))

theorem literalFrom_escaped {n : Nat} (hn : n < 0x10000) (rest : List Char) :
    literalFrom (escaped n ++ rest) = (literalFrom rest).map (push n) := by
  have hdigits :
      4096 * (n / 4096 % 16) + 256 * (n / 256 % 16) + 16 * (n / 16 % 16) + n % 16 = n := by
    omega
  simp only [escaped, List.cons_append, List.nil_append, literalFrom, hexValue_hexDigit,
    Option.bind_eq_bind, Option.bind_some, hdigits]

theorem toNat_lt (c : Char) : c.toNat < 0x110000 := by
  have h : c.toNat.isValidChar := c.valid
  rw [Nat.isValidChar] at h
  omega

theorem lt_of_mem_unitsOf {n : Nat} (h : n ∈ unitsOf c) : n < 0x10000 := by
  have hc := toNat_lt c
  unfold unitsOf at h
  split at h
  · simp only [List.mem_singleton] at h
    omega
  · simp only [List.mem_cons, List.not_mem_nil, or_false] at h
    omega

/-- Characters more of a literal. -/
def pushes (us : List Nat) (s : List Nat × List Char) : List Nat × List Char := (us ++ s.1, s.2)

theorem literalFrom_flatMap {us : List Nat} (hus : ∀ n ∈ us, n < 0x10000) (rest : List Char) :
    literalFrom (us.flatMap escaped ++ rest) = (literalFrom rest).map (pushes us) := by
  induction us with
  | nil =>
    rw [List.flatMap_nil, List.nil_append]
    exact (Option.map_id' (x := literalFrom rest)).symm
  | cons n us ih =>
    rw [List.flatMap_cons, List.append_assoc, literalFrom_escaped (hus n List.mem_cons_self),
      ih fun m hm => hus m (List.mem_cons_of_mem _ hm), Option.map_map]
    rfl

/-- A character that has no short escape, and needs none. -/
theorem literalFrom_cons (hshort : short c = none) (rest : List Char) :
    literalFrom (c :: rest) = (literalFrom rest).map (push c.toNat) := by
  have hbs : c ≠ '\\' := by rintro rfl; cases hshort
  have hq : c ≠ '"' := by rintro rfl; cases hshort
  have hn : c ≠ '\n' := by rintro rfl; cases hshort
  rw [literalFrom.eq_def]
  split <;> simp_all

/-- A character that has one. -/
theorem literalFrom_short {d : Char} (hshort : short c = some d) (rest : List Char) :
    literalFrom ('\\' :: d :: rest) = (literalFrom rest).map (push c.toNat) := by
  unfold short at hshort
  split at hshort <;> cases hshort <;> rfl

theorem unitsOf_of_lt (h : c.toNat < 0x10000) : unitsOf c = [c.toNat] := if_pos h

theorem literalFrom_escape (c : Char) (rest : List Char) :
    literalFrom (escape c ++ rest) = (literalFrom rest).map (pushes (unitsOf c)) := by
  unfold escape
  cases hshort : short c with
  | some d =>
    have hc : c.toNat < 0x10000 := by
      unfold short at hshort
      split at hshort <;> first | decide | cases hshort
    rw [unitsOf_of_lt hc]
    exact literalFrom_short hshort rest
  | none =>
    dsimp only
    split
    · rename_i h
      rw [unitsOf_of_lt (by omega)]
      exact literalFrom_cons hshort rest
    · exact literalFrom_flatMap (fun _ => lt_of_mem_unitsOf) rest

theorem literalFrom_dumps (s rest : List Char) :
    literalFrom (s.flatMap escape ++ '"' :: rest) = some (units s, rest) := by
  induction s with
  | nil => exact literalFrom.eq_2 rest
  | cons c s ih =>
    rw [List.flatMap_cons, List.append_assoc, literalFrom_escape, ih]
    rfl

theorem literal_dumps (s rest : List Char) : literal (dumps s ++ rest) = some (units s, rest) := by
  rw [dumps, List.cons_append, List.append_assoc]
  exact literalFrom_dumps s rest

/-! ## Dictionaries -/

theorem blanks_dumps (s rest : List Char) : blanks (dumps s ++ rest) = dumps s ++ rest := rfl

theorem item_dumpsItem (e : List Char × List Char) (rest : List Char) :
    item (dumpsItem e ++ rest) = some ((units e.1, units e.2), blanks rest) := by
  have hcolon : blanks (':' :: ' ' :: dumps e.2 ++ rest) = ':' :: ' ' :: (dumps e.2 ++ rest) := rfl
  have hvalue : blanks (' ' :: (dumps e.2 ++ rest)) = dumps e.2 ++ rest := rfl
  rw [item, dumpsItem, List.append_assoc, blanks_dumps, literal_dumps]
  simp only [Option.bind_eq_bind, Option.bind_some, hcolon, hvalue, literal_dumps]
  rfl

theorem intercalate_cons {α : Type} (sep x : List α) (xs : List (List α)) :
    sep.intercalate (x :: xs) = x ++ xs.flatMap (sep ++ ·) := by
  induction xs generalizing x with
  | nil => simp [List.intercalate]
  | cons y ys ih =>
    have h := ih y
    simp only [List.intercalate] at h ⊢
    rw [List.intersperse_cons_cons, List.flatten_cons, List.flatten_cons, h, List.flatMap_cons,
      List.append_assoc]

/-- What Python has of an item. -/
def received (e : List Char × List Char) : List Nat × List Nat := (units e.1, units e.2)

theorem items_dumps {n : Nat} (e : List Char × List Char) (es : List (List Char × List Char))
    (hn : es.length < n) :
    items n (dumpsItem e ++ (es.flatMap (fun e => ", ".toList ++ dumpsItem e) ++ ['}'])) =
      some ((e :: es).map received, []) := by
  induction es generalizing e n with
  | nil =>
    obtain ⟨n, rfl⟩ : ∃ m, n = m + 1 := ⟨n - 1, by omega⟩
    rw [items, item_dumpsItem]
    rfl
  | cons f fs ih =>
    obtain ⟨n, rfl⟩ : ∃ m, n = m + 1 := ⟨n - 1, by omega⟩
    have htail := ih f (n := n) (by simpa using hn)
    rw [List.flatMap_cons, List.append_assoc, List.append_assoc, items, item_dumpsItem]
    -- the blank behind the comma is the next item's to skip
    have hblank : ∀ t, items n (' ' :: t) = items n t := by
      intro t
      cases n <;> rfl
    exact (congrArg (Option.bind · _) ((hblank _).trans htail)).trans rfl

theorem length_dumpsItem (e : List Char × List Char) : 0 < (dumpsItem e).length := by
  simp [dumpsItem, dumps]

theorem length_le_flatMap {α β : Type} {f : α → List β} (hf : ∀ a, 0 < (f a).length) (l : List α) :
    l.length ≤ (l.flatMap f).length := by
  induction l with
  | nil => exact Nat.le_refl _
  | cons a l ih =>
    rw [List.length_cons, List.flatMap_cons, List.length_append]
    have := hf a
    omega

theorem dict_dumpsDict (d : List (List Char × List Char)) :
    dict (dumpsDict d) = some (d.map received) := by
  cases d with
  | nil => rfl
  | cons e es =>
    have htext : (", ".toList).intercalate ((e :: es).map dumpsItem) ++ ['}'] =
        dumpsItem e ++ (es.flatMap (fun e => ", ".toList ++ dumpsItem e) ++ ['}']) := by
      rw [List.map_cons, intercalate_cons, List.flatMap_map, List.append_assoc]
    have hlen : es.length < (dumpsItem e ++
        (es.flatMap (fun e => ", ".toList ++ dumpsItem e) ++ ['}'])).length := by
      have := length_le_flatMap (f := fun e => ", ".toList ++ dumpsItem e) (by simp) es
      have := length_dumpsItem e
      simp only [List.length_append, List.length_singleton]
      omega
    have hitems := items_dumps e es hlen
    obtain ⟨rest, hrest⟩ : ∃ rest, dumpsItem e ++
        (es.flatMap (fun e => ", ".toList ++ dumpsItem e) ++ ['}']) = '"' :: rest := ⟨_, rfl⟩
    rw [dumpsDict, htext]
    rw [hrest] at hitems ⊢
    have hdict : dict ('{' :: '"' :: rest) =
        match items ('"' :: rest).length ('"' :: rest) with
        | some (es, []) => some es
        | _ => none := rfl
    rw [hdict, hitems]

/-! ## One line -/

theorem newline_not_mem_escape (c : Char) : '\n' ∉ escape c := by
  have hhex : ∀ n, hexDigit n ≠ '\n' := by
    intro n
    have hall : ∀ k < 16, "0123456789abcdef".toList.getD k '0' ≠ '\n' := by decide
    exact hall _ (Nat.mod_lt _ (by decide))
  unfold escape
  cases hshort : short c with
  | some d =>
    unfold short at hshort
    split at hshort <;> first | decide | cases hshort <;> decide
  | none =>
    dsimp only
    split
    · rename_i h
      rw [List.mem_singleton]
      rintro rfl
      exact absurd h.1 (by decide)
    · intro hmem
      obtain ⟨n, -, hn⟩ := List.mem_flatMap.mp hmem
      simp [escaped, Ne.symm (hhex _)] at hn

theorem newline_not_mem_dumps (s : List Char) : '\n' ∉ dumps s := by
  simp [dumps, newline_not_mem_escape]

/-- **A dictionary is one line.** -/
theorem newline_not_mem_dumpsDict (d : List (List Char × List Char)) : '\n' ∉ dumpsDict d := by
  cases d with
  | nil => decide
  | cons e es =>
    rw [dumpsDict, List.map_cons, intercalate_cons]
    simp [dumpsItem, newline_not_mem_dumps]

/-! ## Units and characters -/

/-- The first unit of a character that has two is none of it. -/
theorem unitsOf_of_le (h : 0x10000 ≤ c.toNat) :
    ∃ n m, unitsOf c = [n, m] ∧ 0xd800 ≤ n ∧ n < 0xdc00 := by
  refine ⟨_, _, if_neg (by omega), by omega, ?_⟩
  have := toNat_lt c
  omega

theorem units_eq_iff : units s = s.map Char.toNat ↔ OneUnit s := by
  induction s with
  | nil => simp [units, OneUnit]
  | cons c s ih =>
    rw [OneUnit, List.forall_mem_cons, ← OneUnit, ← ih, units, List.flatMap_cons, List.map_cons]
    by_cases hc : c.toNat < 0x10000
    · rw [unitsOf_of_lt hc, List.singleton_append, List.cons.injEq]
      simp [hc, units]
    · obtain ⟨n, m, heq, -, hn⟩ := unitsOf_of_le (Nat.le_of_not_lt hc)
      rw [heq, List.cons_append, List.cons.injEq]
      constructor
      · rintro ⟨rfl, -⟩
        omega
      · exact fun h => absurd h.1 hc

theorem chars_map (s : List Char) : chars (s.map Char.toNat) = some s := by
  induction s with
  | nil => rfl
  | cons c s ih =>
    have hc : (if c.toNat.isValidChar then some (Char.ofNat c.toNat) else none) = some c := by
      rw [if_pos (show c.toNat.isValidChar from c.valid), Char.ofNat_toNat]
    simp only [chars, List.map_cons, List.mapM_cons, hc] at ih ⊢
    rw [ih]
    rfl

theorem chars_eq_none {us : List Nat} {n : Nat} (hn : n ∈ us) (h : ¬n.isValidChar) :
    chars us = none := by
  induction us with
  | nil => cases hn
  | cons m us ih =>
    rw [chars, List.mapM_cons]
    rcases List.mem_cons.mp hn with rfl | hn
    · rw [if_neg h]
      rfl
    · have htail := ih hn
      rw [chars] at htail
      rw [htail]
      cases (if m.isValidChar then some (Char.ofNat m) else none) <;> rfl

/-- What arrives can be encoded if no character needs two units, and is the text then. -/
theorem chars_units (s : List Char) :
    chars (units s) = if OneUnit s then some s else none := by
  split
  · rename_i h
    rw [units_eq_iff.mpr h, chars_map]
  · rename_i h
    obtain ⟨c, hc⟩ := not_forall.mp h
    obtain ⟨hc, hle⟩ := Classical.not_imp.mp hc
    obtain ⟨n, m, heq, hn, hlt⟩ := unitsOf_of_le (Nat.le_of_not_lt hle)
    have hmem : n ∈ units s := List.mem_flatMap.mpr ⟨c, hc, by simp [heq]⟩
    refine chars_eq_none hmem ?_
    rw [Nat.isValidChar]
    omega

end Infra.Literal
