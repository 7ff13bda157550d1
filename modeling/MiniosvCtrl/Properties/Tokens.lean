import MiniosvCtrl.Cov.Decode
import MiniosvCtrl.Infra.Lists

/-!
# The run-length layer of a coverage dump

A token is a byte other than zero, or a run of zeros with its length in four bytes, the least
significant first. The length's bytes may be zero too; nothing but the reader's position says what
a byte is.

* `Token`, `serialise`, `expansion`
* `parse` — the tokens of any bytes, as far as they are whole
* `loop_serialise` — the loop undoes the serialisation
* `unambiguous` — of any bytes it makes what their only tokens stand for, or the last run is cut off
-/

namespace Cov

open Infra

/-! ## Tokens -/

inductive Token
  | byte (b : UInt8) (ne_zero : b ≠ 0)
  /-- So many zeros. -/
  | run (n : UInt32)

/-- A number as four bytes, the least significant first. -/
def littleEndian (n : UInt32) : List UInt8 :=
  [UInt8.ofNat n.toNat, UInt8.ofNat (n.toNat / 2 ^ 8), UInt8.ofNat (n.toNat / 2 ^ 16),
    UInt8.ofNat (n.toNat / 2 ^ 24)]

namespace Token

def bytes : Token → List UInt8
  | byte b _ => [b]
  | run n => 0 :: littleEndian n

def expand : Token → List UInt8
  | byte b _ => [b]
  | run n => List.replicate n.toNat 0

end Token

def serialise (ts : List Token) : List UInt8 := ts.flatMap Token.bytes

def expansion (ts : List Token) : List UInt8 := ts.flatMap Token.expand

@[simp] theorem serialise_nil : serialise [] = [] := rfl

@[simp] theorem serialise_cons (t : Token) (ts : List Token) :
    serialise (t :: ts) = t.bytes ++ serialise ts := rfl

@[simp] theorem expansion_nil : expansion [] = [] := rfl

@[simp] theorem expansion_cons (t : Token) (ts : List Token) :
    expansion (t :: ts) = t.expand ++ expansion ts := rfl

/-! ## Lengths -/

/-- The number that four bytes stand for. -/
def word (a b c d : UInt8) : UInt32 :=
  UInt32.ofNat (a.toNat + 2 ^ 8 * b.toNat + 2 ^ 16 * c.toNat + 2 ^ 24 * d.toNat)

theorem toNat_word (a b c d : UInt8) : (word a b c d).toNat =
    a.toNat + 2 ^ 8 * b.toNat + 2 ^ 16 * c.toNat + 2 ^ 24 * d.toNat := by
  have ha := a.toNat_lt
  have hb := b.toNat_lt
  have hc := c.toNat_lt
  have hd := d.toNat_lt
  rw [word, UInt32.toNat_ofNat_of_lt']
  simp only [UInt32.size]
  omega

theorem ofNat_eq_iff {a : UInt8} {n : Nat} : UInt8.ofNat n = a ↔ n % 2 ^ 8 = a.toNat := by
  rw [← UInt8.toNat_inj, UInt8.toNat_ofNat']

theorem littleEndian_word (a b c d : UInt8) : littleEndian (word a b c d) = [a, b, c, d] := by
  have ha := a.toNat_lt
  have hb := b.toNat_lt
  have hc := c.toNat_lt
  have hd := d.toNat_lt
  have hn := toNat_word a b c d
  rw [littleEndian, (ofNat_eq_iff (a := a)).mpr (by omega), (ofNat_eq_iff (a := b)).mpr (by omega),
    (ofNat_eq_iff (a := c)).mpr (by omega), (ofNat_eq_iff (a := d)).mpr (by omega)]

theorem word_littleEndian (n : UInt32) : word (UInt8.ofNat n.toNat) (UInt8.ofNat (n.toNat / 2 ^ 8))
    (UInt8.ofNat (n.toNat / 2 ^ 16)) (UInt8.ofNat (n.toNat / 2 ^ 24)) = n := by
  have hn := n.toNat_lt
  rw [← UInt32.toNat_inj, toNat_word]
  simp only [UInt8.toNat_ofNat']
  omega

/-! ## The loop, token by token -/

section Loop

variable {pre rest out : List UInt8}

theorem loop_end (rle out : List UInt8) : loop rle rle.length out = some out := by
  rw [loop, dif_neg (Nat.lt_irrefl _)]

theorem loop_byte {b : UInt8} (hb : b ≠ 0) : loop (pre ++ b :: rest) pre.length out =
    loop (pre ++ b :: rest) (pre.length + 1) (out ++ [b]) := by
  have hlt : pre.length < (pre ++ b :: rest).length := by simp
  have hget : (pre ++ b :: rest)[pre.length] = b := by simp
  rw [loop, dif_pos hlt, hget, if_pos hb]

theorem loop_run (a b c d : UInt8) : loop (pre ++ 0 :: a :: b :: c :: d :: rest) pre.length out =
    loop (pre ++ 0 :: a :: b :: c :: d :: rest) (pre.length + 5)
      (out ++ List.replicate (word a b c d).toNat 0) := by
  have hlt : pre.length < (pre ++ 0 :: a :: b :: c :: d :: rest).length := by simp
  have hget : (pre ++ 0 :: a :: b :: c :: d :: rest)[pre.length] = 0 := by simp
  have hunpack : unpackFrom (pre ++ 0 :: a :: b :: c :: d :: rest) (pre.length + 1) =
      some (word a b c d).toNat := by
    rw [unpackFrom, List.drop_append, List.drop_of_length_le (by omega), toNat_word]
    simp
  rw [loop, dif_pos hlt, hget, if_neg (by simp), hunpack]

theorem loop_cutOff {tail : List UInt8} (htail : tail.length < 4) :
    loop (pre ++ 0 :: tail) pre.length out = none := by
  have hlt : pre.length < (pre ++ 0 :: tail).length := by simp
  have hget : (pre ++ 0 :: tail)[pre.length] = 0 := by simp
  have hdrop : (pre ++ 0 :: tail).drop (pre.length + 1) = tail := by
    rw [List.drop_append, List.drop_of_length_le (by omega)]
    simp
  have hunpack : unpackFrom (pre ++ 0 :: tail) (pre.length + 1) = none := by
    rw [unpackFrom, hdrop]
    match tail, htail with
    | [], _ | [_], _ | [_, _], _ | [_, _, _], _ => rfl
  rw [loop, dif_pos hlt, hget, if_neg (by simp), hunpack]

/-- **After whole tokens the loop stands at the next one.** -/
theorem loop_tokens (ts : List Token) : loop (pre ++ (serialise ts ++ rest)) pre.length out =
    loop (pre ++ (serialise ts ++ rest)) (pre.length + (serialise ts).length)
      (out ++ expansion ts) := by
  induction ts generalizing pre out with
  | nil => simp
  | cons t ts ih =>
    cases t with
    | byte b hb =>
      have hnext := @ih (pre ++ [b]) (out ++ [b])
      rw [List.append_assoc, List.length_append, List.length_singleton] at hnext
      show loop (pre ++ b :: (serialise ts ++ rest)) pre.length out = _
      have hlength : pre.length + 1 + (serialise ts).length =
          pre.length + (serialise (.byte b hb :: ts)).length := by
        rw [serialise_cons, List.length_append, Nat.add_assoc]
        rfl
      rw [loop_byte hb]
      refine hnext.trans ?_
      rw [hlength]
      simp [Token.bytes, Token.expand]
    | run n =>
      have hnext := @ih (pre ++ 0 :: littleEndian n)
        (out ++ List.replicate n.toNat 0)
      -- a run takes a zero byte and four of its length
      have hpre : (pre ++ 0 :: littleEndian n).length = pre.length + 5 := by
        simp [littleEndian]
      have hlength : pre.length + 5 + (serialise ts).length =
          pre.length + (serialise (.run n :: ts)).length := by
        rw [serialise_cons, List.length_append, Nat.add_assoc]
        rfl
      rw [List.append_assoc, hpre] at hnext
      show loop (pre ++ 0 :: _ :: _ :: _ :: _ :: (serialise ts ++ rest)) pre.length out = _
      rw [loop_run, word_littleEndian]
      refine hnext.trans ?_
      rw [hlength]
      simp [Token.bytes, Token.expand, littleEndian]

end Loop

/-- **The loop undoes the serialisation.** -/
theorem loop_serialise (ts : List Token) : loop (serialise ts) 0 [] = some (expansion ts) := by
  have h := @loop_tokens [] [] [] ts
  rw [List.append_nil, List.nil_append, List.length_nil, Nat.zero_add, List.nil_append] at h
  rw [h, loop_end]

/-- Bytes that end within a run. -/
def CutOff (bytes : List UInt8) : Prop :=
  ∃ ts tail, bytes = serialise ts ++ 0 :: tail ∧ tail.length < 4

theorem loop_of_cutOff {bytes : List UInt8} (h : CutOff bytes) : loop bytes 0 [] = none := by
  obtain ⟨ts, tail, rfl, htail⟩ := h
  have h := @loop_tokens [] (0 :: tail) [] ts
  rw [List.nil_append, List.length_nil, Nat.zero_add, List.nil_append] at h
  rw [h, loop_cutOff htail]

/-! ## The tokens of any bytes -/

/-- Any bytes are whole tokens, or end within a run. -/
theorem tokens_or_cutOff (bytes : List UInt8) :
    (∃ ts, serialise ts = bytes) ∨ CutOff bytes := by
  induction hn : bytes.length using Nat.strongRecOn generalizing bytes with
  | ind n ih =>
    cases bytes with
    | nil => exact .inl ⟨[], rfl⟩
    | cons b rest =>
      by_cases hb : b = 0
      -- a zero with fewer than four bytes after it is a run that is cut off
      · subst hb
        match rest, hn with
        | [], _ => exact .inr ⟨[], [], rfl, by simp⟩
        | [a], _ => exact .inr ⟨[], [a], rfl, by simp⟩
        | [a, b], _ => exact .inr ⟨[], [a, b], rfl, by simp⟩
        | [a, b, c], _ => exact .inr ⟨[], [a, b, c], rfl, by simp⟩
        | a :: b :: c :: d :: rest, hn =>
          have hrun : (0 :: a :: b :: c :: d :: rest : List UInt8) =
              (Token.run (word a b c d)).bytes ++ rest := by
            rw [Token.bytes, littleEndian_word]
            rfl
          have hlt : rest.length < n := by
            rw [← hn]
            simp only [List.length_cons]
            omega
          rw [hrun]
          rcases ih rest.length hlt rest rfl with ⟨ts, rfl⟩ | ⟨ts, tail, rfl, htail⟩
          · exact .inl ⟨.run (word a b c d) :: ts, rfl⟩
          · exact .inr ⟨.run (word a b c d) :: ts, tail, by simp, htail⟩
      · have hlt : rest.length < n := by
          rw [← hn]
          exact Nat.lt_succ_self _
        rcases ih rest.length hlt rest rfl with ⟨ts, rfl⟩ | ⟨ts, tail, rfl, htail⟩
        · exact .inl ⟨.byte b hb :: ts, rfl⟩
        · exact .inr ⟨.byte b hb :: ts, tail, rfl, htail⟩

theorem littleEndian_inj {m n : UInt32} (h : littleEndian m = littleEndian n) : m = n := by
  have hm := word_littleEndian m
  have hn := word_littleEndian n
  rw [littleEndian, littleEndian] at h
  simp only [List.cons.injEq, and_true] at h
  rw [h.1, h.2.1, h.2.2.1, h.2.2.2] at hm
  exact hm.symm.trans hn

/-- No two token lists have the same bytes. -/
theorem serialise_inj {ts us : List Token} (h : serialise ts = serialise us) : ts = us := by
  induction ts generalizing us with
  | nil =>
    cases us with
    | nil => rfl
    | cons u us => cases u <;> cases h
  | cons t ts ih =>
    cases us with
    | nil => cases t <;> cases h
    | cons u us =>
      rw [serialise_cons, serialise_cons] at h
      cases t with
      | byte b hb =>
        cases u with
        | byte c hc =>
          obtain ⟨hbyte, htail⟩ := List.cons.inj (show b :: serialise ts = c :: serialise us from h)
          subst hbyte
          rw [ih htail]
        | run n => exact absurd (List.cons.inj h).1 hb
      | run m =>
        cases u with
        | byte c hc => exact absurd (List.cons.inj h).1.symm hc
        | run n =>
          obtain ⟨hword, h⟩ := List.append_inj (List.cons.inj h).2 rfl
          rw [littleEndian_inj hword, ih h]

/-! ## `decode` -/

section Decode

variable {B : Builtins} {texts : List (List Char)} {out : List UInt8}

theorem orRaise_eq_ok {α : Type} {e : Raised} {o : Option α} {a : α}
    (h : orRaise e o = .ok a) : o = some a := by
  cases o with
  | none => cases h
  | some b => rw [Except.ok.inj h]

theorem length_undo {lines : List (Nat × List Char)} {end_ want : Nat}
    (h : undo lines end_ want = .ok out) : out.length = want := by
  obtain ⟨rle, -, h⟩ := ok_of_bind h
  obtain ⟨out', -, h⟩ := ok_of_bind h
  split at h
  · cases h
  · rename_i hlength
    rw [← Except.ok.inj h]
    exact Decidable.not_not.mp hlength

/-- What is returned is as long as the guest announced. -/
theorem length_decode (h : decode B texts = .ok out) :
    announced B (begins B) texts = some (some out.length) := by
  obtain ⟨lines, -, h⟩ := ok_of_bind h
  obtain ⟨want, hwant, h⟩ := ok_of_bind h
  obtain ⟨end_, -, h⟩ := ok_of_bind h
  obtain ⟨last, -, h⟩ := ok_of_bind h
  obtain ⟨raw, hraw, h⟩ := ok_of_bind h
  rw [orRaise_eq_ok hwant, orRaise_eq_ok hraw]
  split at h
  · cases h
  · rw [length_undo h]

end Decode

/-- The run-length layer can be read in one way only. -/
structure Unambiguous (B : Builtins) : Prop where
  /-- A token list is expanded. -/
  tokens : ∀ ts, loop (serialise ts) 0 [] = some (expansion ts)
  /-- Any bytes are those of one token list, which is expanded, or are rejected, cut off in a
  run. -/
  bytes : ∀ l, (∃ ts, serialise ts = l ∧ (∀ us, serialise us = l → us = ts) ∧
      loop l 0 [] = some (expansion ts)) ∨
    ((∀ ts, serialise ts ≠ l) ∧ CutOff l ∧ loop l 0 [] = none)
  /-- `decode` returns only what is as long as was announced. -/
  length : ∀ texts out, decode B texts = .ok out →
    announced B (begins B) texts = some (some out.length)

/-- **The run-length layer is unambiguous.** -/
theorem unambiguous (B : Builtins) : Unambiguous B where
  tokens := loop_serialise
  bytes := by
    intro l
    rcases tokens_or_cutOff l with ⟨ts, rfl⟩ | hcut
    · exact .inl ⟨ts, rfl, fun us h => serialise_inj h, loop_serialise ts⟩
    · refine .inr ⟨?_, hcut, loop_of_cutOff hcut⟩
      rintro ts rfl
      have hsome := loop_serialise ts
      rw [loop_of_cutOff hcut] at hsome
      cases hsome
  length := fun _ _ h => length_decode h

end Cov
