import Mathlib.Data.List.Basic

/-!
# UTF-8

Python's two ways to decode bytes, over the encoding of a character and its inverse in Lean's own
library: the strict one, which fails on bytes that are not UTF-8, and the one that puts U+FFFD in
place of what it cannot decode.

* `encode`, `decode` — `s.encode()`, `b.decode()`
* `decodeReplace` — `b.decode(errors="replace")`
* `decode_encode_append`, `decode_append_encode` — bytes with a text before or after them decode
  exactly if they do
* `decodeReplace_encode` — the encoding of a text comes back whole
-/

namespace Infra.Utf8

/-- `s.encode()` -/
def encode (s : List Char) : List UInt8 := s.flatMap String.utf8EncodeChar

/-- `b.decode()`; `none` is a `UnicodeDecodeError`. -/
def decode (b : List UInt8) : Option (List Char) := b.toByteArray.utf8Decode?.map Array.toList

/-- `10xxxxxx` -/
def isTail (x : UInt8) : Bool := 0x80 ≤ x && x ≤ 0xbf

/-- `x` may follow the first byte `a` of a character of three or four bytes. -/
def isSecond (a x : UInt8) : Bool :=
  if a = 0xe0 then 0xa0 ≤ x && x ≤ 0xbf
  else if a = 0xed then 0x80 ≤ x && x ≤ 0x9f
  else if a = 0xf0 then 0x90 ≤ x && x ≤ 0xbf
  else if a = 0xf4 then 0x80 ≤ x && x ≤ 0x8f
  else isTail x

/-- How many bytes one U+FFFD stands for: as many as could begin a character. -/
def badLength : List UInt8 → Nat
  | a :: x :: y :: _ =>
    if 0xe0 ≤ a && a ≤ 0xf4 && isSecond a x then
      if 0xf0 ≤ a && isTail y then 3 else 2
    else 1
  | [a, x] => if 0xe0 ≤ a && a ≤ 0xf4 && isSecond a x then 2 else 1
  | _ => 1

/-- What the bytes decode to but for the first of them, which belong to a character before. -/
def replaceFrom : Nat → List UInt8 → List Char
  | _, [] => []
  | n + 1, _ :: b => replaceFrom n b
  | 0, x :: b =>
    match (x :: b).toByteArray.utf8DecodeChar? 0 with
    | some c => c :: replaceFrom (c.utf8Size - 1) b
    | none => '\uFFFD' :: replaceFrom (badLength (x :: b) - 1) b

/-- `b.decode(errors="replace")` -/
def decodeReplace (b : List UInt8) : List Char := replaceFrom 0 b

variable {s t : List Char} {b : List UInt8} {c : Char}

/-! ## The encoding of a text -/

theorem encode_cons : encode (c :: s) = String.utf8EncodeChar c ++ encode s :=
  List.flatMap_cons

theorem encode_append : encode (s ++ t) = encode s ++ encode t :=
  List.flatMap_append

theorem toByteArray_encode : (encode s).toByteArray = s.utf8Encode := rfl

theorem decode_encode : decode (encode s) = some s := by
  rw [decode, toByteArray_encode, List.utf8Decode?_utf8Encode]
  rfl

/-- **Bytes decode to a text exactly if they are its encoding.** -/
theorem decode_eq_some_iff : decode b = some s ↔ b = encode s := by
  constructor
  · intro h
    have hsome : b.toByteArray.utf8Decode?.isSome = true := by
      obtain ⟨a, ha, -⟩ := Option.map_eq_some_iff.mp h
      rw [ha]
      rfl
    obtain ⟨t, ht⟩ := ByteArray.isSome_utf8Decode?_iff.mp hsome
    have hb : b = encode t := List.toByteArray_inj.mp ht
    rw [hb, decode_encode] at h
    rw [hb, Option.some_inj.mp h]
  · rintro rfl
    exact decode_encode

/-! ## Bytes beside a text -/

theorem prefix_of_encode (h : encode s ++ b = encode t) : s <+: t := by
  refine List.isPrefix_of_utf8Encode_append_eq_utf8Encode b.toByteArray ?_
  rw [← toByteArray_encode, ← toByteArray_encode, ← h, List.toByteArray_append]

/-- What follows a text in an encoding is an encoding. -/
theorem exists_of_encode_append (h : encode s ++ b = encode t) :
    ∃ u, b = encode u ∧ t = s ++ u := by
  obtain ⟨u, rfl⟩ := prefix_of_encode h
  rw [encode_append] at h
  exact ⟨u, List.append_cancel_left h, rfl⟩

/-- No byte of a character but its first can begin a text. -/
theorem eq_nil_of_utf8EncodeChar {x y z : List UInt8} (h : String.utf8EncodeChar c = x ++ y)
    (hy : y ≠ []) (hs : encode s = y ++ z) : x = [] := by
  obtain ⟨a, y, rfl⟩ := List.exists_cons_of_ne_nil hy
  cases s with
  | nil => cases hs
  | cons d s =>
    have hlength : x.length < (String.utf8EncodeChar c).length := by
      rw [h, List.length_append, List.length_cons]
      omega
    have hbyte : (String.utf8EncodeChar c)[x.length] = a := by
      simp only [h, List.getElem_append_right (Nat.le_refl _), Nat.sub_self, List.getElem_cons_zero]
    have hfirst : a.IsUTF8FirstByte := by
      obtain ⟨e, l, hd⟩ := List.exists_cons_of_ne_nil (@String.utf8EncodeChar_ne_nil d)
      have hzero : 0 < (String.utf8EncodeChar d).length := by rw [hd]; exact Nat.succ_pos _
      have ha : (String.utf8EncodeChar d)[0] = a := by
        rw [encode_cons, hd] at hs
        simp only [hd, List.getElem_cons_zero]
        exact (List.cons.inj hs).1
      exact ha ▸ UInt8.isUTF8FirstByte_getElem_utf8EncodeChar.mpr rfl
    exact List.length_eq_zero_iff.mp
      (UInt8.isUTF8FirstByte_getElem_utf8EncodeChar.mp (hbyte.symm ▸ hfirst))

/-- What precedes a text in an encoding is an encoding. -/
theorem exists_of_append_encode (h : b ++ encode s = encode t) :
    ∃ u, b = encode u ∧ t = u ++ s := by
  -- The text begins between two characters, as its first byte is no other byte of a character.
  have hencode : ∃ u, b = encode u := by
    induction t generalizing b with
    | nil => exact ⟨[], (List.append_eq_nil_iff.mp h).1⟩
    | cons c t ih =>
      rw [encode_cons] at h
      rcases List.append_eq_append_iff.mp h with ⟨y, hchar, hs⟩ | ⟨b', rfl, ht⟩
      · by_cases hy : y = []
        · rw [hy, List.append_nil] at hchar
          exact ⟨[c], by rw [← hchar, encode_cons]; exact (List.append_nil _).symm⟩
        · exact ⟨[], eq_nil_of_utf8EncodeChar hchar hy hs⟩
      · obtain ⟨u, rfl⟩ := ih ht.symm
        exact ⟨c :: u, encode_cons.symm⟩
  obtain ⟨u, rfl⟩ := hencode
  rw [← encode_append] at h
  exact ⟨u, rfl, Option.some_inj.mp (by rw [← decode_encode, ← decode_encode, h])⟩

/-- A byte of a character that is zero is the character. -/
theorem eq_of_zero_mem (h : 0 ∈ String.utf8EncodeChar c) : c = '\x00' := by
  obtain ⟨i, hi, hzero⟩ := List.mem_iff_getElem.mp h
  have hfirst : (String.utf8EncodeChar c)[i].IsUTF8FirstByte := by
    rw [hzero]
    decide
  obtain rfl := UInt8.isUTF8FirstByte_getElem_utf8EncodeChar.mp hfirst
  obtain ⟨x, l, hc⟩ := List.exists_cons_of_ne_nil (@String.utf8EncodeChar_ne_nil c)
  obtain rfl : x = 0 := by simpa [hc] using hzero
  have hencode : encode ['\x00'] ++ l = encode [c] := by
    rw [encode_cons (c := c), hc]
    exact (List.append_nil _).symm
  obtain ⟨u, hu⟩ := prefix_of_encode hencode
  exact (List.cons.inj hu).1.symm

theorem decode_encode_append : decode (encode s ++ b) = (decode b).map (s ++ ·) := by
  refine Option.ext fun t => ?_
  rw [decode_eq_some_iff, Option.map_eq_some_iff]
  constructor
  · intro h
    obtain ⟨u, rfl, rfl⟩ := exists_of_encode_append h
    exact ⟨u, decode_encode, rfl⟩
  · rintro ⟨u, hu, rfl⟩
    rw [decode_eq_some_iff.mp hu, encode_append]

theorem decode_append_encode : decode (b ++ encode s) = (decode b).map (· ++ s) := by
  refine Option.ext fun t => ?_
  rw [decode_eq_some_iff, Option.map_eq_some_iff]
  constructor
  · intro h
    obtain ⟨u, rfl, rfl⟩ := exists_of_append_encode h
    exact ⟨u, decode_encode, rfl⟩
  · rintro ⟨u, hu, rfl⟩
    rw [decode_eq_some_iff.mp hu, encode_append]

/-! ## Replacement -/

theorem replaceFrom_append (x : List UInt8) : replaceFrom x.length (x ++ b) = replaceFrom 0 b := by
  induction x with
  | nil => rfl
  | cons a x ih => exact ih

theorem decodeReplace_utf8EncodeChar :
    decodeReplace (String.utf8EncodeChar c ++ b) = c :: decodeReplace b := by
  obtain ⟨x, l, hc⟩ := List.exists_cons_of_ne_nil (@String.utf8EncodeChar_ne_nil c)
  have hchar : (x :: (l ++ b)).toByteArray.utf8DecodeChar? 0 = some c := by
    rw [← List.cons_append, ← hc, List.toByteArray_append]
    exact ByteArray.utf8DecodeChar?_utf8EncodeChar_append
  have hsize : c.utf8Size - 1 = l.length := by
    rw [← String.length_utf8EncodeChar, hc]
    rfl
  rw [hc, List.cons_append, decodeReplace, replaceFrom, hchar]
  show c :: replaceFrom (c.utf8Size - 1) (l ++ b) = _
  rw [hsize, replaceFrom_append]
  rfl

theorem decodeReplace_encode : decodeReplace (encode s) = s := by
  induction s with
  | nil => rfl
  | cons c s ih => rw [encode_cons, decodeReplace_utf8EncodeChar, ih]

end Infra.Utf8
