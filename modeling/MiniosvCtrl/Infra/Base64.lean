import Mathlib.Data.UInt

/-!
# Base64

The encoding with padding, and the lenient decoder: a character outside the alphabet is passed
over, and whatever follows a complete padding.

* `encode`, `decode`
* `decode_encode` — one after the other
* `length_of_sublist` — with characters missing, less comes out or nothing
-/

namespace Infra.Base64

/-! ## The alphabet -/

def alphabet : List Char :=
  "ABCDEFGHIJKLMNOPQRSTUVWXYZabcdefghijklmnopqrstuvwxyz0123456789+/".toList

/-- The character for six bits. -/
def letter (v : Nat) : Char := alphabet.getD v 'A'

/-- The six bits of a character. -/
def value (c : Char) : Option Nat :=
  if c.isUpper then some (c.toNat - 65)
  else if c.isLower then some (c.toNat - 71)
  else if c.isDigit then some (c.toNat + 4)
  else if c = '+' then some 62
  else if c = '/' then some 63
  else none

theorem value_letter {v : Nat} (h : v < 64) : value (letter v) = some v := by
  have hchars : alphabet = _ := String.toList_ofList
  have hall : ∀ i : Fin 64, value (letter i) = some i.val := by
    simp only [letter, hchars]
    decide +kernel
  exact hall ⟨v, h⟩

theorem value_pad : value '=' = none := by decide

/-- A character that stands for six bits. -/
def isData (c : Char) : Bool := (value c).isSome

theorem isData_letter {v : Nat} (h : v < 64) : isData (letter v) = true := by
  rw [isData, value_letter h]
  rfl

/-! ## Encoding -/

def encode : List UInt8 → List Char
  | [] => []
  | [a] => [letter (a.toNat / 4), letter (a.toNat % 4 * 16), '=', '=']
  | [a, b] =>
    [letter (a.toNat / 4), letter (a.toNat % 4 * 16 + b.toNat / 16), letter (b.toNat % 16 * 4), '=']
  | a :: b :: c :: rest =>
    letter (a.toNat / 4) :: letter (a.toNat % 4 * 16 + b.toNat / 16) ::
      letter (b.toNat % 16 * 4 + c.toNat / 64) :: letter (c.toNat % 64) :: encode rest

/-! ## Decoding -/

/-- With `quad` characters of a quadruple read, whose bits that are left over are `left`, and so
many pads; `none`: the padding is not complete. -/
def decodeFrom : Nat → Nat → Nat → List Char → Option (List UInt8)
  | quad, _, _, [] => if quad = 0 then some [] else none
  | quad, left, pads, c :: cs =>
    if c = '=' then
      if quad < 2 then decodeFrom quad left pads cs
      else if 4 ≤ quad + (pads + 1) then some []
      else decodeFrom quad left (pads + 1) cs
    else
      match value c with
      | none => decodeFrom quad left pads cs
      | some v =>
        if quad = 0 then decodeFrom 1 v 0 cs
        else if quad = 1 then
          (decodeFrom 2 (v % 16) 0 cs).map (UInt8.ofNat (left * 4 + v / 16) :: ·)
        else if quad = 2 then
          (decodeFrom 3 (v % 4) 0 cs).map (UInt8.ofNat (left * 16 + v / 4) :: ·)
        else (decodeFrom 0 0 0 cs).map (UInt8.ofNat (left * 64 + v) :: ·)

/-- `base64.b64decode` -/
def decode (s : List Char) : Option (List UInt8) := decodeFrom 0 0 0 s

section

variable {quad left pads v : Nat} {cs : List Char}

/-- One character of data. -/
theorem decodeFrom_data {c : Char} (h : value c = some v) : decodeFrom quad left pads (c :: cs) =
    if quad = 0 then decodeFrom 1 v 0 cs
    else if quad = 1 then
      (decodeFrom 2 (v % 16) 0 cs).map (UInt8.ofNat (left * 4 + v / 16) :: ·)
    else if quad = 2 then
      (decodeFrom 3 (v % 4) 0 cs).map (UInt8.ofNat (left * 16 + v / 4) :: ·)
    else (decodeFrom 0 0 0 cs).map (UInt8.ofNat (left * 64 + v) :: ·) := by
  have hpad : c ≠ '=' := by
    rintro rfl
    rw [value_pad] at h
    cases h
  rw [decodeFrom, if_neg hpad, h]

theorem decodeFrom_zero {c : Char} (h : value c = some v) :
    decodeFrom 0 left pads (c :: cs) = decodeFrom 1 v 0 cs :=
  decodeFrom_data h

theorem decodeFrom_one {c : Char} (h : value c = some v) : decodeFrom 1 left pads (c :: cs) =
    (decodeFrom 2 (v % 16) 0 cs).map (UInt8.ofNat (left * 4 + v / 16) :: ·) :=
  decodeFrom_data h

theorem decodeFrom_two {c : Char} (h : value c = some v) : decodeFrom 2 left pads (c :: cs) =
    (decodeFrom 3 (v % 4) 0 cs).map (UInt8.ofNat (left * 16 + v / 4) :: ·) :=
  decodeFrom_data h

theorem decodeFrom_three {c : Char} (h : value c = some v) : decodeFrom 3 left pads (c :: cs) =
    (decodeFrom 0 0 0 cs).map (UInt8.ofNat (left * 64 + v) :: ·) :=
  decodeFrom_data h

theorem ofNat_eq {a : UInt8} {n : Nat} (h : n = a.toNat) : UInt8.ofNat n = a := by
  rw [h, UInt8.ofNat_toNat]

/-- **What was encoded is decoded.** -/
theorem decode_encode (bytes : List UInt8) : decode (encode bytes) = some bytes := by
  rw [decode]
  induction bytes using encode.induct with
  | case1 => rfl
  | case2 a =>
    have ha := a.toNat_lt
    rw [encode, decodeFrom_zero (value_letter (by omega)), decodeFrom_one (value_letter (by omega)),
      ofNat_eq (a := a) (by omega)]
    rfl
  | case3 a b =>
    have ha := a.toNat_lt
    have hb := b.toNat_lt
    rw [encode, decodeFrom_zero (value_letter (by omega)), decodeFrom_one (value_letter (by omega)),
      decodeFrom_two (value_letter (by omega)), ofNat_eq (a := a) (by omega),
      ofNat_eq (a := b) (by omega)]
    rfl
  | case4 a b c rest ih =>
    have ha := a.toNat_lt
    have hb := b.toNat_lt
    have hc := c.toNat_lt
    rw [encode, decodeFrom_zero (value_letter (by omega)), decodeFrom_one (value_letter (by omega)),
      decodeFrom_two (value_letter (by omega)), decodeFrom_three (value_letter (by omega)), ih,
      ofNat_eq (a := a) (by omega), ofNat_eq (a := b) (by omega), ofNat_eq (a := c) (by omega)]
    rfl

/-! ## Characters that are missing -/

/-- No more comes out than the characters stand for. -/
theorem length_decodeFrom {out : List UInt8} (hquad : quad < 4)
    (h : decodeFrom quad left pads cs = some out) :
    out.length + 3 * quad / 4 ≤ 3 * (quad + cs.countP isData) / 4 := by
  induction cs generalizing quad left pads out with
  | nil =>
    rw [decodeFrom] at h
    split at h
    · obtain rfl := Option.some_inj.mp h
      simp
    · cases h
  | cons c cs ih =>
    have hmono : cs.countP isData ≤ (c :: cs).countP isData :=
      (List.sublist_cons_self c cs).countP_le
    by_cases hpad : c = '='
    · rw [decodeFrom, if_pos hpad] at h
      split at h
      · have := ih hquad h
        omega
      · split at h
        · obtain rfl := Option.some_inj.mp h
          rw [List.length_nil]
          omega
        · have := ih hquad h
          omega
    · cases hv : value c with
      | none =>
        rw [decodeFrom, if_neg hpad, hv] at h
        have := ih hquad h
        omega
      | some v =>
        have hcount : (c :: cs).countP isData = cs.countP isData + 1 :=
          List.countP_cons_of_pos (by rw [isData, hv]; rfl)
        rw [hcount]
        -- a byte comes out with each character of a quad but the first
        have hcases : quad = 0 ∨ quad = 1 ∨ quad = 2 ∨ quad = 3 := by omega
        rcases hcases with rfl | rfl | rfl | rfl
        · have := ih (by decide) ((decodeFrom_zero hv).symm.trans h)
          omega
        · obtain ⟨tail, htail, rfl⟩ := Option.map_eq_some_iff.mp ((decodeFrom_one hv).symm.trans h)
          have := ih (by decide) htail
          rw [List.length_cons]
          omega
        · obtain ⟨tail, htail, rfl⟩ := Option.map_eq_some_iff.mp ((decodeFrom_two hv).symm.trans h)
          have := ih (by decide) htail
          rw [List.length_cons]
          omega
        · obtain ⟨tail, htail, rfl⟩ :=
            Option.map_eq_some_iff.mp ((decodeFrom_three hv).symm.trans h)
          have := ih (by decide) htail
          rw [List.length_cons]
          omega

/-- Data, and what is missing of the padding: the characters of an encoding. -/
theorem encode_eq (bytes : List UInt8) :
    ∃ data pads, encode bytes = data ++ List.replicate pads '=' ∧ (∀ c ∈ data, isData c = true) ∧
      3 * data.length / 4 = bytes.length ∧ (data.length + pads) % 4 = 0 ∧ pads ≤ 2 := by
  induction bytes using encode.induct with
  | case1 => exact ⟨[], 0, rfl, fun _ h => absurd h List.not_mem_nil, rfl, rfl, by decide⟩
  | case2 a =>
    have ha := a.toNat_lt
    refine ⟨[letter (a.toNat / 4), letter (a.toNat % 4 * 16)], 2, rfl, ?_, by simp, by simp,
      by decide⟩
    simp [isData_letter (show a.toNat / 4 < 64 by omega),
      isData_letter (show a.toNat % 4 * 16 < 64 by omega)]
  | case3 a b =>
    have ha := a.toNat_lt
    have hb := b.toNat_lt
    refine ⟨[letter (a.toNat / 4), letter (a.toNat % 4 * 16 + b.toNat / 16),
      letter (b.toNat % 16 * 4)], 1, rfl, ?_, by simp, by simp, by decide⟩
    simp [isData_letter (show a.toNat / 4 < 64 by omega),
      isData_letter (show a.toNat % 4 * 16 + b.toNat / 16 < 64 by omega),
      isData_letter (show b.toNat % 16 * 4 < 64 by omega)]
  | case4 a b c rest ih =>
    have ha := a.toNat_lt
    have hb := b.toNat_lt
    have hc := c.toNat_lt
    obtain ⟨data, pads, hrest, hdata, hlength, hmod, hpads⟩ := ih
    refine ⟨letter (a.toNat / 4) :: letter (a.toNat % 4 * 16 + b.toNat / 16) ::
      letter (b.toNat % 16 * 4 + c.toNat / 64) :: letter (c.toNat % 64) :: data, pads, ?_, ?_, ?_,
      ?_, hpads⟩
    · rw [encode, hrest]
      rfl
    · simp only [List.forall_mem_cons]
      exact ⟨isData_letter (by omega), isData_letter (by omega), isData_letter (by omega),
        isData_letter (by omega), hdata⟩
    · simp only [List.length_cons]
      omega
    · simp only [List.length_cons]
      omega

/-- Pads complete a quadruple, or nothing comes out. -/
theorem decodeFrom_pads {n : Nat} (hquad : 2 ≤ quad) (hfew : quad + (pads + n) < 4) :
    decodeFrom quad left pads (List.replicate n '=') = none := by
  induction n generalizing pads with
  | zero =>
    rw [List.replicate_zero, decodeFrom, if_neg (by omega)]
  | succ n ih =>
    rw [List.replicate_succ, decodeFrom, if_pos rfl, if_neg (by omega), if_neg (by omega)]
    exact ih (by omega)

theorem decodeFrom_short {data : List Char} {n : Nat} (hquad : quad < 4)
    (hdata : ∀ c ∈ data, isData c = true) (hend : 2 ≤ (quad + data.length) % 4)
    (hpads : data = [] → pads = 0) (hfew : (quad + data.length) % 4 + n < 4) :
    decodeFrom quad left pads (data ++ List.replicate n '=') = none := by
  induction data generalizing quad left pads with
  | nil =>
    rw [List.length_nil, Nat.add_zero, Nat.mod_eq_of_lt hquad] at hend hfew
    exact decodeFrom_pads hend (by rw [hpads rfl]; omega)
  | cons c data ih =>
    obtain ⟨hc, hdata⟩ := List.forall_mem_cons.mp hdata
    obtain ⟨v, hv⟩ := Option.isSome_iff_exists.mp hc
    rw [List.length_cons] at hend hfew
    have hcases : quad = 0 ∨ quad = 1 ∨ quad = 2 ∨ quad = 3 := by omega
    rw [List.cons_append]
    rcases hcases with rfl | rfl | rfl | rfl
    · rw [decodeFrom_zero hv]
      exact ih (by decide) hdata (by omega) (fun _ => rfl) (by omega)
    · rw [decodeFrom_one hv, ih (by decide) hdata (by omega) (fun _ => rfl) (by omega),
        Option.map_none]
    · rw [decodeFrom_two hv, ih (by decide) hdata (by omega) (fun _ => rfl) (by omega),
        Option.map_none]
    · rw [decodeFrom_three hv, ih (by decide) hdata (by omega) (fun _ => rfl) (by omega),
        Option.map_none]

/-- **With characters of an encoding missing, less comes out or nothing.** -/
theorem length_of_sublist {bytes out : List UInt8} {s : List Char} (hsub : s.Sublist (encode bytes))
    (hne : s ≠ encode bytes) (h : decode s = some out) : out.length < bytes.length := by
  obtain ⟨data, pads, heq, hdata, hlength, hmod, hpads⟩ := encode_eq bytes
  rw [heq] at hsub hne
  obtain ⟨data', rest, rfl, hsub', hrest⟩ := List.sublist_append_iff.mp hsub
  obtain ⟨n, hn, rfl⟩ := List.sublist_replicate_iff.mp hrest
  by_cases hall : data' = data
  · -- pads are missing
    subst hall
    have hlt : n < pads := by
      refine Nat.lt_of_le_of_ne hn ?_
      rintro rfl
      exact hne rfl
    have hmany : 2 ≤ (0 + data'.length) % 4 ∧ (0 + data'.length) % 4 + n < 4 := by
      have hcases : pads = 1 ∨ pads = 2 := by omega
      rcases hcases with rfl | rfl <;> omega
    have hnone : decodeFrom 0 0 0 (data' ++ List.replicate n '=') = none :=
      decodeFrom_short (by decide) hdata hmany.1 (fun _ => rfl) hmany.2
    rw [decode, hnone] at h
    cases h
  · -- data is missing
    have hshort : data'.length < data.length := by
      refine Nat.lt_of_le_of_ne hsub'.length_le fun h => hall (hsub'.eq_of_length h)
    have hcount : (data' ++ List.replicate n '=').countP isData = data'.length := by
      have hpad : (List.replicate n '=').countP isData = 0 :=
        List.countP_eq_zero.mpr fun c hc => by rw [List.eq_of_mem_replicate hc]; decide
      rw [List.countP_append, hpad, Nat.add_zero]
      exact List.countP_eq_length.mpr fun c hc => hdata c (hsub'.subset hc)
    have hle := length_decodeFrom (by decide) h
    rw [hcount] at hle
    have hcases : pads = 0 ∨ pads = 1 ∨ pads = 2 := by omega
    rcases hcases with rfl | rfl | rfl <;> omega

end

end Infra.Base64
