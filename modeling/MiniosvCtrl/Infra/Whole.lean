import Mathlib.Data.Nat.Digits.Defs
import MiniosvCtrl.Infra.Frame

/-!
# Whole numbers

`Numerals.whole` has no floats but the integers, each printed with a zero after its point. What
holds for all numerals can be tried on it.
-/

namespace Infra

namespace Numerals

def natOf (l : List Char) : Option Nat :=
  if l ≠ [] ∧ l.all Char.isDigit = true then some (Nat.ofDigitChars 10 l 0) else none

def intOfChars : List Char → Option Int
  | '-' :: l => (natOf l).map fun n : Nat => -(n : Int)
  | l => (natOf l).map Int.ofNat

/-- A number as it is, or with the zero that `showReal` puts after its point. -/
def wholeOfChars (l : List Char) : Option Int :=
  match intOfChars l with
  | some n => some n
  | none => if ['.', '0'] <:+ l then intOfChars l.dropLast.dropLast else none

theorem natOf_toDigits (n : Nat) : natOf (Nat.toDigits 10 n) = some n := by
  have hdigits : (Nat.toDigits 10 n).all Char.isDigit = true := List.all_eq_true.mpr fun c hc =>
    Nat.isDigit_of_mem_toDigits (by omega) (by omega) hc
  rw [natOf, if_pos ⟨Nat.toDigits_ne_nil, hdigits⟩, Nat.ofDigitChars_ten_toDigits]

theorem natOf_eq_none {l : List Char} {c : Char} (hc : c ∈ l) (h : c.isDigit = false) :
    natOf l = none := by
  refine if_neg ?_
  rintro ⟨-, hdigits⟩
  rw [List.all_eq_true.mp hdigits c hc] at h
  cases h

theorem intOfChars_of_ne {l : List Char} (h : ∀ l', l ≠ '-' :: l') :
    intOfChars l = (natOf l).map Int.ofNat := by
  unfold intOfChars
  split
  · exact absurd rfl (h _)
  · rfl

theorem intOfChars_toString (n : Int) : intOfChars (toString n).toList = some n := by
  cases n with
  | ofNat n =>
    have hlist : (toString (Int.ofNat n)).toList = Nat.toDigits 10 n := String.toList_ofList
    have hne : ∀ l', Nat.toDigits 10 n ≠ '-' :: l' := by
      intro l' h
      have hdash : '-'.isDigit = true :=
        Nat.isDigit_of_mem_toDigits (b := 10) (n := n) (by omega) (by omega)
          (h ▸ List.mem_cons_self)
      exact absurd hdash (by decide)
    rw [hlist, intOfChars_of_ne hne, natOf_toDigits]
    rfl
  | negSucc n =>
    have hlist : (toString (Int.negSucc n)).toList = '-' :: Nat.toDigits 10 (n + 1) := by
      show ("-" ++ Nat.repr (n + 1)).toList = _
      rw [String.toList_append]
      exact congrArg ('-' :: ·) String.toList_ofList
    rw [hlist]
    show (natOf (Nat.toDigits 10 (n + 1))).map _ = _
    rw [natOf_toDigits]
    rfl

theorem intOfChars_append_point (l : List Char) : intOfChars (l ++ ['.', '0']) = none := by
  have hpoint : ∀ l : List Char, natOf (l ++ ['.', '0']) = none := fun l =>
    natOf_eq_none (List.mem_append_right l List.mem_cons_self) (by decide)
  unfold intOfChars
  split
  · rename_i l' heq
    cases l with
    | nil => cases heq
    | cons c l =>
      obtain ⟨-, rfl⟩ := List.cons.inj heq
      show (natOf (l ++ ['.', '0'])).map _ = none
      rw [hpoint]
      rfl
  · rw [hpoint]
    rfl

theorem toList_append_point (t : String) : (t ++ ".0").toList = t.toList ++ ['.', '0'] :=
  String.toList_append

theorem wholeOfChars_append_point (n : Int) :
    wholeOfChars (toString n ++ ".0").toList = some n := by
  have hlist : (toString n).toList ++ ['.', '0'] = (toString n).toList ++ ['.'] ++ ['0'] := by
    rw [List.append_assoc]
    rfl
  rw [toList_append_point, wholeOfChars, intOfChars_append_point]
  show (if _ then _ else _) = _
  rw [if_pos (List.suffix_append _ _), hlist, List.dropLast_concat, List.dropLast_concat,
    intOfChars_toString]

/-- Numbers with nothing but a zero after their point. -/
def whole : Numerals :=
  { Real := Int
    decEq := inferInstance
    ofInt := id
    intOf := fun t => intOfChars t.toList
    realOf := fun t => wholeOfChars t.toList
    showReal := fun n => toString n ++ ".0"
    intOf_toString := intOfChars_toString
    realOf_of_intOf := fun {t n} h => by
      show wholeOfChars t.toList = some n
      rw [wholeOfChars, h]
    realOf_showReal := wholeOfChars_append_point
    intOf_showReal := fun n => by
      show intOfChars (toString n ++ ".0").toList = none
      rw [toList_append_point, intOfChars_append_point]
    realOf_empty := by decide }

end Numerals

end Infra
