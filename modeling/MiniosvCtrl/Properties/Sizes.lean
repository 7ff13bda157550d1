import Mathlib.Data.List.TakeWhile
import MiniosvCtrl.AnyBlob.Requests
import MiniosvCtrl.Infra.Through
import MiniosvCtrl.LinuxS3.LoadConfig
import MiniosvCtrl.Runner.Size

/-!
# Sizes in the environment

The drivers' `size` strips its text and takes blanks in front of the unit; the binaries read digits
and look at the one character behind them.

* `Plain` — a size that begins with its digits, and has its unit right behind them
* `size_of_plain` — what `size` makes of one
* `sizes_alike_iff` — all three read the same number exactly if the text is plain
* `sizes_blank` — `10 G` is three numbers
-/

namespace Sizes

open Infra Runner

variable {B : Builtins} {t : String} {n : Nat} {v d : UInt64} {o : Option Char}

/-- The units, and what may stand behind the digits without one. -/
def tails : List Char := ['K', 'k', 'M', 'm', 'G', 'g', 'T', 't', 'B', 'b', 'I', 'i']

/-- ASCII digits at the beginning, and nothing or one of `tails` behind them. -/
def Plain (t : String) : Prop :=
  t.toList.takeWhile Char.isDigit ≠ [] ∧ ∀ c ∈ (t.toList.dropWhile Char.isDigit).head?, c ∈ tails

instance (t : String) : Decidable (Plain t) :=
  @instDecidableAnd _ _ inferInstance (Option.decidableForallMem _)

/-- How many bytes one of a text's number is, by the character behind the digits. -/
def multiple : Option Char → Nat
  | none => 1
  | some c => (factor [c]).getD 1

/-! ## The drivers -/

theorem isSpace_of_tail {c : Char} (h : c ∈ tails) : isSpace c = false := by
  have hall : tails.all (fun c => !isSpace c) = true := by decide
  simpa using List.all_eq_true.mp hall c h

theorem not_digit_of_tail (B : Builtins) {c : Char} (h : c ∈ tails) : B.digit c = false := by
  have hall : tails.all (fun c => decide (c.toNat < 128) && !c.isDigit) = true := by decide
  have hc := List.all_eq_true.mp hall c h
  rw [Bool.and_eq_true, decide_eq_true_eq, Bool.not_eq_true'] at hc
  rw [B.digit_ascii hc.1, hc.2]

theorem not_space_of_digit {c : Char} (h : c.isDigit = true) : isSpace c = false := by
  have hle : 48 ≤ c.toNat ∧ c.toNat ≤ 57 := by
    rw [Char.isDigit, Bool.and_eq_true] at h
    simpa [UInt32.le_iff_toNat_le] using h
  simp [isSpace]
  omega

theorem not_mem_of_digit {l : List Char} (hl : l.all (fun x => !x.isDigit) = true) {c : Char}
    (h : c.isDigit = true) : decide (c ∈ l) = false :=
  decide_eq_false fun hc => by simpa [h] using List.all_eq_true.mp hl c hc

/-- What a text that is stripped begins with is there before, if it is no blank. -/
theorem strip_append {a r : List Char} (ha : a ≠ []) (hdigits : ∀ c ∈ a, c.isDigit = true)
    (ht : t.toList = a ++ r) :
    ∃ w, (∀ c ∈ w, isSpace c = true) ∧ (strip t).toList ++ w = a ++ r := by
  have hfront : t.toList.dropWhile isSpace = t.toList := by
    rw [ht]
    cases a with
    | nil => exact absurd rfl ha
    | cons c a =>
      rw [List.cons_append, List.dropWhile_cons,
        not_space_of_digit (hdigits c List.mem_cons_self)]
      rfl
  have hstrip : (strip t).toList = (t.toList.reverse.dropWhile isSpace).reverse := by
    rw [strip, hfront, String.toList_ofList]
  refine ⟨(t.toList.reverse.takeWhile isSpace).reverse, fun c hc => ?_, ?_⟩
  · exact List.mem_takeWhile_imp (List.mem_reverse.mp hc)
  · rw [hstrip, ← List.reverse_append, List.takeWhile_append_dropWhile, List.reverse_reverse, ht]

/-- The parts of a text that `size` accepts. -/
theorem parts_of_size (h : size B t = some n) :
    ∃ (digits blanks unit tail : List Char) (k f : Nat),
      (strip t).toList = digits ++ (blanks ++ (unit ++ tail)) ∧ (∀ c ∈ digits, B.digit c = true) ∧
      (∀ c ∈ blanks, isSpace c = true) ∧ (unit = [] ∨ ∃ c, unit = [c] ∧ isUnit c = true) ∧
      (∀ c ∈ tail.head?, isTail c = true ∨ isBytes c = true) ∧
      B.int digits = some k ∧ factor unit = some f ∧ n = k * f := by
  obtain ⟨m, hm, h⟩ := Option.bind_eq_some_iff.mp h
  obtain ⟨k, hk, h⟩ := Option.bind_eq_some_iff.mp h
  obtain ⟨f, hf, h⟩ := Option.bind_eq_some_iff.mp h
  cases h
  obtain ⟨d, hthrough, hd⟩ := Regex.through_of_fullMatch hm
  -- the way through the pattern, piece by piece
  obtain ⟨e₁, _, ⟨_, hdigits, rfl⟩, e₂, _, ⟨blanks, hblanks, hrest₂, rfl⟩, e₃, _,
    ⟨_, hunit, rfl⟩, e₄, _, htail, hbytes⟩ := hthrough
  obtain ⟨digits, -, hall, hrest₁, rfl⟩ := hdigits.plus
  obtain ⟨unit, hone, hrest₃, rfl⟩ := hunit.opt_one
  obtain ⟨i, hi, hrest₄, rfl⟩ := htail.opt_one
  obtain ⟨b, hb, hrest₅, rfl⟩ := Regex.Through.opt_one hbytes
  rw [Regex.upTo_of_rest hrest₁, Regex.upTo_of_rest hrest₃] at hk hf
  rw [hd, List.append_nil] at hrest₅
  refine ⟨digits, blanks, unit, i ++ b, k, f, ?_, hall, hblanks, hone, ?_, hk, hf, rfl⟩
  · rw [← hrest₅, ← hrest₄, ← hrest₃, ← hrest₂]
    exact hrest₁
  · intro c hc
    rcases hi with rfl | ⟨x, rfl, hx⟩
    · rcases hb with rfl | ⟨x, rfl, hx⟩
      · cases hc
      · cases hc
        exact Or.inr hx
    · cases hc
      exact Or.inl hx

/-- Behind the digits of a plain text there is its unit, if it has one. -/
theorem factor_of_plain {blanks unit tail w r : List Char} {f : Nat}
    (hr : ∀ c ∈ r.head?, c ∈ tails) (heq : blanks ++ (unit ++ tail) ++ w = r)
    (hblanks : ∀ c ∈ blanks, isSpace c = true) (hw : ∀ c ∈ w, isSpace c = true)
    (hunit : unit = [] ∨ ∃ c, unit = [c] ∧ isUnit c = true)
    (htail : ∀ c ∈ tail.head?, isTail c = true ∨ isBytes c = true) (hf : factor unit = some f) :
    f = multiple r.head? := by
  have hblank : ∀ {c : Char}, isSpace c = true → c ∈ r.head? → False := fun hc hmem => by
    simp [isSpace_of_tail (hr _ hmem)] at hc
  cases blanks with
  | cons c blanks =>
    refine (hblank (hblanks c List.mem_cons_self) ?_).elim
    rw [← heq]
    rfl
  | nil =>
    rcases hunit with rfl | ⟨c, rfl, -⟩
    · cases hf
      cases tail with
      | nil =>
        cases w with
        | nil =>
          rw [← heq]
          rfl
        | cons c w =>
          refine (hblank (hw c List.mem_cons_self) ?_).elim
          rw [← heq]
          rfl
      | cons c tail =>
        have hhead : r.head? = some c := by rw [← heq]; rfl
        have hmem : c ∈ tails := hr c hhead
        -- a letter that begins no unit stands for no multiple
        have hall : tails.all (fun c => !(isTail c || isBytes c) || multiple (some c) == 1) =
            true := by decide
        have hone := List.all_eq_true.mp hall c hmem
        have hkind : (isTail c || isBytes c) = true := by simpa using htail c rfl
        rw [hkind, Bool.not_true, Bool.false_or, beq_iff_eq] at hone
        rw [hhead, hone]
    · have hhead : r.head? = some c := by rw [← heq]; rfl
      rw [hhead, multiple, hf]
      rfl

/-- What stands behind the digits begins with no digit. -/
theorem not_digit_of_parts {blanks unit tail w : List Char}
    (hblanks : ∀ c ∈ blanks, isSpace c = true) (hw : ∀ c ∈ w, isSpace c = true)
    (hunit : unit = [] ∨ ∃ c, unit = [c] ∧ isUnit c = true)
    (htail : ∀ c ∈ tail.head?, isTail c = true ∨ isBytes c = true) :
    ∀ c ∈ (blanks ++ (unit ++ tail) ++ w).head?, c.isDigit = false := by
  intro c hc
  by_contra hdigit
  rw [Bool.not_eq_false] at hdigit
  have hspace : isSpace c ≠ true := by simp [not_space_of_digit hdigit]
  have hunit' : isUnit c ≠ true := by
    rw [isUnit, not_mem_of_digit (by decide) hdigit]
    decide
  have htail' : isTail c ≠ true := by
    rw [isTail, not_mem_of_digit (by decide) hdigit]
    decide
  have hbytes : isBytes c ≠ true := by
    rw [isBytes, not_mem_of_digit (by decide) hdigit]
    decide
  cases blanks with
  | cons x blanks =>
    cases hc
    exact hspace (hblanks c List.mem_cons_self)
  | nil =>
    rcases hunit with rfl | ⟨x, rfl, hx⟩
    · cases tail with
      | cons x tail =>
        cases hc
        exact (htail c rfl).elim htail' hbytes
      | nil => exact hspace (hw c (List.mem_of_mem_head? hc))
    · cases hc
      exact hunit' hx

theorem int_of_digits {a : List Char} {k : Nat} (hall : ∀ c ∈ a, c.isDigit = true)
    (h : B.int a = some k) : k = Nat.ofDigitChars 10 a 0 := by
  unfold Builtins.int at h
  split at h
  · cases h
    exact B.natOf_eq_ofDigitChars hall
  · cases h

/-- What `size` reads of a text that begins with its digits. -/
theorem size_of_digits {a r : List Char} (ha : a ≠ []) (hall : ∀ c ∈ a, c.isDigit = true)
    (ht : t.toList = a ++ r) (hr : ∀ c ∈ r.head?, c ∈ tails) (h : size B t = some n) :
    n = Nat.ofDigitChars 10 a 0 * multiple r.head? := by
  obtain ⟨digits, blanks, unit, tail, k, f, hparts, hdigits, hblanks, hunit, htail, hk, hf, rfl⟩ :=
    parts_of_size h
  obtain ⟨w, hw, heq⟩ := strip_append ha hall ht
  rw [hparts, List.append_assoc] at heq
  -- the same digits, as what is behind them is one for neither
  have hsame : digits = a ∧ blanks ++ (unit ++ tail) ++ w = r := by
    rcases List.append_eq_append_iff.mp heq with ⟨x, rfl, hx⟩ | ⟨x, rfl, hx⟩
    · cases x with
      | nil => exact ⟨(List.append_nil _).symm, hx⟩
      | cons c x =>
        have hdigit := hall c (List.mem_append_right _ List.mem_cons_self)
        rw [not_digit_of_parts hblanks hw hunit htail c (by rw [hx]; rfl)] at hdigit
        cases hdigit
    · cases x with
      | nil => exact ⟨List.append_nil _, hx.symm⟩
      | cons c x =>
        have hmem : c ∈ tails := hr c (by rw [hx]; rfl)
        have hdigit := hdigits c (List.mem_append_right _ List.mem_cons_self)
        rw [not_digit_of_tail B hmem] at hdigit
        cases hdigit
  obtain ⟨rfl, hrest⟩ := hsame
  rw [int_of_digits hall hk, factor_of_plain hr hrest hblanks hw hunit htail hf]

theorem size_of_plain (h : size B t = some n) (hplain : Plain t) :
    n = Nat.ofDigitChars 10 (t.toList.takeWhile Char.isDigit) 0 *
      multiple (t.toList.dropWhile Char.isDigit).head? :=
  size_of_digits hplain.1 (fun _ hc => List.mem_takeWhile_imp hc)
    List.takeWhile_append_dropWhile.symm hplain.2 h

/-! ## The binaries -/

theorem shift_ofNat (k : Nat) {j : UInt64} (hj : j.toNat % 64 = j.toNat) :
    UInt64.ofNat k <<< j = UInt64.ofNat (k * 2 ^ j.toNat) := by
  rw [← UInt64.toNat_inj]
  simp [UInt64.toNat_shiftLeft, Nat.shiftLeft_eq, hj]

/-- Both binaries shift by the unit. -/
theorem suffix_eq (k : Nat) (d : UInt64) (ho : ∀ c ∈ o, c ∈ tails) :
    LinuxS3.suffix (UInt64.ofNat k) d o = UInt64.ofNat (k * multiple o) ∧
      AnyBlob.suffix (UInt64.ofNat k) o = UInt64.ofNat (k * multiple o) := by
  have hone : UInt64.ofNat k = UInt64.ofNat (k * 1) := by rw [Nat.mul_one]
  cases o with
  | none => exact ⟨hone, hone⟩
  | some c =>
    have hc := ho c rfl
    simp only [tails, List.mem_cons, List.not_mem_nil, or_false] at hc
    rcases hc with rfl | rfl | rfl | rfl | rfl | rfl | rfl | rfl | rfl | rfl | rfl | rfl
    · exact ⟨shift_ofNat k rfl, shift_ofNat k rfl⟩
    · exact ⟨shift_ofNat k rfl, shift_ofNat k rfl⟩
    · exact ⟨shift_ofNat k rfl, shift_ofNat k rfl⟩
    · exact ⟨shift_ofNat k rfl, shift_ofNat k rfl⟩
    · exact ⟨shift_ofNat k rfl, shift_ofNat k rfl⟩
    · exact ⟨shift_ofNat k rfl, shift_ofNat k rfl⟩
    · exact ⟨shift_ofNat k rfl, shift_ofNat k rfl⟩
    · exact ⟨shift_ofNat k rfl, shift_ofNat k rfl⟩
    · exact ⟨hone, hone⟩
    · exact ⟨hone, hone⟩
    · exact ⟨hone, hone⟩
    · exact ⟨hone, hone⟩

theorem multiple_pos (o : Option Char) : 0 < multiple o := by
  cases o with
  | none => decide
  | some c =>
    rw [multiple, factor]
    repeat' split
    all_goals decide

theorem drop_takeWhile {α : Type} (p : α → Bool) (l : List α) :
    l.drop (l.takeWhile p).length = l.dropWhile p := by
  conv => lhs; arg 2; rw [← List.takeWhile_append_dropWhile (p := p) (l := l)]
  exact List.drop_left

/-- Without digits in front, or with another character behind them, linux-s3 takes the default. -/
theorem parseSize_of_not_plain (hplain : ¬ Plain t) (d : UInt64) :
    LinuxS3.parseSize (some t) d = d := by
  unfold LinuxS3.parseSize LinuxS3.parseU64
  by_cases hnil : t.toList.takeWhile Char.isDigit = []
  · simp [hnil]
  · have hother : ∃ c, (t.toList.dropWhile Char.isDigit).head? = some c ∧ c ∉ tails := by
      by_contra hall
      push Not at hall
      exact hplain ⟨hnil, fun c hc => hall c hc⟩
    obtain ⟨c, hc, hnot⟩ := hother
    simp only [tails, List.mem_cons, List.not_mem_nil, or_false, not_or] at hnot
    simp only [drop_takeWhile, hc]
    split
    · rfl
    · simp [LinuxS3.suffix, hnot]

/-- What linux-s3 reads of a text that begins with digits that fit. -/
theorem linuxS3_parseSize (hplain : Plain t)
    (hfits : Nat.ofDigitChars 10 (t.toList.takeWhile Char.isDigit) 0 < 2 ^ 64) (d : UInt64) :
    LinuxS3.parseSize (some t) d =
      LinuxS3.suffix (UInt64.ofNat (Nat.ofDigitChars 10 (t.toList.takeWhile Char.isDigit) 0)) d
        (t.toList.dropWhile Char.isDigit).head? := by
  have hread : LinuxS3.parseU64 (t.toList.takeWhile Char.isDigit) =
      some (UInt64.ofNat (Nat.ofDigitChars 10 (t.toList.takeWhile Char.isDigit) 0)) :=
    if_neg (not_or.mpr ⟨hplain.1, Nat.not_le.mpr hfits⟩)
  simp only [LinuxS3.parseSize, hread, drop_takeWhile]

/-- What AnyBlob reads of it. -/
theorem anyBlob_parseSize (hplain : Plain t)
    (hfits : Nat.ofDigitChars 10 (t.toList.takeWhile Char.isDigit) 0 < 2 ^ 64) (d : UInt64) :
    AnyBlob.parseSize t d =
      AnyBlob.suffix (UInt64.ofNat (Nat.ofDigitChars 10 (t.toList.takeWhile Char.isDigit) 0))
        (t.toList.dropWhile Char.isDigit).head? := by
  obtain ⟨hne, -⟩ := hplain
  -- the text begins with a digit, so there is neither a blank nor a sign
  have hscan : AnyBlob.scan t.toList =
      (false, t.toList.takeWhile Char.isDigit, t.toList.dropWhile Char.isDigit) := by
    cases hl : t.toList with
    | nil =>
      rw [hl] at hne
      exact absurd rfl hne
    | cons c l =>
      have hdigit : c.isDigit = true := by
        by_contra hnot
        rw [hl, List.takeWhile_cons, if_neg hnot] at hne
        exact hne rfl
      have hspace : AnyBlob.isSpace c = false := not_mem_of_digit (by decide) hdigit
      have hminus : c ≠ '-' := by rintro rfl; cases hdigit
      have hplus : c ≠ '+' := by rintro rfl; cases hdigit
      simp [AnyBlob.scan, List.dropWhile_cons, hspace, hminus, hplus]
  have hempty : t ≠ "" := by
    rintro rfl
    exact hne rfl
  simp only [AnyBlob.parseSize, hscan, hempty, hne, or_self, if_false, AnyBlob.strtoull,
    Nat.not_le.mpr hfits, Bool.false_eq_true]

/--
**A size that the drivers accept is the same number to both binaries exactly if it is plain.**
-/
theorem sizes_alike_iff (h : size B t = some n) (hn : n < 2 ^ 64) :
    (∀ d, LinuxS3.parseSize (some t) d = UInt64.ofNat n ∧
      AnyBlob.parseSize t d = UInt64.ofNat n) ↔ Plain t := by
  constructor
  · intro hall
    by_contra hplain
    -- linux-s3 cannot take both of two defaults for the number
    have hzero := (hall 0).1
    have hone := (hall 1).1
    rw [parseSize_of_not_plain hplain] at hzero hone
    exact absurd (hzero.trans hone.symm) (by decide)
  · intro hplain d
    have hsize := size_of_plain h hplain
    have hfits := Nat.lt_of_le_of_lt (Nat.le_mul_of_pos_right _ (multiple_pos _)) (hsize ▸ hn)
    obtain ⟨hlinux, hanyblob⟩ := suffix_eq (Nat.ofDigitChars 10
      (t.toList.takeWhile Char.isDigit) 0) d hplain.2
    rw [linuxS3_parseSize hplain hfits, anyBlob_parseSize hplain hfits, hsize]
    exact ⟨hlinux, hanyblob⟩

theorem sizes_alike_iff_gib :
    LinuxS3.parseSize (some "10GiB") 7 = UInt64.ofNat (10 * 2 ^ 30) ∧
      AnyBlob.parseSize "10GiB" 7 = UInt64.ofNat (10 * 2 ^ 30) :=
  (sizes_alike_iff (B := Builtins.exact) (by decide) (by decide)).mpr (by decide +kernel) 7

/-- With a blank, which `size` allows, linux-s3 takes its default and AnyBlob ten bytes. -/
theorem sizes_blank :
    size Builtins.exact "10 G" = some (10 * 2 ^ 30) ∧ LinuxS3.parseSize (some "10 G") 7 = 7 ∧
      AnyBlob.parseSize "10 G" 7 = 10 := by
  decide

end Sizes
