import Mathlib.Logic.Function.Basic

/-!
# Names, inodes and what they hold

A name stands for an inode, and a process that has a file open has its inode, whatever the name
stands for by then. What is opened for writing is emptied, or made if it is not there; `rename`
gives an inode another name and takes that name from the inode that had it.

* `openW`, `write`, `rename` — what processes do to a file system
* `Fs.Proper` — no inode has two names, and none is to be handed out again
* `Fs.Only` — nothing but the file of one name was touched
* `only_write`, `only_openW` — which is so of a write and of `open`
-/

namespace Infra

variable {ν α : Type}

structure Fs (ν α : Type) where
  names : ν → Option Nat
  content : Nat → List α
  /-- The first inode that was never handed out. -/
  next : Nat

namespace Fs

def empty : Fs ν α := { names := fun _ => none, content := fun _ => [], next := 0 }

/-- `open(name, "w")`, with the inode it gives. -/
def openW [DecidableEq ν] (fs : Fs ν α) (name : ν) : Fs ν α × Nat :=
  match fs.names name with
  | some i => ({ fs with content := Function.update fs.content i [] }, i)
  | none =>
    ({ names := Function.update fs.names name (some fs.next)
       content := Function.update fs.content fs.next []
       next := fs.next + 1 }, fs.next)

/-- What a piece at a place makes of a file that is no shorter. -/
def overwrite (l : List α) (at_ : Nat) (piece : List α) : List α :=
  l.take at_ ++ piece ++ l.drop (at_ + piece.length)

def write (fs : Fs ν α) (i at_ : Nat) (piece : List α) : Fs ν α :=
  { fs with content := Function.update fs.content i (overwrite (fs.content i) at_ piece) }

/-- `os.replace(source, target)` -/
def rename [DecidableEq ν] (fs : Fs ν α) (source target : ν) : Fs ν α :=
  let names := Function.update fs.names target (fs.names source)
  { fs with names := Function.update names source none }

/-- Every inode with a name was handed out, and has no other name. -/
structure Proper (fs : Fs ν α) : Prop where
  lt : ∀ {name i}, fs.names name = some i → i < fs.next
  injective : ∀ {name name' i}, fs.names name = some i → fs.names name' = some i → name = name'

variable {fs : Fs ν α} {name name' source target : ν} {i j at_ : Nat} {piece : List α}

@[simp] theorem names_write : (fs.write i at_ piece).names = fs.names := rfl

@[simp] theorem next_write : (fs.write i at_ piece).next = fs.next := rfl

theorem content_write_of_ne (h : j ≠ i) : (fs.write i at_ piece).content j = fs.content j :=
  Function.update_of_ne h _ _

theorem content_write_self :
    (fs.write i at_ piece).content i = overwrite (fs.content i) at_ piece :=
  Function.update_self _ _ _

/-- A piece at the end of a file. -/
theorem overwrite_length (l : List α) : overwrite l l.length piece = l ++ piece := by
  rw [overwrite, List.take_length, List.drop_eq_nil_of_le (Nat.le_add_right _ _), List.append_nil]

/-- A piece that covers all of a file. -/
theorem overwrite_zero {l : List α} (h : l.length ≤ piece.length) :
    overwrite l 0 piece = piece := by
  rw [overwrite, List.take_zero, List.nil_append, List.drop_eq_nil_of_le (by omega),
    List.append_nil]

section

variable [DecidableEq ν]

@[simp] theorem content_rename : (fs.rename source target).content = fs.content := rfl

@[simp] theorem next_rename : (fs.rename source target).next = fs.next := rfl

theorem names_openW : (fs.openW name).1.names name = some (fs.openW name).2 := by
  unfold openW
  split
  · assumption
  · exact Function.update_self _ _ _

theorem names_openW_of_ne (h : name' ≠ name) : (fs.openW name).1.names name' = fs.names name' := by
  unfold openW
  split
  · rfl
  · exact Function.update_of_ne h _ _

theorem content_openW : (fs.openW name).1.content (fs.openW name).2 = [] := by
  unfold openW
  split <;> exact Function.update_self _ _ _

theorem content_openW_of_ne (h : j ≠ (fs.openW name).2) :
    (fs.openW name).1.content j = fs.content j := by
  unfold openW at h ⊢
  split at h <;> exact Function.update_of_ne h _ _

theorem next_le_openW : fs.next ≤ (fs.openW name).1.next := by
  unfold openW
  split
  · exact Nat.le_refl _
  · exact Nat.le_succ _

/-- The inode is the name's, or is a new one. -/
theorem openW_cases (fs : Fs ν α) (name : ν) :
    fs.names name = some (fs.openW name).2 ∨
      fs.names name = none ∧ (fs.openW name).2 = fs.next := by
  unfold openW
  split
  · exact Or.inl ‹_›
  · exact Or.inr ⟨‹_›, rfl⟩

theorem openW_lt (h : fs.Proper) : (fs.openW name).2 < (fs.openW name).1.next := by
  unfold openW
  split
  · exact h.lt ‹_›
  · exact Nat.lt_succ_self _

theorem names_rename_target (h : source ≠ target) :
    (fs.rename source target).names target = fs.names source :=
  (Function.update_of_ne h.symm _ _).trans (Function.update_self _ _ _)

theorem names_rename_source : (fs.rename source target).names source = none :=
  Function.update_self _ _ _

theorem names_rename_of_ne (hs : name ≠ source) (ht : name ≠ target) :
    (fs.rename source target).names name = fs.names name :=
  (Function.update_of_ne hs _ _).trans (Function.update_of_ne ht _ _)

end

namespace Proper

theorem empty : (Fs.empty : Fs ν α).Proper where
  lt h := by cases h
  injective h := by cases h

theorem write (h : fs.Proper) : (fs.write i at_ piece).Proper where
  lt := h.lt
  injective := h.injective

variable [DecidableEq ν]

theorem openW (h : fs.Proper) : (fs.openW name).1.Proper := by
  have hnot : ∀ {name'}, fs.names name' = some (fs.openW name).2 → name' = name := by
    intro name' h'
    rcases openW_cases fs name with hold | ⟨-, hnew⟩
    · exact h.injective h' hold
    · have := h.lt h'
      omega
  constructor
  · intro name' i h'
    by_cases hname : name' = name
    · subst hname
      rw [names_openW] at h'
      exact Option.some.inj h' ▸ openW_lt h
    · rw [names_openW_of_ne hname] at h'
      exact Nat.lt_of_lt_of_le (h.lt h') next_le_openW
  · intro name₁ name₂ i h₁ h₂
    by_cases hn₁ : name₁ = name
    · subst hn₁
      rw [names_openW] at h₁
      by_contra hne
      rw [names_openW_of_ne (Ne.symm hne), ← h₁] at h₂
      exact hne (hnot h₂).symm
    · rw [names_openW_of_ne hn₁] at h₁
      by_cases hn₂ : name₂ = name
      · subst hn₂
        rw [names_openW] at h₂
        exact absurd (hnot (h₁.trans h₂.symm)) hn₁
      · rw [names_openW_of_ne hn₂] at h₂
        exact h.injective h₁ h₂

theorem rename (h : fs.Proper) (hne : source ≠ target) : (fs.rename source target).Proper := by
  -- where a name's inode was before
  have hold : ∀ {name i}, (fs.rename source target).names name = some i →
      name = target ∧ fs.names source = some i ∨
        name ≠ source ∧ name ≠ target ∧ fs.names name = some i := by
    intro name i hname
    by_cases hs : name = source
    · rw [hs, names_rename_source] at hname
      cases hname
    · by_cases ht : name = target
      · rw [ht, names_rename_target hne] at hname
        exact Or.inl ⟨ht, hname⟩
      · rw [names_rename_of_ne hs ht] at hname
        exact Or.inr ⟨hs, ht, hname⟩
  constructor
  · intro name i hname
    rcases hold hname with ⟨-, h'⟩ | ⟨-, -, h'⟩ <;> exact h.lt h'
  · intro name₁ name₂ i h₁ h₂
    rcases hold h₁ with ⟨ht₁, hi₁⟩ | ⟨hs₁, ht₁, hi₁⟩
    · rcases hold h₂ with ⟨ht₂, -⟩ | ⟨hs₂, -, hi₂⟩
      · exact ht₁.trans ht₂.symm
      · exact absurd (h.injective hi₂ hi₁) hs₂
    · rcases hold h₂ with ⟨-, hi₂⟩ | ⟨-, -, hi₂⟩
      · exact absurd (h.injective hi₁ hi₂) hs₁
      · exact h.injective hi₁ hi₂

end Proper

/-! ## The other files -/

/-- Nothing was touched but the file of a name, which is still that name's. -/
structure Only (fs fs' : Fs ν α) (name : ν) : Prop where
  names : ∀ {name'}, name' ≠ name → fs'.names name' = fs.names name'
  same : ∀ {i}, fs.names name = some i → fs'.names name = some i
  /-- An inode may have lost its name. -/
  content : ∀ {i}, i < fs.next → fs.names name ≠ some i →
    fs'.content i = fs.content i ∧ fs'.names name ≠ some i
  next : fs.next ≤ fs'.next

theorem only_write (hi : fs.names name = some i) (at_ : Nat) (piece : List α) :
    Only fs (fs.write i at_ piece) name where
  names _ := rfl
  same h := h
  content _ hne := ⟨content_write_of_ne fun heq => hne (heq ▸ hi), hne⟩
  next := Nat.le_refl _

theorem only_openW [DecidableEq ν] : Only fs (fs.openW name).1 name where
  names h := names_openW_of_ne h
  same h := by
    rcases openW_cases fs name with hold | ⟨hnone, -⟩
    · rw [names_openW, ← hold, h]
    · rw [hnone] at h
      cases h
  content {i} hlt hne := by
    have hnew : i ≠ (fs.openW name).2 := by
      rcases openW_cases fs name with hold | ⟨-, hnew⟩
      · exact fun heq => hne (heq ▸ hold)
      · exact fun heq => absurd (heq.trans hnew) (Nat.ne_of_lt hlt)
    exact ⟨content_openW_of_ne hnew, fun h =>
      hnew (Option.some.inj (h.symm.trans names_openW))⟩
  next := next_le_openW

end Fs

end Infra
