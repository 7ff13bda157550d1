import MiniosvCtrl.LinuxS3.RunConn

/-!
# The bytes of a body are counted exactly

The state of `count_body`'s matcher stands for the bytes that a terminator may begin with: after
any bytes it is as if only those had been read.

* `bodyOf` — what follows the first terminator
* `bodyOf_step` — one byte
* `countBody_append` — a cut makes no difference
* `counted_exact` — the count is the length of the body
-/

namespace LinuxS3

/-- `\r\n\r\n` -/
def terminator : List UInt8 := [cr, lf, cr, lf]

/-- What follows the first terminator; `none`: there is none. -/
def bodyOf : List UInt8 → Option (List UInt8)
  | [] => none
  | b :: rest => if terminator <+: b :: rest then some (rest.drop 3) else bodyOf rest

/-- How much follows it. -/
def bodyLength (stream : List UInt8) : Nat := (bodyOf stream).elim 0 List.length

/-! ## The first terminator -/

theorem bodyOf_eq_none {l : List UInt8} : bodyOf l = none ↔ ¬ terminator <:+: l := by
  induction l with
  | nil => decide
  | cons b l ih =>
    rw [bodyOf, List.infix_cons_iff]
    by_cases h : terminator <+: b :: l
    · simp [h]
    · simp [h, ih]

/-- No terminator begins earlier than the one before the body. -/
theorem bodyOf_eq_some {l body : List UInt8} (h : bodyOf l = some body) :
    ∃ head, l = head ++ (terminator ++ body) ∧
      ∀ head' body', l = head' ++ (terminator ++ body') → head.length ≤ head'.length := by
  induction l with
  | nil => cases h
  | cons b l ih =>
    rw [bodyOf] at h
    by_cases hb : terminator <+: b :: l
    · rw [if_pos hb] at h
      obtain ⟨rest, hrest⟩ := hb
      refine ⟨[], ?_, fun _ _ _ => Nat.zero_le _⟩
      have hl : l = [lf, cr, lf] ++ rest := (List.cons.inj hrest).2.symm
      obtain rfl : rest = body := by simpa [hl] using h
      exact hrest.symm
    · rw [if_neg hb] at h
      obtain ⟨head, rfl, hfirst⟩ := ih h
      refine ⟨b :: head, rfl, fun head' body' he => ?_⟩
      cases head' with
      | nil => exact absurd ⟨body', he.symm⟩ hb
      | cons b' head' => exact Nat.succ_le_succ (hfirst head' body' (List.cons.inj he).2)

/-! ## The matcher -/

theorem bodyOf_of_ne {b : UInt8} (hb : b ≠ cr) (l : List UInt8) : bodyOf (b :: l) = bodyOf l := by
  have hnot : ¬ terminator <+: b :: l := fun h => hb (List.cons_prefix_cons.mp h).1.symm
  rw [bodyOf, if_neg hnot]

/-- **A byte ends the terminator, or leaves the longest part of it that it may begin with.** -/
theorem bodyOf_step {k : Nat} (hk : k < 4) (b : UInt8) :
    (hdrNext (.ofNat k) b = 4 ∧ ∀ more, bodyOf (terminator.take k ++ b :: more) = some more) ∨
      ∃ k' < 4, hdrNext (.ofNat k) b = .ofNat k' ∧
        ∀ more, bodyOf (terminator.take k ++ b :: more) = bodyOf (terminator.take k' ++ more) := by
  by_cases hcr : b = cr
  · -- a `\r` goes on after nothing and after `\r\n`, and begins anew otherwise
    subst hcr
    obtain rfl | rfl | rfl | rfl : k = 0 ∨ k = 1 ∨ k = 2 ∨ k = 3 := by omega
    · exact Or.inr ⟨1, by decide, by decide, fun more => rfl⟩
    · exact Or.inr ⟨1, by decide, by decide, fun more => by simp [bodyOf, terminator, cr, lf]⟩
    · exact Or.inr ⟨3, by decide, by decide, fun more => rfl⟩
    · exact Or.inr ⟨1, by decide, by decide, fun more => by simp [bodyOf, terminator, cr, lf]⟩
  · by_cases hlf : b = lf
    · subst hlf
      obtain rfl | rfl | rfl | rfl : k = 0 ∨ k = 1 ∨ k = 2 ∨ k = 3 := by omega
      · exact Or.inr ⟨0, by decide, by decide, fun more => bodyOf_of_ne hcr more⟩
      · exact Or.inr ⟨2, by decide, by decide, fun more => rfl⟩
      · exact Or.inr ⟨0, by decide, by decide, fun more => by simp [bodyOf, terminator, cr, lf]⟩
      · exact Or.inl ⟨by decide, fun more => by simp [bodyOf, terminator, cr, lf]⟩
    · -- no other byte is part of a terminator
      refine Or.inr ⟨0, by decide, by simp [hdrNext, hcr, hlf], fun more => ?_⟩
      have hsym : ¬ lf = b := fun h => hlf h.symm
      have hsym' : ¬ cr = b := fun h => hcr h.symm
      obtain rfl | rfl | rfl | rfl : k = 0 ∨ k = 1 ∨ k = 2 ∨ k = 3 := by omega
      · exact bodyOf_of_ne hcr more
      · simp [bodyOf, terminator, hsym, hsym']
      · simp [bodyOf, terminator, hsym, hsym', show ¬ cr = lf by decide]
      · simp [bodyOf, terminator, hsym, hsym', show ¬ cr = lf by decide]

/-- **The loop finds the body of what the matcher's state stands for, followed by the data.** -/
theorem bytes_countHead {k : Nat} (hk : k < 4) (n : UInt64) (data : List UInt8) :
    (countHead n (.ofNat k) data).bytes =
      n + .ofNat (bodyLength (terminator.take k ++ data)) := by
  induction data generalizing k with
  | nil =>
    have hnone : ∀ k < 4, bodyLength (terminator.take k ++ []) = 0 := by decide
    rw [hnone k hk, countHead]
    exact (UInt64.add_zero n).symm
  | cons b data ih =>
    rw [countHead]
    obtain ⟨hnext, hbody⟩ | ⟨k', hk', hnext, hbody⟩ := bodyOf_step hk b
    · rw [if_pos hnext, bodyLength, hbody]
      rfl
    · have hne : hdrNext (.ofNat k) b ≠ 4 := by
        rw [hnext]
        exact (show ∀ k < 4, UInt8.ofNat k ≠ 4 by decide) k' hk'
      rw [if_neg hne, hnext, ih hk', bodyLength, bodyLength, hbody]

/-! ## Chunks -/

theorem countHead_append (n : UInt64) (st : UInt8) (a b : List UInt8) :
    countHead n st (a ++ b) = countBody (countHead n st a) b := by
  induction a generalizing st with
  | nil => rfl
  | cons x a ih =>
    rw [List.cons_append, countHead, countHead]
    split
    · rw [countBody, if_pos rfl, List.length_append, UInt64.ofNat_add, UInt64.add_assoc]
    · exact ih _

/-- **A cut makes no difference.** -/
theorem countBody_append (s : Counted) (a b : List UInt8) :
    countBody s (a ++ b) = countBody (countBody s a) b := by
  obtain ⟨n, done, st⟩ := s
  cases done with
  | true => simp [countBody, UInt64.ofNat_add, UInt64.add_assoc]
  | false => exact countHead_append n st a b

/--
**Chunk by chunk or at once, the bytes after the first `\r\n\r\n` are counted.** The count is
that of a `u64`.
-/
theorem counted_exact (chunks : List (List UInt8)) :
    counted chunks = countBody .init chunks.flatten ∧
      (counted chunks).bytes = .ofNat (bodyLength chunks.flatten) := by
  have hcut : counted chunks = countBody .init chunks.flatten := by
    induction chunks using List.reverseRecOn with
    | nil => rfl
    | append_singleton chunks chunk ih =>
      rw [counted, List.foldl_concat, ← counted, ih, List.flatten_concat, countBody_append]
  refine ⟨hcut, ?_⟩
  have hbytes := bytes_countHead (k := 0) (by decide) 0 chunks.flatten
  rw [hcut]
  show (countHead 0 (.ofNat 0) chunks.flatten).bytes = _
  rw [hbytes, UInt64.zero_add]
  rfl

/-- `\r`, cut, `\r\n\r`, cut, `\n`, and two bytes. -/
example : (counted [[13], [13, 10, 13], [], [10, 1, 2]]).bytes = 2 := by decide

end LinuxS3
