import Mathlib.Data.List.Perm.Basic

/-!
# The file descriptors of a process

A table of what is open, with the closes that failed. `close` takes a C `int`: what is negative,
or not open, is a failed close.

* `Fds.Owns` — a piece of code holds these descriptors beside the rest
* `Fds.Owns.closeAll` — closing all of them leaves the rest
* `Fds.Owns.closeAll_append` — so may be done with a part
-/

namespace Infra

structure Fds where
  isOpen : List Nat
  /-- `close` returned an error for these. -/
  bad : List Int
  deriving DecidableEq, Repr

namespace Fds

variable (t : Fds)

/-- A call that opens returned this. -/
def grant (fd : Nat) : Fds := { t with isOpen := fd :: t.isOpen }

/-- `close(fd)` -/
def close (fd : Int) : Fds :=
  if 0 ≤ fd ∧ fd.toNat ∈ t.isOpen then { t with isOpen := t.isOpen.erase fd.toNat }
  else { t with bad := t.bad ++ [fd] }

def closeAll (fds : List Int) : Fds := fds.foldl close t

/-- These descriptors are open beside the rest, each once, and no close has failed. -/
structure Owns (rest : List Nat) (fds : List Int) (t : Fds) : Prop where
  nonneg : ∀ fd ∈ fds, 0 ≤ fd
  perm : t.isOpen.Perm (fds.map Int.toNat ++ rest)
  nodup : t.isOpen.Nodup
  bad : t.bad = []

namespace Owns

variable {t : Fds} {rest : List Nat} {fds gds : List Int} {fd : Int}

theorem start {t : Fds} (hnodup : t.isOpen.Nodup) (hbad : t.bad = []) : Owns t.isOpen [] t :=
  ⟨fun _ h => absurd h List.not_mem_nil, List.Perm.refl _, hnodup, hbad⟩

/-- A descriptor that is not open yet. -/
theorem grant {n : Nat} (h : Owns rest fds t) (hfresh : n ∉ t.isOpen) :
    Owns rest (fds ++ [(n : Int)]) (t.grant n) where
  nonneg := fun fd hfd => by
    rcases List.mem_append.mp hfd with hfd | hfd
    · exact h.nonneg fd hfd
    · rw [List.mem_singleton.mp hfd]
      exact Int.natCast_nonneg n
  perm := by
    have hperm := h.perm.cons n
    refine hperm.trans ?_
    simp only [List.map_append, List.map_cons, List.map_nil, Int.toNat_natCast, List.append_assoc,
      List.singleton_append]
    exact List.perm_middle.symm
  nodup := List.nodup_cons.mpr ⟨hfresh, h.nodup⟩
  bad := h.bad

/-- The order of what is held does not matter. -/
theorem of_perm (h : Owns rest fds t) (hp : fds.Perm gds) : Owns rest gds t where
  nonneg := fun fd hfd => h.nonneg fd (hp.mem_iff.mpr hfd)
  perm := h.perm.trans ((hp.map Int.toNat).append_right rest)
  nodup := h.nodup
  bad := h.bad

theorem close (h : Owns rest (fd :: fds) t) : Owns rest fds (t.close fd) := by
  have hmem : fd.toNat ∈ t.isOpen := h.perm.mem_iff.mpr (by simp)
  have hclose : t.close fd = { t with isOpen := t.isOpen.erase fd.toNat } :=
    if_pos ⟨h.nonneg fd List.mem_cons_self, hmem⟩
  have hperm := h.perm.erase fd.toNat
  rw [List.map_cons, List.cons_append, List.erase_cons_head] at hperm
  rw [hclose]
  exact ⟨fun g hg => h.nonneg g (List.mem_cons_of_mem _ hg), hperm, h.nodup.erase _, h.bad⟩

/-- Some are closed, and the others are still held. -/
theorem closeAll_append (h : Owns rest (fds ++ gds) t) : Owns rest gds (t.closeAll fds) := by
  induction fds generalizing t with
  | nil => exact h
  | cons fd fds ih => exact ih h.close

/-- **All are closed, and the rest is as it was.** -/
theorem closeAll (h : Owns rest fds t) : Owns rest [] (t.closeAll fds) :=
  closeAll_append (by rwa [List.append_nil])

end Owns

end Fds

end Infra
