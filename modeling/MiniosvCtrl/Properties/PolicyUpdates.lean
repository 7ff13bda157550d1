import Mathlib.Data.List.Induction
import Mathlib.Data.List.Nodup
import MiniosvCtrl.Bucket.Policy

/-!
# Which policy updates survive

* `State.Kept` — every finished `add` and `remove` is in the policy, and no other statement moved
* `inv_of_run` — the document is what the changes of its lineage make of the first one
* `kept_iff_lineage` — nothing is lost exactly when every invocation that changed something is in the
  lineage of the last write
-/

namespace Bucket

open Infra

/-! ## One invocation -/

namespace Invocation

variable {a : Invocation} {l l' : List Statement} {s : Statement}

theorem sid_of_mem_added (h : s ∈ a.added) : s.sid = some a.sid := by
  unfold added at h
  split at h
  · rw [List.mem_singleton] at h
    rw [h]
    rfl
  · cases h

theorem mem_kept_of_ne (h : s.sid ≠ some a.sid) : s ∈ a.kept l ↔ s ∈ l := by
  have hadded : s ∉ a.added := fun hs => h (sid_of_mem_added hs)
  simp [kept, hadded, h]

theorem mem_kept_of_eq (h : s.sid = some a.sid) : s ∈ a.kept l ↔ s ∈ a.added := by
  simp [kept, h]

/-- Only the statements with its own `Sid` matter to an invocation. -/
theorem granted_congr (h : ∀ s, s.sid = some a.sid → (s ∈ l ↔ s ∈ l')) :
    a.Granted l ↔ a.Granted l' := by
  unfold Granted
  split
  · exact h _ rfl
  · constructor
    · intro hl s hs he
      exact hl s ((h s he).mpr hs) he
    · intro hl s hs he
      exact hl s ((h s he).mp hs) he

theorem granted_kept (a : Invocation) (l : List Statement) : a.Granted (a.kept l) := by
  unfold Granted
  split
  · rename_i resource vpce haction
    refine (mem_kept_of_eq rfl).mpr ?_
    simp [added, haction]
  · rename_i haction
    intro s hs he
    have hadded := (mem_kept_of_eq he).mp hs
    simp [added, haction] at hadded

theorem statements_put (a : Invocation) (doc : Doc) :
    Policy.statements (a.put doc) = a.kept doc.statement := by
  unfold put
  split
  · rename_i h
    rw [h]
    rfl
  · rfl

end Invocation

/-! ## A lineage -/

section Applied

variable {l : List Statement} {m : Lineage} {a : Invocation} {s : Statement}

theorem applied_concat (l : List Statement) (m : Lineage) (a : Invocation) :
    applied l (m ++ [a]) = a.kept (applied l m) := by
  simp [applied]

theorem mem_applied_of_ne (h : ∀ b ∈ m, s.sid ≠ some b.sid) : s ∈ applied l m ↔ s ∈ l := by
  induction m using List.reverseRecOn with
  | nil => exact Iff.rfl
  | append_singleton m b ih =>
    rw [applied_concat, Invocation.mem_kept_of_ne (h b (by simp))]
    exact ih fun b hb => h b (List.mem_append_left _ hb)

/-- Every invocation of a lineage has what it asked for: the later ones have other `Sid`s. -/
theorem granted_applied (hnd : (m.map Invocation.sid).Nodup) (ha : a ∈ m) :
    a.Granted (applied l m) := by
  induction m using List.reverseRecOn with
  | nil => cases ha
  | append_singleton m b ih =>
    rw [List.map_append, List.nodup_append] at hnd
    rw [applied_concat]
    rcases List.mem_append.mp ha with ha | ha
    · have hne : a.sid ≠ b.sid := fun he => hnd.2.2 _ (List.mem_map_of_mem ha) b.sid (by simp) he
      refine (Invocation.granted_congr fun s hs => ?_).mp (ih hnd.1 ha)
      refine (Invocation.mem_kept_of_ne ?_).symm
      rw [hs]
      exact fun he => hne (Option.some_inj.mp he)
    · obtain rfl := List.mem_singleton.mp ha
      exact Invocation.granted_kept a _

/-- An invocation outside a lineage has what it asked for only if it had it at the start. -/
theorem granted_applied_of_ne (h : ∀ b ∈ m, b.sid ≠ a.sid) :
    a.Granted (applied l m) ↔ a.Granted l := by
  refine Invocation.granted_congr fun s hs => mem_applied_of_ne fun b hb => ?_
  rw [hs]
  exact fun he => h b hb (Option.some_inj.mp he).symm

end Applied

/-! ## Every run -/

/-- A document's statements are what the changes of `m`, all written, make of the first policy. -/
structure From (p : Policy) (s : State) (l : List Statement) (m : Lineage) : Prop where
  statements : l = applied (Policy.statements p) m
  done : ∀ a ∈ m, a ∈ s.done
  nodup : (m.map Invocation.sid).Nodup

structure Inv (p : Policy) (events : List Event) (s : State) : Prop where
  policy : From p s (Policy.statements s.policy) (lineage events)
  reading : ∀ r ∈ s.reading, ∃ m, (schedule events).seen.lookup r.1 = some m ∧
    From p s r.2.statement m
  nodup : (s.started.map Invocation.sid).Nodup

theorem From.mono {p : Policy} {s t : State} {l : List Statement} {m : Lineage}
    (h : From p s l m) (hdone : ∀ a ∈ s.done, a ∈ t.done) : From p t l m :=
  ⟨h.statements, fun a ha => hdone a (h.done a ha), h.nodup⟩

theorem schedule_concat (events : List Event) (e : Event) :
    schedule (events ++ [e]) = (schedule events).step e := by
  simp [schedule]

theorem inv_init (p : Policy) : Inv p [] (State.init p) where
  policy := ⟨rfl, by simp [lineage, schedule], by simp [lineage, schedule]⟩
  reading := by simp [State.init]
  nodup := by simp [State.init, State.started]

theorem inv_read {p : Policy} {events : List Event} {s : State} {a : Invocation}
    (h : Inv p events s) (ha : a.sid ∉ s.started.map Invocation.sid) :
    Inv p (events ++ [.read a])
      { s with reading := (a, Policy.doc s.policy) :: s.reading } := by
  have hseen : (schedule (events ++ [.read a])).seen =
      (a, lineage events) :: (schedule events).seen := by
    rw [schedule_concat]
    rfl
  have hstored : lineage (events ++ [.read a]) = lineage events := by
    rw [lineage, schedule_concat]
    rfl
  refine ⟨?_, ?_, ?_⟩
  · rw [hstored]
    exact h.policy.mono fun _ hb => hb
  · intro r hr
    rw [hseen]
    rcases List.mem_cons.mp hr with rfl | hr
    · exact ⟨lineage events, by simp, h.policy.mono fun _ hb => hb⟩
    · obtain ⟨m, hm, hfrom⟩ := h.reading r hr
      have hmem : r.1.sid ∈ s.started.map Invocation.sid :=
        List.mem_map_of_mem (List.mem_append_left _ (List.mem_map_of_mem hr))
      -- the reader is new, so it hides nobody else's reading
      have hne : (r.1 == a) = false := by
        rw [beq_eq_false_iff_ne]
        exact fun he => ha (he ▸ hmem)
      refine ⟨m, ?_, hfrom.mono fun _ hb => hb⟩
      rw [List.lookup_cons, hne]
      exact hm
  · show ((a :: s.started).map Invocation.sid).Nodup
    rw [List.map_cons, List.nodup_cons]
    exact ⟨ha, h.nodup⟩

theorem inv_write {p : Policy} {events : List Event} {s : State} {a : Invocation} {doc : Doc}
    (h : Inv p events s) (ha : (a, doc) ∈ s.reading) :
    Inv p (events ++ [.write a])
      { policy := a.put doc, reading := s.reading.erase (a, doc), done := s.done ++ [a] } := by
  obtain ⟨m, hm, hfrom⟩ := h.reading _ ha
  have hstored : lineage (events ++ [.write a]) = m ++ [a] := by
    rw [lineage, schedule_concat]
    show ((schedule events).seen.lookup a).getD [] ++ [a] = _
    rw [hm]
    rfl
  -- the writer has not written before, so its `Sid` is new to what it read
  have hnew : ∀ b ∈ s.done, b.sid ≠ a.sid := by
    intro b hb he
    have hnd := h.nodup
    rw [State.started, List.map_append, List.nodup_append] at hnd
    exact hnd.2.2 a.sid (List.mem_map_of_mem (List.mem_map_of_mem ha)) b.sid
      (List.mem_map_of_mem hb) he.symm
  refine ⟨⟨?_, ?_, ?_⟩, ?_, ?_⟩
  · rw [hstored, applied_concat, Invocation.statements_put, hfrom.statements]
  · rw [hstored]
    intro b hb
    rcases List.mem_append.mp hb with hb | hb
    · exact List.mem_append_left _ (hfrom.done b hb)
    · exact List.mem_append_right _ hb
  · rw [hstored, List.map_append, List.nodup_append]
    refine ⟨hfrom.nodup, by simp, ?_⟩
    intro x hx y hy
    obtain ⟨b, hb, rfl⟩ := List.mem_map.mp hx
    obtain rfl : y = a.sid := by simpa using hy
    exact hnew b (hfrom.done b hb)
  · intro r hr
    obtain ⟨m', hm', hfrom'⟩ := h.reading r (List.mem_of_mem_erase hr)
    refine ⟨m', ?_, hfrom'.mono fun b hb => List.mem_append_left _ hb⟩
    rw [schedule_concat]
    exact hm'
  · have hperm : ((s.reading.erase (a, doc)).map Prod.fst ++ (s.done ++ [a])).Perm s.started := by
      have hcons := (List.perm_cons_erase ha).map Prod.fst
      refine List.Perm.trans ?_ (hcons.symm.append_right s.done)
      rw [← List.append_assoc]
      exact List.perm_append_comm
    exact (hperm.map Invocation.sid).nodup_iff.mpr h.nodup

theorem inv_of_run {p : Policy} {events : List Event} {s : State}
    (h : Run Step (State.init p) events s) : Inv p events s := by
  induction h with
  | nil => exact inv_init p
  | snoc _ hstep ih =>
    cases hstep with
    | read ha => exact inv_read ih ha
    | write ha => exact inv_write ih ha

/-! ## What is lost -/

/-- Nothing that was written is lost, and the statements of others are where they were. -/
structure State.Kept (p : Policy) (s : State) : Prop where
  granted : ∀ a ∈ s.done, a.Granted (Policy.statements s.policy)
  others : ∀ st ∈ Policy.statements p, (∀ a ∈ s.done, st.sid ≠ some a.sid) →
    st ∈ Policy.statements s.policy

/--
**Nothing is lost exactly when every finished invocation is in the lineage of the last write,
or had asked for what the first policy already said.**
-/
theorem kept_iff_lineage (p : Policy) {events : List Event} {s : State}
    (h : Run Step (State.init p) events s) :
    s.Kept p ↔ ∀ a ∈ s.done, a ∈ lineage events ∨ a.Granted (Policy.statements p) := by
  have hinv := inv_of_run h
  have hsid : ∀ a ∈ s.done, ∀ b ∈ s.done, a.sid = b.sid → a = b := by
    have hnd := hinv.nodup
    rw [State.started, List.map_append, List.nodup_append] at hnd
    exact fun a ha b hb => List.inj_on_of_nodup_map hnd.2.1 ha hb
  have hlost : ∀ a ∈ s.done, a ∉ lineage events →
      (a.Granted (Policy.statements s.policy) ↔ a.Granted (Policy.statements p)) := by
    intro a ha hnot
    rw [hinv.policy.statements]
    refine granted_applied_of_ne fun b hb he => hnot ?_
    rwa [hsid a ha b (hinv.policy.done b hb) he.symm]
  constructor
  · intro hkept a ha
    by_cases hmem : a ∈ lineage events
    · exact Or.inl hmem
    · exact Or.inr ((hlost a ha hmem).mp (hkept.granted a ha))
  · intro hall
    refine ⟨fun a ha => ?_, fun st hst hne => ?_⟩
    · by_cases hmem : a ∈ lineage events
      · rw [hinv.policy.statements]
        exact granted_applied hinv.policy.nodup hmem
      · exact (hlost a ha hmem).mpr ((hall a ha).resolve_left hmem)
    · rw [hinv.policy.statements]
      exact (mem_applied_of_ne fun b hb => hne b (hinv.policy.done b hb)).mpr hst

/-! ## Two setups at once -/

/-- What `just setup competitors/linux-s3` asks for. -/
def linuxS3Grant : Invocation :=
  { sid := "BenchBinFromVpce", action := .add "arn:aws:s3:::bench/bin/*" "vpce-1"
    accepted := rfl }

/-- What `just setup competitors/duckdb-linux` asks for. -/
def duckdbGrant : Invocation :=
  { sid := "DuckdbLinuxBinFromVpce", action := .add "arn:aws:s3:::bench/duckdb/*" "vpce-1"
    accepted := rfl }

/-- One setup after the other. -/
def inTurn : List Event :=
  [.read linuxS3Grant, .write linuxS3Grant, .read duckdbGrant, .write duckdbGrant]

/-- Both read, then both write. -/
def atOnce : List Event :=
  [.read linuxS3Grant, .read duckdbGrant, .write linuxS3Grant, .write duckdbGrant]

theorem exists_inTurn : ∃ s, Run Step (State.init none) inTurn s ∧
    s.done = [linuxS3Grant, duckdbGrant] := by
  have hfirst : Run Step (State.init none) [.read linuxS3Grant, .write linuxS3Grant]
      { policy := linuxS3Grant.put Doc.empty, reading := [], done := [linuxS3Grant] } :=
    (Run.single (.read (by decide))).snoc (@Step.write _ linuxS3Grant Doc.empty (by decide))
  have hread : Run Step (State.init none)
      [.read linuxS3Grant, .write linuxS3Grant, .read duckdbGrant]
      { policy := linuxS3Grant.put Doc.empty
        reading := [(duckdbGrant, Policy.doc (linuxS3Grant.put Doc.empty))]
        done := [linuxS3Grant] } :=
    hfirst.snoc (.read (by decide))
  exact ⟨_, hread.snoc (@Step.write _ duckdbGrant (Policy.doc (linuxS3Grant.put Doc.empty))
    (by decide)), rfl⟩

theorem exists_atOnce : ∃ s, Run Step (State.init none) atOnce s ∧ linuxS3Grant ∈ s.done ∧
    Policy.statements s.policy = duckdbGrant.added := by
  have hreads : Run Step (State.init none) [.read linuxS3Grant, .read duckdbGrant]
      { policy := none, reading := [(duckdbGrant, Doc.empty), (linuxS3Grant, Doc.empty)]
        done := [] } :=
    (Run.single (.read (by decide))).snoc (.read (by decide))
  have hfirst : Run Step (State.init none)
      [.read linuxS3Grant, .read duckdbGrant, .write linuxS3Grant]
      { policy := linuxS3Grant.put Doc.empty, reading := [(duckdbGrant, Doc.empty)]
        done := [linuxS3Grant] } :=
    hreads.snoc (@Step.write _ linuxS3Grant Doc.empty (by decide))
  exact ⟨_, hfirst.snoc (@Step.write _ duckdbGrant Doc.empty (by decide)), by decide, by decide⟩

theorem kept_iff_lineage_inTurn : ∃ s, Run Step (State.init none) inTurn s ∧ s.Kept none := by
  obtain ⟨s, hrun, hdone⟩ := exists_inTurn
  refine ⟨s, hrun, (kept_iff_lineage none hrun).mpr fun a ha => Or.inl ?_⟩
  have hlineage : lineage inTurn = [linuxS3Grant, duckdbGrant] := by decide
  rwa [hlineage, ← hdone]

/-- The second write has not seen the first: its document holds one grant. -/
theorem grant_lost : ¬ ∀ p events s, Run Step (State.init p) events s → s.Kept p := by
  intro hkept
  obtain ⟨s, hrun, hdone, hpolicy⟩ := exists_atOnce
  have hgranted := (hkept none atOnce s hrun).granted linuxS3Grant hdone
  rw [hpolicy] at hgranted
  have hmem : linuxS3Grant.statement "arn:aws:s3:::bench/bin/*" "vpce-1" ∈ duckdbGrant.added :=
    hgranted
  exact absurd hmem (by decide)

end Bucket
