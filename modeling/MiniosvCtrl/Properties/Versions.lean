import MiniosvCtrl.Queue.StateFiles

/-!
# The state of a queue is read as a whole

Whatever a reader gets of a `state.json` is a version of it that a `submit` or a `save` had written
to its end, and the last one of them when the reader opened the file.

* `Stands` — the files stand for the versions
* `simulates` — a step of a process publishes, points or reads, or is not seen
* `run_stands` — every run of the files is one of versions
* `read_whole` — a reader gets the last version of when it opened the file
-/

namespace StateFiles

open Infra Fs

variable {s : Sys} {σ : Store} {fs fs' : Fs Name Char} {versions : Text → List Text}
  {n : Name} {k r i : Nat} {q l t : Text} {o : Option Text} {x : Submit} {y : Reader} {v : View}

/-! ## The invariant -/

/-- What a `submit` has done so far. -/
def SubmitOk (fs : Fs Name Char) (versions : Text → List Text) : Submit → Prop
  | .ready | .returned => True
  | .writing q i text rest =>
    versions q = [] ∧ fs.names (.state q) = some i ∧ fs.content i ++ rest = text
  | .written q | .pointed q => versions q ≠ []
  | .pointing q i => versions q ≠ [] ∧ fs.names .latest = some i

/-- A runner's text is in a file that nobody reads. -/
def RunnerOk (fs : Fs Name Char) (versions : Text → List Text) (q : Text) : Option Runner → Prop
  | none => fs.names (.tmp q) = none
  | some .idle => fs.names (.tmp q) = none ∧ versions q ≠ []
  | some (.saving i text rest) =>
    versions q ≠ [] ∧ fs.names (.tmp q) = some i ∧ fs.content i ++ rest = text
  | some .killed => True

/-- Nobody writes to this inode any more: it is a version, or was one. -/
def Sealed (fs : Fs Name Char) (versions : Text → List Text) (i : Nat) : Prop :=
  i < fs.next ∧ ∀ n, fs.names n = some i → ∃ q, n = .state q ∧ versions q ≠ []

/-- What a reader has read, and what it has seen. -/
def ReaderOk (fs : Fs Name Char) (versions : Text → List Text) : Reader → View → Prop
  | .ready, v => v = .idle
  | .found l, v => l = [] ∧ v = .nothing ∨ IsQid l ∧ versions l ≠ [] ∧ v = .named l
  | .reading q i got, v => Sealed fs versions i ∧ got <+: fs.content i ∧ v = .has q (fs.content i)
  | .got q t, v => v = .has q t
  | .failed, v => v = .nothing

/-- The files stand for these versions, this latest queue and these views. -/
structure Stands (s : Sys) (σ : Store) : Prop where
  proper : s.fs.Proper
  fresh : ∀ q, s.made q = false →
    s.fs.names (.state q) = none ∧ σ.versions q = [] ∧ s.runners q = none
  qid : ∀ q, s.made q = true → IsQid q
  unique : ∀ k k' q, (s.submits k).queue = some q → (s.submits k').queue = some q → k = k'
  queued : ∀ k q, (s.submits k).queue = some q → s.made q = true ∧ s.runners q = none
  submits : ∀ k, SubmitOk s.fs σ.versions (s.submits k)
  runners : ∀ q, RunnerOk s.fs σ.versions q (s.runners q)
  current : ∀ q, σ.versions q ≠ [] → ∃ i, s.fs.names (.state q) = some i ∧
    (σ.versions q).getLast? = some (s.fs.content i)
  /-- While `LATEST` is empty there is no latest queue. -/
  latest : σ.latest = s.latest.filter (· ≠ [])
  pointed : ∀ q, σ.latest = some q → IsQid q ∧ σ.versions q ≠ []
  readers : ∀ r, ReaderOk s.fs σ.versions (s.readers r) (σ.views r)

theorem stands_init : Stands Sys.init Store.init where
  proper := Proper.empty
  fresh _ _ := ⟨rfl, rfl, rfl⟩
  qid _ h := by cases h
  unique _ _ _ h := by cases h
  queued _ _ h := by cases h
  submits _ := trivial
  runners _ := rfl
  current _ h := absurd rfl h
  latest := rfl
  pointed _ h := by cases h
  readers _ := rfl

/-! ## Touching one file -/

theorem Sealed.only (h : Sealed fs versions i) (ht : Only fs fs' n)
    (hn : ∀ q, n = .state q → versions q = []) :
    Sealed fs' versions i ∧ fs'.content i = fs.content i := by
  have hnot : fs.names n ≠ some i := fun hi => by
    obtain ⟨q, rfl, hq⟩ := h.2 n hi
    exact hq (hn q rfl)
  obtain ⟨hcontent, hname⟩ := ht.content h.1 hnot
  refine ⟨⟨Nat.lt_of_lt_of_le h.1 ht.next, fun n' hn' => ?_⟩, hcontent⟩
  have hne : n' ≠ n := by
    rintro rfl
    exact hname hn'
  exact h.2 n' (ht.names hne ▸ hn')

theorem ReaderOk.only (h : ReaderOk fs versions y v) (ht : Only fs fs' n)
    (hn : ∀ q, n = .state q → versions q = []) : ReaderOk fs' versions y v := by
  cases y with
  | reading q i got =>
    obtain ⟨hsealed, hcontent⟩ := h.1.only ht hn
    exact ⟨hsealed, hcontent ▸ h.2.1, hcontent ▸ h.2.2⟩
  | _ => exact h

/-- The content of a file with another name. -/
theorem content_only (hp : fs.Proper) (ht : Only fs fs' n) {n' : Name} (hne : n' ≠ n)
    (hi : fs.names n' = some i) : fs'.content i = fs.content i :=
  (ht.content (hp.lt hi) fun h => hne (hp.injective hi h)).1

theorem SubmitOk.only (h : SubmitOk fs versions x) (hp : fs.Proper) (ht : Only fs fs' n)
    (hn : ∀ q, n = .state q → x.queue ≠ some q) : SubmitOk fs' versions x := by
  cases x with
  | writing q i text rest =>
    obtain ⟨hempty, hi, htext⟩ := h
    have hne : Name.state q ≠ n := fun heq => hn q heq.symm rfl
    exact ⟨hempty, (ht.names hne).trans hi, content_only hp ht hne hi ▸ htext⟩
  | pointing q i =>
    refine ⟨h.1, ?_⟩
    by_cases hlatest : Name.latest = n
    · subst hlatest
      exact ht.same h.2
    · exact (ht.names hlatest).trans h.2
  | _ => exact h

theorem RunnerOk.only {z : Option Runner} (h : RunnerOk fs versions q z) (hp : fs.Proper)
    (ht : Only fs fs' n) (hne : .tmp q ≠ n) : RunnerOk fs' versions q z := by
  match z, h with
  | none, h => exact (ht.names hne).trans h
  | some .idle, h => exact ⟨(ht.names hne).trans h.1, h.2⟩
  | some (.saving i text rest), h =>
    exact ⟨h.1, (ht.names hne).trans h.2.1, content_only hp ht hne h.2.1 ▸ h.2.2⟩
  | some .killed, _ => trivial

/-! ## Replacing a state -/

theorem names_replaced (htmp : n ≠ .tmp q) (hstate : n ≠ .state q) :
    (replaced fs q).names n = fs.names n :=
  names_rename_of_ne htmp hstate

theorem names_state_replaced {q' : Text} (h : q' ≠ q) :
    (replaced fs q).names (.state q') = fs.names (.state q') :=
  names_replaced nofun fun heq => h (Name.state.inj heq)

theorem SubmitOk.replace (h : SubmitOk fs versions x) (hq : x.queue ≠ some q) :
    SubmitOk (replaced fs q) versions x := by
  cases x with
  | writing q' i text rest =>
    have hne : q' ≠ q := fun heq => hq (heq ▸ rfl)
    exact ⟨h.1, (names_state_replaced hne).trans h.2.1, h.2.2⟩
  | pointing q' i => exact ⟨h.1, (names_replaced (n := .latest) nofun nofun).trans h.2⟩
  | _ => exact h

theorem RunnerOk.replace {q' : Text} {z : Option Runner} (h : RunnerOk fs versions q' z)
    (hne : q' ≠ q) : RunnerOk (replaced fs q) versions q' z := by
  have hname : (replaced fs q).names (.tmp q') = fs.names (.tmp q') :=
    names_replaced (fun heq => hne (Name.tmp.inj heq)) nofun
  match z, h with
  | none, h => exact hname.trans h
  | some .idle, h => exact ⟨hname.trans h.1, h.2⟩
  | some (.saving i text rest), h => exact ⟨h.1, hname.trans h.2.1, h.2.2⟩
  | some .killed, _ => trivial

/-- Who has the old version open still has it. -/
theorem ReaderOk.replace (h : ReaderOk fs versions y v) (hq : versions q ≠ []) :
    ReaderOk (replaced fs q) versions y v := by
  cases y with
  | reading q' i got =>
    refine ⟨⟨h.1.1, fun n hn => ?_⟩, h.2⟩
    by_cases hstate : n = .state q
    · exact ⟨q, hstate, hq⟩
    · have htmp : n ≠ .tmp q := by
        rintro rfl
        cases names_rename_source.symm.trans hn
      exact h.1.2 n ((names_replaced htmp hstate).symm.trans hn)
  | _ => exact h

/-! ## One more version -/

/-- The versions with one more of a queue. -/
def grow (versions : Text → List Text) (q t : Text) : Text → List Text :=
  Function.update versions q (versions q ++ [t])

theorem grow_self : grow versions q t q = versions q ++ [t] := Function.update_self _ _ _

theorem grow_of_ne {q' : Text} (h : q' ≠ q) : grow versions q t q' = versions q' :=
  Function.update_of_ne h _ _

theorem grow_ne_nil {q' : Text} (h : versions q' ≠ []) : grow versions q t q' ≠ [] := by
  by_cases hq : q' = q
  · rw [hq, grow_self]
    exact List.append_ne_nil_of_right_ne_nil _ (List.cons_ne_nil _ _)
  · rwa [grow_of_ne hq]

theorem Sealed.grow (h : Sealed fs versions i) (q t : Text) :
    Sealed fs (grow versions q t) i :=
  ⟨h.1, fun n hn => (h.2 n hn).imp fun _ h => ⟨h.1, grow_ne_nil h.2⟩⟩

theorem ReaderOk.grow (h : ReaderOk fs versions y v) (q t : Text) :
    ReaderOk fs (grow versions q t) y v := by
  cases y with
  | found l => exact h.imp_right fun h => ⟨h.1, grow_ne_nil h.2.1, h.2.2⟩
  | reading q' i got => exact ⟨h.1.grow q t, h.2⟩
  | _ => exact h

theorem SubmitOk.grow (h : SubmitOk fs versions x) (hq : x.queue ≠ some q) (t : Text) :
    SubmitOk fs (grow versions q t) x := by
  cases x with
  | ready => trivial
  | returned => trivial
  | writing q' i text rest =>
    have hne : q' ≠ q := fun heq => hq (heq ▸ rfl)
    exact ⟨(grow_of_ne hne).trans h.1, h.2⟩
  | pointing q' i => exact ⟨grow_ne_nil h.1, h.2⟩
  | written q' => exact grow_ne_nil h
  | pointed q' => exact grow_ne_nil h

theorem RunnerOk.grow {q' : Text} {z : Option Runner} (h : RunnerOk fs versions q' z) (q t : Text) :
    RunnerOk fs (grow versions q t) q' z := by
  match z, h with
  | none, h => exact h
  | some .idle, h => exact ⟨h.1, grow_ne_nil h.2⟩
  | some (.saving i text rest), h => exact ⟨grow_ne_nil h.1, h.2⟩
  | some .killed, _ => trivial

/-! ## What the steps are made of -/

/-- Nobody but the `k`-th `submit` has the queue, and its runner was not started. -/
def Owns (s : Sys) (k : Nat) (q : Text) : Prop :=
  (s.made q = true ∧ s.runners q = none) ∧ ∀ k', k' ≠ k → (s.submits k').queue ≠ some q

/-- Nobody has the queue any more once its `submit` has returned. -/
theorem Owns.dropped (h : Owns s k q) (k' : Nat) :
    ((s.setSubmit k .returned).submits k').queue ≠ some q := by
  by_cases heq : k' = k
  · have hself : (s.setSubmit k .returned).submits k = .returned := Function.update_self _ _ _
    rw [heq, hself]
    exact nofun
  · have hother : (s.setSubmit k .returned).submits k' = s.submits k' :=
      Function.update_of_ne heq _ _
    rw [hother]
    exact h.2 k' heq

namespace Stands

variable (h : Stands s σ)
include h

theorem owns (hk : (s.submits k).queue = some q) : Owns s k q :=
  ⟨h.queued k q hk, fun k' hne hk' => hne (h.unique k' k q hk' hk)⟩

theorem made_of_versions (hq : σ.versions q ≠ []) : s.made q = true := by
  by_contra hmade
  exact hq (h.fresh q (Bool.eq_false_iff.mpr hmade)).2.1

theorem setSubmit (hq : ∀ q, x.queue = some q → Owns s k q) (hx : SubmitOk s.fs σ.versions x) :
    Stands (s.setSubmit k x) σ := by
  have hself : (s.setSubmit k x).submits k = x := Function.update_self _ _ _
  have hother : ∀ k', k' ≠ k → (s.setSubmit k x).submits k' = s.submits k' := fun _ hne =>
    Function.update_of_ne hne _ _
  refine { h with unique := ?_, queued := ?_, submits := ?_ }
  · intro k₁ k₂ q h₁ h₂
    by_cases hk₁ : k₁ = k
    · by_cases hk₂ : k₂ = k
      · exact hk₁.trans hk₂.symm
      · rw [hk₁, hself] at h₁
        rw [hother k₂ hk₂] at h₂
        exact absurd h₂ ((hq q h₁).2 k₂ hk₂)
    · rw [hother k₁ hk₁] at h₁
      by_cases hk₂ : k₂ = k
      · rw [hk₂, hself] at h₂
        exact absurd h₁ ((hq q h₂).2 k₁ hk₁)
      · rw [hother k₂ hk₂] at h₂
        exact h.unique k₁ k₂ q h₁ h₂
  · intro k' q hk'
    by_cases heq : k' = k
    · rw [heq, hself] at hk'
      exact (hq q hk').1
    · rw [hother k' heq] at hk'
      exact h.queued k' q hk'
  · intro k'
    by_cases heq : k' = k
    · rw [heq, hself]
      exact hx
    · rw [hother k' heq]
      exact h.submits k'

theorem setRunner {z : Runner} (hmade : s.made q = true) (hnot : ∀ k, (s.submits k).queue ≠ some q)
    (hz : RunnerOk s.fs σ.versions q (some z)) : Stands (s.setRunner q z) σ := by
  have hself : (s.setRunner q z).runners q = some z := Function.update_self _ _ _
  have hother : ∀ q', q' ≠ q → (s.setRunner q z).runners q' = s.runners q' := fun _ hne =>
    Function.update_of_ne hne _ _
  refine { h with fresh := ?_, queued := ?_, runners := ?_ }
  · intro q' hq'
    have hne : q' ≠ q := fun heq => by
      rw [heq] at hq'
      exact absurd (hmade.symm.trans hq') (by decide)
    obtain ⟨hname, hversions, hrunner⟩ := h.fresh q' hq'
    exact ⟨hname, hversions, (hother q' hne).trans hrunner⟩
  · intro k q' hk
    have hne : q' ≠ q := fun heq => hnot k (heq ▸ hk)
    obtain ⟨hmade', hrunner⟩ := h.queued k q' hk
    exact ⟨hmade', (hother q' hne).trans hrunner⟩
  · intro q'
    by_cases heq : q' = q
    · rw [heq, hself]
      exact hz
    · rw [hother q' heq]
      exact h.runners q'

theorem setReader (hy : ReaderOk s.fs σ.versions y v) :
    Stands (s.setReader r y) (σ.setView r v) := by
  refine { h with readers := ?_ }
  intro r'
  by_cases heq : r' = r
  · have hself : (s.setReader r y).readers r = y := Function.update_self _ _ _
    have hview : (σ.setView r v).views r = v := Function.update_self _ _ _
    rw [heq, hself, hview]
    exact hy
  · have hsame : (s.setReader r y).readers r' = s.readers r' := Function.update_of_ne heq _ _
    have hview : (σ.setView r v).views r' = σ.views r' := Function.update_of_ne heq _ _
    rw [hsame, hview]
    exact h.readers r'

theorem make (hq : IsQid q) : Stands (s.make q) σ := by
  have hmade : ∀ q', s.made q' = true → (s.make q).made q' = true := by
    intro q' hq'
    by_cases heq : q' = q
    · rw [heq]
      exact Function.update_self _ _ _
    · exact (Function.update_of_ne heq _ _).trans hq'
  refine { h with fresh := ?_, qid := ?_, queued := ?_ }
  · intro q' hq'
    refine h.fresh q' ?_
    by_contra hnot
    rw [hmade q' ((Bool.not_eq_false _).mp hnot)] at hq'
    cases hq'
  · intro q' hq'
    by_cases heq : q' = q
    · rwa [heq]
    · exact h.qid q' ((Function.update_of_ne heq _ _).symm.trans hq')
  · exact fun k q' hk => (h.queued k q' hk).imp_left (hmade q')

/-- A file is touched that nobody has open or reads. -/
theorem setFs (ht : Only s.fs fs' n) (hp : fs'.Proper)
    (hstate : ∀ q, n = .state q →
      s.made q = true ∧ σ.versions q = [] ∧ ∀ k, (s.submits k).queue ≠ some q)
    (htmp : ∀ q, n = .tmp q → s.runners q = some .killed)
    (hlatest : o = (s.setFs fs').latest.filter (· ≠ []))
    (hpointed : ∀ q, o = some q → IsQid q ∧ σ.versions q ≠ []) :
    Stands (s.setFs fs') { σ with latest := o } := by
  have hempty : ∀ q, n = .state q → σ.versions q = [] := fun q hq => (hstate q hq).2.1
  constructor
  · exact hp
  · intro q hq
    obtain ⟨hname, hversions, hrunner⟩ := h.fresh q hq
    have hne : Name.state q ≠ n := fun heq =>
      absurd ((hstate q heq.symm).1.symm.trans hq) (by decide)
    exact ⟨(ht.names hne).trans hname, hversions, hrunner⟩
  · exact h.qid
  · exact h.unique
  · exact h.queued
  · exact fun k => (h.submits k).only h.proper ht fun q hq => (hstate q hq).2.2 k
  · intro q
    by_cases hq : n = .tmp q
    · rw [show (s.setFs fs').runners q = some .killed from htmp q hq]
      trivial
    · exact (h.runners q).only h.proper ht fun heq => hq heq.symm
  · intro q hq
    obtain ⟨i, hi, hlast⟩ := h.current q hq
    have hne : Name.state q ≠ n := fun heq => hq (hempty q heq.symm)
    have hcontent : (s.setFs fs').fs.content i = s.fs.content i :=
      content_only h.proper ht hne hi
    exact ⟨i, (ht.names hne).trans hi, hcontent ▸ hlast⟩
  · exact hlatest
  · exact hpointed
  · exact fun r => (h.readers r).only ht hempty

theorem publish (hi : s.fs.names (.state q) = some i) (ht : s.fs.content i = t)
    (hmade : s.made q = true) (hnot : ∀ k, (s.submits k).queue ≠ some q) :
    Stands s { σ with versions := grow σ.versions q t } := by
  constructor
  · exact h.proper
  · intro q' hq'
    obtain ⟨hname, hversions, hrunner⟩ := h.fresh q' hq'
    have hne : q' ≠ q := fun heq => absurd ((heq ▸ hmade).symm.trans hq') (by decide)
    exact ⟨hname, (grow_of_ne hne).trans hversions, hrunner⟩
  · exact h.qid
  · exact h.unique
  · exact h.queued
  · exact fun k => (h.submits k).grow (hnot k) t
  · exact fun q' => (h.runners q').grow q t
  · intro q' hq'
    by_cases heq : q' = q
    · refine ⟨i, heq ▸ hi, ?_⟩
      rw [heq, ht]
      exact (congrArg List.getLast? grow_self).trans List.getLast?_concat
    · obtain ⟨j, hj, hlast⟩ := h.current q' ((grow_of_ne heq).symm.trans_ne hq')
      exact ⟨j, hj, (congrArg List.getLast? (grow_of_ne heq)).trans hlast⟩
  · exact h.latest
  · exact fun q' hq' => (h.pointed q' hq').imp_right grow_ne_nil
  · exact fun r => (h.readers r).grow q t

/-- What was written takes the place of the version before it. -/
theorem replace (hi : s.fs.names (.tmp q) = some i) (ht : s.fs.content i = t)
    (hkilled : s.runners q = some .killed) (hversions : σ.versions q ≠ []) :
    Stands (s.setFs (replaced s.fs q)) { σ with versions := grow σ.versions q t } := by
  have hnot : ∀ k, (s.submits k).queue ≠ some q := fun k hk => by
    rw [(h.queued k q hk).2] at hkilled
    cases hkilled
  constructor
  · exact h.proper.rename nofun
  · intro q' hq'
    obtain ⟨hnone, hempty, hrunner⟩ := h.fresh q' hq'
    have hne : q' ≠ q := fun heq => hversions (heq ▸ hempty)
    exact ⟨(names_state_replaced hne).trans hnone, (grow_of_ne hne).trans hempty, hrunner⟩
  · exact h.qid
  · exact h.unique
  · exact h.queued
  · exact fun k => ((h.submits k).replace (hnot k)).grow (hnot k) t
  · intro q'
    by_cases heq : q' = q
    · have hself : (s.setFs (replaced s.fs q)).runners q = some .killed := hkilled
      rw [heq, hself]
      trivial
    · exact ((h.runners q').replace heq).grow q t
  · intro q' hq'
    by_cases heq : q' = q
    · rw [heq]
      have hlast : (grow σ.versions q t q).getLast? = some t :=
        (congrArg List.getLast? grow_self).trans List.getLast?_concat
      have hname : Name.tmp q ≠ .state q := nofun
      exact ⟨i, (names_rename_target hname).trans hi, hlast.trans (congrArg some ht.symm)⟩
    · obtain ⟨j, hj, hlast⟩ := h.current q' ((grow_of_ne heq).symm.trans_ne hq')
      exact ⟨j, (names_state_replaced heq).trans hj,
        (congrArg List.getLast? (grow_of_ne heq)).trans hlast⟩
  · have hlatest : (s.setFs (replaced s.fs q)).latest = s.latest :=
      congrArg (Option.map s.fs.content) (names_replaced (n := .latest) nofun nofun)
    rw [hlatest]
    exact h.latest
  · exact fun q' hq' => (h.pointed q' hq').imp_right grow_ne_nil
  · exact fun r => ((h.readers r).replace hversions).grow q t

/-- A `submit` touches a file of its own, or `LATEST`. -/
theorem stepSubmit (hk : (s.submits k).queue = some q) (ht : Only s.fs fs' n) (hp : fs'.Proper)
    (hn : n = .latest ∨ n = .state q ∧ σ.versions q = [])
    (hlatest : o = (s.setFs fs').latest.filter (· ≠ []))
    (hpointed : ∀ q, o = some q → IsQid q ∧ σ.versions q ≠ [])
    (hq : x.queue = some q) (hx : SubmitOk fs' σ.versions x) :
    Stands ((s.setFs fs').setSubmit k x) { σ with latest := o } := by
  have howns := h.owns hk
  have hdropped := h.setSubmit (k := k) (x := .returned) nofun trivial
  have hnot := howns.dropped
  have htouched : Stands ((s.setSubmit k .returned).setFs fs') { σ with latest := o } := by
    refine hdropped.setFs ht hp ?_ ?_ hlatest hpointed
    · intro q' hq'
      rcases hn with rfl | ⟨rfl, hempty⟩
      · cases hq'
      · cases hq'
        exact ⟨howns.1.1, hempty, hnot⟩
    · intro q' hq'
      rcases hn with rfl | ⟨rfl, -⟩ <;> cases hq'
  have hset := htouched.setSubmit (k := k) (x := x)
    (fun q' hq' => by
      obtain rfl : q = q' := Option.some.inj (hq.symm.trans hq')
      exact ⟨howns.1, fun k' _ => hnot k'⟩) hx
  have hidem : ((s.setSubmit k .returned).setFs fs').setSubmit k x =
      (s.setFs fs').setSubmit k x := by
    simp [Sys.setSubmit, Sys.setFs]
  rwa [hidem] at hset

theorem not_queued {z : Runner} (hz : s.runners q = some z) :
    s.made q = true ∧ ∀ k, (s.submits k).queue ≠ some q := by
  constructor
  · by_contra hmade
    rw [(h.fresh q ((Bool.not_eq_true _).mp hmade)).2.2] at hz
    cases hz
  · intro k hk
    rw [(h.queued k q hk).2] at hz
    cases hz

/-- A runner touches its own `state.json.tmp`. -/
theorem stepRunner {z z' : Runner} (hz : s.runners q = some z) (ht : Only s.fs fs' (.tmp q))
    (hp : fs'.Proper) (hlatest : (s.setFs fs').latest = s.latest)
    (hz' : RunnerOk fs' σ.versions q (some z')) : Stands ((s.setFs fs').setRunner q z') σ := by
  obtain ⟨hmade, hnot⟩ := h.not_queued hz
  have hkilled := h.setRunner (q := q) (z := .killed) hmade hnot trivial
  have htouched : Stands ((s.setRunner q .killed).setFs fs') { σ with latest := σ.latest } := by
    refine hkilled.setFs ht hp nofun ?_ ?_ h.pointed
    · rintro q' ⟨⟩
      exact Function.update_self _ _ _
    · exact h.latest.trans (congrArg (Option.filter _) hlatest.symm)
  have hset := htouched.setRunner (z := z') hmade hnot hz'
  have hidem : ((s.setRunner q .killed).setFs fs').setRunner q z' =
      (s.setFs fs').setRunner q z' := by
    simp [Sys.setRunner, Sys.setFs]
  rwa [hidem] at hset

/-- What a reader does that is not seen. -/
theorem setReader_same (hy : ReaderOk s.fs σ.versions y (σ.views r)) :
    Stands (s.setReader r y) σ := by
  have hset := h.setReader (r := r) (y := y) (v := σ.views r) hy
  have hsame : σ.setView r (σ.views r) = σ := by
    simp [Store.setView]
  rwa [hsame] at hset

end Stands

/-- `LATEST` is as it was. -/
theorem latest_only (hp : s.fs.Proper) (ht : Only s.fs fs' n) (hne : Name.latest ≠ n) :
    (s.setFs fs').latest = s.latest := by
  show (fs'.names .latest).map fs'.content = (s.fs.names .latest).map s.fs.content
  rw [ht.names hne]
  cases hi : s.fs.names .latest with
  | none => rfl
  | some i => exact congrArg some (content_only hp ht hne hi)

theorem IsQid.ne_nil (h : IsQid q) : q ≠ [] := by
  rintro rfl
  exact absurd h.length (by decide)

theorem strip_of_solid (h : ∀ c ∈ l, Runner.isSpace c = false) : strip l = l := by
  have hfront : ∀ l : Text, (∀ c ∈ l, Runner.isSpace c = false) →
      l.dropWhile Runner.isSpace = l := by
    intro l hl
    cases l with
    | nil => rfl
    | cons c l => rw [List.dropWhile_cons, if_neg (by simp [hl c List.mem_cons_self])]
  rw [strip, hfront l h, hfront l.reverse fun c hc => h c (List.mem_reverse.mp hc),
    List.reverse_reverse]

/-! ## One step -/

/-- What a step of a process is to the versions. -/
structure Seen (a : Act) (σ σ' : Store) : Prop where
  step : σ' = σ ∨ ∃ a', Store.Step σ a' σ'
  versions : ∀ q, σ'.versions q = σ.versions q ++ a.publication q
  views : ∀ r q t, σ'.views r = .has q t →
    σ.views r = .has q t ∨ a = .openState r ∧ (σ.versions q).getLast? = some t

theorem seen_same {a : Act} (ha : ∀ q, a.publication q = []) : Seen a σ σ where
  step := Or.inl rfl
  versions q := by rw [ha, List.append_nil]
  views _ _ _ h := Or.inl h

theorem seen_point {a : Act} (ha : ∀ q, a.publication q = [])
    (ho : ∀ q ∈ o, σ.versions q ≠ []) : Seen a σ { σ with latest := o } where
  step := Or.inr ⟨_, .point ho⟩
  versions q := by rw [ha, List.append_nil]
  views _ _ _ h := Or.inl h

theorem seen_publish {a : Act} (ha : ∀ q', a.publication q' = if q = q' then [t] else []) :
    Seen a σ { σ with versions := grow σ.versions q t } where
  step := Or.inr ⟨_, .publish⟩
  versions q' := by
    rw [ha]
    by_cases heq : q = q'
    · rw [if_pos heq, ← heq]
      exact grow_self
    · rw [if_neg heq, List.append_nil]
      exact grow_of_ne (Ne.symm heq)
  views _ _ _ h := Or.inl h

theorem seen_setView {a : Act} {a' : Store.Act} (ha : ∀ q, a.publication q = [])
    (hstep : Store.Step σ a' (σ.setView r v))
    (hv : ∀ q t, v = .has q t → a = .openState r ∧ (σ.versions q).getLast? = some t) :
    Seen a σ (σ.setView r v) where
  step := Or.inr ⟨_, hstep⟩
  versions q := by
    rw [ha, List.append_nil]
    rfl
  views r' q t h := by
    by_cases heq : r' = r
    · have hself : (σ.setView r v).views r = v := Function.update_self _ _ _
      rw [heq, hself] at h
      rw [heq]
      exact Or.inr (hv q t h)
    · exact Or.inl ((Function.update_of_ne heq _ _).symm.trans h)

/-- **A step of a process publishes, points or reads, or is not seen.** -/
theorem simulates {s' : Sys} {a : Act} (h : Stands s σ) (hs : Step s a s') :
    ∃ σ', Stands s' σ' ∧ Seen a σ σ' := by
  cases hs with
  | @mkdir k q text hready hmade hqid =>
    obtain ⟨hname, hempty, hrunner⟩ := h.fresh q hmade
    have hnot : ∀ k', (s.submits k').queue ≠ some q := fun k' hk' =>
      absurd (hmade.symm.trans (h.queued k' q hk').1) (by decide)
    have hself : (s.make q).made q = true := Function.update_self _ _ _
    have ht : Only s.fs (s.fs.openW (.state q)).1 (.state q) := only_openW
    have htouched : Stands ((s.make q).setFs (s.fs.openW (.state q)).1)
        { σ with latest := σ.latest } := by
      refine (h.make hqid).setFs ht h.proper.openW ?_ nofun ?_ h.pointed
      · rintro q' ⟨⟩
        exact ⟨hself, hempty, hnot⟩
      · exact h.latest.trans (congrArg (Option.filter _)
          (latest_only h.proper ht nofun).symm)
    refine ⟨σ, htouched.setSubmit ?_ ⟨hempty, names_openW, ?_⟩, seen_same fun _ => rfl⟩
    · rintro q' ⟨⟩
      exact ⟨⟨hself, hrunner⟩, fun k' _ => hnot k'⟩
    · show (s.fs.openW (.state q)).1.content _ ++ text = text
      rw [content_openW, List.nil_append]
  | @writeState k i q text piece rest hk =>
    have hok := h.submits k
    rw [hk] at hok
    obtain ⟨hempty, hi, htext⟩ := hok
    have ht := only_write hi (s.fs.content i).length piece
    refine ⟨σ, h.stepSubmit (q := q) (by rw [hk]; rfl) ht h.proper.write (Or.inr ⟨rfl, hempty⟩) ?_
      h.pointed rfl ⟨hempty, hi, ?_⟩, seen_same fun _ => rfl⟩
    · rw [latest_only h.proper ht nofun]
      exact h.latest
    · rw [content_write_self, overwrite_length, List.append_assoc]
      exact htext
  | @closeState k i q text hk =>
    have hok := h.submits k
    rw [hk] at hok
    obtain ⟨hempty, hi, htext⟩ := hok
    rw [List.append_nil] at htext
    have howns := h.owns (k := k) (q := q) (by rw [hk]; rfl)
    have hdropped := h.setSubmit (k := k) (x := .returned) nofun trivial
    have hpublished := hdropped.publish hi htext howns.1.1 howns.dropped
    have hset := hpublished.setSubmit (k := k) (x := .written q)
      (by
        rintro q' ⟨⟩
        exact ⟨howns.1, fun k' _ => howns.dropped k'⟩)
      (grow_self.trans_ne (List.concat_ne_nil _ _))
    have hidem :
        (s.setSubmit k .returned).setSubmit k (.written q) = s.setSubmit k (.written q) := by
      simp [Sys.setSubmit]
    rw [hidem] at hset
    exact ⟨_, hset, seen_publish fun _ => rfl⟩
  | @openLatest k q hk =>
    have hok := h.submits k
    rw [hk] at hok
    refine ⟨_, h.stepSubmit (o := none) (q := q) (by rw [hk]; rfl) only_openW h.proper.openW
      (Or.inl rfl) ?_ nofun rfl ⟨hok, names_openW⟩, seen_point (fun _ => rfl) nofun⟩
    show _ = (((s.fs.openW .latest).1.names .latest).map (s.fs.openW .latest).1.content).filter _
    rw [names_openW, Option.map_some, content_openW]
    rfl
  | @writeLatest k i q hk =>
    have hok := h.submits k
    rw [hk] at hok
    obtain ⟨hversions, hi⟩ := hok
    have hqueue : (s.submits k).queue = some q := by
      rw [hk]
      rfl
    have hqid := h.qid q (h.queued k q hqueue).1
    -- whatever stands there is a queue's id, and no longer than this one
    have hlength : (s.fs.content i).length ≤ q.length := by
      have hlatest : s.latest = some (s.fs.content i) := by
        rw [Sys.latest, hi]
        rfl
      by_cases hnil : s.fs.content i = []
      · rw [hnil]
        exact Nat.zero_le _
      · have hpointed : σ.latest = some (s.fs.content i) := by
          rw [h.latest, hlatest, Option.filter_some, if_pos (by simpa using hnil)]
        exact Nat.le_of_eq ((h.pointed _ hpointed).1.length.trans hqid.length.symm)
    refine ⟨{ σ with latest := some q }, ?_, seen_point (fun _ => rfl) ?_⟩
    · refine h.stepSubmit hqueue (only_write hi _ _) h.proper.write (Or.inl rfl) ?_ ?_ rfl hversions
      · show _ = (((s.fs.write i 0 q).names .latest).map (s.fs.write i 0 q).content).filter _
        rw [names_write, hi, Option.map_some, content_write_self, overwrite_zero hlength,
          Option.filter_some, if_pos (by simpa using hqid.ne_nil)]
      · rintro q' ⟨⟩
        exact ⟨hqid, hversions⟩
    · rintro q' ⟨⟩
      exact hversions
  | @spawn k q hk =>
    have hok := h.submits k
    rw [hk] at hok
    have howns := h.owns (k := k) (q := q) (by rw [hk]; rfl)
    have hrunner := h.runners q
    rw [howns.1.2] at hrunner
    have hdropped := h.setSubmit (k := k) (x := .returned) nofun trivial
    exact ⟨σ, hdropped.setRunner howns.1.1 howns.dropped ⟨hrunner, hok⟩, seen_same fun _ => rfl⟩
  | @interrupt k => exact ⟨σ, h.setSubmit nofun trivial, seen_same fun _ => rfl⟩
  | @save q text hz =>
    have hok := h.runners q
    rw [hz] at hok
    have ht : Only s.fs (s.fs.openW (.tmp q)).1 (.tmp q) := only_openW
    refine ⟨σ, h.stepRunner hz ht h.proper.openW (latest_only h.proper ht nofun)
      ⟨hok.2, names_openW, ?_⟩, seen_same fun _ => rfl⟩
    rw [content_openW, List.nil_append]
  | @writeTmp i q text piece rest hz =>
    have hok := h.runners q
    rw [hz] at hok
    obtain ⟨hversions, hi, htext⟩ := hok
    have ht := only_write hi (s.fs.content i).length piece
    refine ⟨σ, h.stepRunner hz ht h.proper.write (latest_only h.proper ht nofun)
      ⟨hversions, hi, ?_⟩, seen_same fun _ => rfl⟩
    rw [content_write_self, overwrite_length, List.append_assoc]
    exact htext
  | @replace i q text hz =>
    have hok := h.runners q
    rw [hz] at hok
    obtain ⟨hversions, hi, htext⟩ := hok
    rw [List.append_nil] at htext
    obtain ⟨hmade, hnot⟩ := h.not_queued hz
    have hkilled := h.setRunner (q := q) (z := .killed) hmade hnot trivial
    have hreplaced := hkilled.replace hi htext (Function.update_self _ _ _) hversions
    have hset := hreplaced.setRunner (q := q) (z := .idle) hmade hnot
      ⟨names_rename_source, grow_ne_nil hversions⟩
    have hidem : ((s.setRunner q .killed).setFs (replaced s.fs q)).setRunner q .idle =
        (s.setFs (replaced s.fs q)).setRunner q .idle := by
      simp [Sys.setRunner, Sys.setFs]
    exact ⟨_, hidem ▸ hset, seen_publish fun _ => rfl⟩
  | @kill q z hz =>
    obtain ⟨hmade, hnot⟩ := h.not_queued hz
    exact ⟨σ, h.setRunner hmade hnot trivial, seen_same fun _ => rfl⟩
  | @readLatest r hr =>
    have hok := h.readers r
    rw [hr] at hok
    have hunseen : ∀ q t, σ.latest.elim View.nothing View.named ≠ .has q t := by
      cases σ.latest <;> exact nofun
    refine ⟨_, h.setReader ?_, seen_setView (fun _ => rfl) (.look hok) fun q t hv =>
      absurd hv (hunseen q t)⟩
    have hlatest := h.latest
    cases hl : s.latest with
    | none =>
      rw [hl] at hlatest
      rw [hlatest]
      rfl
    | some l =>
      rw [hl, Option.filter_some] at hlatest
      by_cases hnil : l = []
      · rw [hlatest, if_neg (by simpa using hnil)]
        exact Or.inl ⟨hnil, rfl⟩
      · rw [if_pos (by simpa using hnil)] at hlatest
        obtain ⟨hqid, hversions⟩ := h.pointed l hlatest
        rw [hlatest]
        exact Or.inr ⟨hqid, hversions, rfl⟩
  | @openState r l hr =>
    have hok := h.readers r
    rw [hr] at hok
    rcases hok with ⟨rfl, hview⟩ | ⟨hqid, hversions, hview⟩
    · -- there is no queue without a name
      have hnone : s.fs.names (.state (strip [])) = none := by
        refine (h.fresh _ ?_).1
        by_contra hmade
        exact (h.qid _ ((Bool.not_eq_false _).mp hmade)).ne_nil rfl
      refine ⟨σ, h.setReader_same ?_, seen_same fun _ => rfl⟩
      rw [hnone, hview]
      rfl
    · obtain ⟨i, hi, hlast⟩ := h.current l hversions
      refine ⟨_, h.setReader ?_, seen_setView (fun _ => rfl) (.fetch hview hlast) ?_⟩
      · rw [strip_of_solid hqid.solid, hi]
        exact ⟨⟨h.proper.lt hi, fun n hn => ⟨l, h.proper.injective hn hi, hversions⟩⟩,
          List.nil_prefix, rfl⟩
      · rintro q t ⟨⟩
        exact ⟨rfl, hlast⟩
  | @read r i q got piece rest hr hpiece =>
    have hok := h.readers r
    rw [hr] at hok
    obtain ⟨hsealed, ⟨tail, htail⟩, hview⟩ := hok
    refine ⟨σ, h.setReader_same ⟨hsealed, ⟨rest, ?_⟩, hview⟩, seen_same fun _ => rfl⟩
    rw [← htail, List.drop_left] at hpiece
    rw [List.append_assoc, ← hpiece, htail]
  | @eof r i q got hr hend =>
    have hok := h.readers r
    rw [hr] at hok
    obtain ⟨-, hprefix, hview⟩ := hok
    refine ⟨σ, h.setReader_same ?_, seen_same fun _ => rfl⟩
    rw [hview, hprefix.eq_of_length_le hend]
    rfl
  | @again r => exact ⟨_, h.setReader rfl, seen_setView (fun _ => rfl) .again nofun⟩

/-! ## Whole runs -/

/--
**Every run of the files is one of versions.** They are the texts that were brought to their end,
and who has one has the last one of when it opened the file.
-/
theorem run_stands {l : List Act} (h : Run Step Sys.init l s) :
    ∃ l' σ, Run Store.Step Store.init l' σ ∧ Stands s σ ∧
      (∀ q, σ.versions q = published l q) ∧
      ∀ r q t, σ.views r = .has q t →
        ∃ l₁ l₂, l = l₁ ++ .openState r :: l₂ ∧ (published l₁ q).getLast? = some t := by
  induction h with
  | nil => exact ⟨[], Store.init, Run.nil, stands_init, fun _ => rfl, nofun⟩
  | @snoc l s a s' _ hstep ih =>
    obtain ⟨l', σ, hrun, hstands, hversions, hviews⟩ := ih
    obtain ⟨σ', hstands', hseen⟩ := simulates hstands hstep
    have hrun' : ∃ l', Run Store.Step Store.init l' σ' := by
      rcases hseen.step with rfl | ⟨a', ha'⟩
      · exact ⟨l', hrun⟩
      · exact ⟨_, hrun.snoc ha'⟩
    obtain ⟨l'', hrun''⟩ := hrun'
    refine ⟨l'', σ', hrun'', hstands', fun q => ?_, fun r q t hv => ?_⟩
    · rw [hseen.versions, hversions, published, published, List.flatMap_append,
        List.flatMap_singleton]
    · rcases hseen.views r q t hv with hold | ⟨rfl, hlast⟩
      · obtain ⟨l₁, l₂, rfl, hlast⟩ := hviews r q t hold
        exact ⟨l₁, l₂ ++ [a], by rw [List.append_assoc]; rfl, hlast⟩
      · exact ⟨l, [], rfl, hversions q ▸ hlast⟩

/--
**Whatever is read of a queue's state is a whole text of it**: the last one that a `submit` or a
`save` had brought to its end when the reader opened the file, however the writes and the reads of
the pieces interleave, and whoever was killed while it wrote.
-/
theorem read_whole {l : List Act} (h : Run Step Sys.init l s) (hr : s.readers r = .got q t) :
    ∃ l₁ l₂, l = l₁ ++ .openState r :: l₂ ∧ (published l₁ q).getLast? = some t := by
  obtain ⟨-, σ, -, hstands, -, hviews⟩ := run_stands h
  have hview := hstands.readers r
  rw [hr] at hview
  exact hviews r q t hview

/-! ## One reader -/

def firstQueue : Text := "20260101T000000Z".toList

/-- A submit writes `{}` in two pieces, and a reader reads it at once. -/
def oneReader : List Act :=
  [.mkdir 0 firstQueue ['{', '}'], .writeState 0 ['{'], .writeState 0 ['}'],
    .closeState 0 firstQueue ['{', '}'], .openLatest 0, .writeLatest 0, .readLatest 0,
    .openState 0, .read 0 ['{', '}'], .eof 0]

theorem run_oneReader :
    ∃ s, Run Step Sys.init oneReader s ∧ s.readers 0 = .got firstQueue ['{', '}'] := by
  have hsolid : firstQueue.all (fun c => !Runner.isSpace c) = true := by decide
  have hqid : IsQid firstQueue :=
    ⟨rfl, fun c hc => (Bool.not_eq_true' _).mp (List.all_eq_true.mp hsolid c hc)⟩
  have h := (((@Run.nil _ _ Step Sys.init).snoc
    (@Step.mkdir _ 0 firstQueue ['{', '}'] rfl rfl hqid)).snoc
    (@Step.writeState _ 0 0 firstQueue ['{', '}'] ['{'] ['}'] rfl)).snoc
    (@Step.writeState _ 0 0 firstQueue ['{', '}'] ['}'] [] rfl)
  have h := ((h.snoc (@Step.closeState _ 0 0 firstQueue ['{', '}'] rfl)).snoc
    (@Step.openLatest _ 0 firstQueue rfl)).snoc (@Step.writeLatest _ 0 1 firstQueue rfl)
  have h := ((h.snoc (@Step.readLatest _ 0 rfl)).snoc (@Step.openState _ 0 firstQueue rfl)).snoc
    (@Step.read _ 0 0 firstQueue [] ['{', '}'] [] rfl rfl)
  exact ⟨_, h.snoc (@Step.eof _ 0 0 firstQueue ['{', '}'] rfl (by decide)), rfl⟩

/-- And has the whole of it. -/
theorem read_whole_oneReader :
    ∃ l₁ l₂, oneReader = l₁ ++ .openState 0 :: l₂ ∧
      (published l₁ firstQueue).getLast? = some ['{', '}'] := by
  obtain ⟨s, hrun, hr⟩ := run_oneReader
  exact read_whole hrun hr

end StateFiles
