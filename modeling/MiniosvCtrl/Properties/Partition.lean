import Mathlib.Algebra.BigOperators.Fin
import Mathlib.Algebra.Order.BigOperators.Group.Finset
import Mathlib.Data.UInt
import MiniosvCtrl.AnyBlob.Callback
import MiniosvCtrl.Infra.Lists

/-!
# What AnyBlob's counters add up to

* `Progress` — what a callback has done and what is left of it is all of it
* `Counted` — a counter is the number of its operations that were done
* `Returned` — when `main` leaves its wait loop no callback has a counter left to touch
* **`counters_partition`** — the four outcomes add up to the requests, the workers' bytes to the
  bodies, and `COMPLETE` says that every request was answered with its block
-/

namespace AnyBlob

open Infra

variable {a : Fetch} {s t : State a} {ev : Event a} {l : List (Event a)} {r : a.Request}

/-! ## What was done -/

/-- The operations that were done. -/
def opsOf (l : List (Event a)) : List Op := l.filterMap Event.op

/-- What the callback of the request has done. -/
def doneBy (r : a.Request) (l : List (Event a)) : List Op :=
  opsOf (l.filter fun ev => ev.request = r)

/-- What the thread of the worker has done. -/
def doneOn (w : a.Worker) (l : List (Event a)) : List Op :=
  opsOf (l.filter fun ev => ev.worker = w)

theorem doneBy_perm (l : List (Event a)) :
    ((List.finRange a.c.requests.toNat).flatMap fun r => doneBy r l).Perm (opsOf l) := by
  have h := (flatMap_filter_perm Event.request (List.nodup_finRange _) (l := l) fun ev _ =>
    List.mem_finRange ev.request).filterMap Event.op
  rw [List.filterMap_flatMap] at h
  exact h

theorem doneOn_perm (l : List (Event a)) :
    ((List.finRange a.c.workers.toNat).flatMap fun w => doneOn w l).Perm (opsOf l) := by
  have h := (flatMap_filter_perm Event.worker (List.nodup_finRange _) (l := l) fun ev _ =>
    List.mem_finRange ev.worker).filterMap Event.op
  rw [List.filterMap_flatMap] at h
  exact h

theorem opsOf_snoc : opsOf (l ++ [ev]) = opsOf l ++ ev.op.toList := by
  cases hop : ev.op <;> simp [opsOf, hop]

theorem doneBy_snoc (r : a.Request) : doneBy r (l ++ [ev]) =
    doneBy r l ++ if ev.request = r then ev.op.toList else [] := by
  by_cases hr : ev.request = r <;> cases hop : ev.op <;> simp [doneBy, opsOf, hr, hop]

theorem doneOn_snoc (w : a.Worker) : doneOn w (l ++ [ev]) =
    doneOn w l ++ if ev.worker = w then ev.op.toList else [] := by
  by_cases hw : ev.worker = w <;> cases hop : ev.op <;> simp [doneOn, opsOf, hw, hop]

/-! ## Callbacks and counters -/

/-- The request's callback has done nothing yet, or is left with the rest of it. -/
inductive Progress (l : List (Event a)) (s : State a) (r : a.Request) : Prop
  | queued (phase : s.phase r = .queued) (done : doneBy r l = [])
  | called {w : a.Worker} {f : UInt64} {rest : List Op} (ns : UInt64)
      (phase : s.phase r = .called w f rest)
      (done : doneBy r l ++ rest = a.callback (a.results r) ns)

theorem State.exec_firstIdleNs (s : State a) (w : a.Worker) (f ns : UInt64) :
    ∃ n, s.exec w f (.firstIdleNs ns) = { s with firstIdleNs := n } := by
  by_cases hidle : a.c.requests - f < a.c.workers.toUInt64 * a.perDaemon.toUInt64
  · exact ⟨_, if_pos hidle⟩
  · exact ⟨s.firstIdleNs, if_neg hidle⟩

theorem Step.other (h : Step s ev t) (hr : ev.request ≠ r) : t.phase r = s.phase r := by
  cases h with
  | call => exact Function.update_of_ne hr.symm ..
  | @exec _ w f op _ _ =>
    have hexec : (s.exec w f op).phase = s.phase := by
      cases op with
      | firstIdleNs ns =>
        obtain ⟨n, hn⟩ := s.exec_firstIdleNs w f ns
        rw [hn]
      | _ => rfl
    exact (Function.update_of_ne hr.symm ..).trans (congrFun hexec r)

theorem step_progress (hinv : Progress l s r) (h : Step s ev t) : Progress (l ++ [ev]) t r := by
  by_cases hr : ev.request = r
  swap
  · have hdone : doneBy r (l ++ [ev]) = doneBy r l := by
      rw [doneBy_snoc, if_neg hr, List.append_nil]
    cases hinv with
    | queued phase done => exact .queued ((h.other hr).trans phase) (hdone.trans done)
    | called ns phase done => exact .called ns ((h.other hr).trans phase) (hdone ▸ done)
  subst hr
  cases h with
  | @call r w ns hph hfree =>
    cases hinv with
    | queued _ done =>
      refine .called ns (Function.update_self ..) ?_
      rw [doneBy_snoc, done, if_pos rfl]
      rfl
    | called _ phase _ =>
      rw [hph] at phase
      cases phase
  | @exec r w f op rest hph =>
    cases hinv with
    | queued phase _ =>
      rw [hph] at phase
      cases phase
    | called ns phase done =>
      obtain ⟨rfl, rfl, rfl⟩ : _ ∧ _ ∧ _ := by
        rw [hph] at phase
        exact Phase.called.inj phase
      refine .called ns (Function.update_self ..) ?_
      rw [doneBy_snoc, if_pos rfl, List.append_assoc]
      exact done

/-- The counters that are only counted up. -/
def counting : List Op := [.finished, .ok, .badStatus, .shortBody, .failed]

/-- The counter of an operation. -/
def State.counter (s : State a) : Op → UInt64
  | .finished => s.finished
  | .ok => s.ok
  | .badStatus => s.badStatus
  | .shortBody => s.shortBody
  | .failed => s.failed
  | _ => 0

/-- The bytes an operation adds. -/
def Op.size : Op → UInt64
  | .bytes size => size
  | _ => 0

structure Counted (l : List (Event a)) (s : State a) : Prop where
  counter : ∀ op ∈ counting, s.counter op = .ofNat ((opsOf l).count op)
  bytes : ∀ w, s.bytes w = ((doneOn w l).map Op.size).sum

theorem State.exec_counter (s : State a) (w : a.Worker) (f : UInt64) (op : Op) {k : Op}
    (hk : k ∈ counting) :
    (s.exec w f op).counter k = s.counter k + if op = k then 1 else 0 := by
  simp only [counting, List.mem_cons, List.not_mem_nil, or_false] at hk
  cases op with
  | firstIdleNs ns =>
    obtain ⟨n, hn⟩ := s.exec_firstIdleNs w f ns
    rcases hk with rfl | rfl | rfl | rfl | rfl <;> simp [hn, State.counter]
  | _ => rcases hk with rfl | rfl | rfl | rfl | rfl <;> simp [State.exec, State.counter]

theorem State.exec_bytes (s : State a) (w : a.Worker) (f : UInt64) (op : Op) (w' : a.Worker) :
    (s.exec w f op).bytes w' = s.bytes w' + if w = w' then op.size else 0 := by
  cases op with
  | bytes size =>
    by_cases hw : w = w'
    · subst hw
      simp [State.exec, Op.size]
    · simp [State.exec, hw, Function.update_of_ne (Ne.symm hw)]
  | firstIdleNs ns =>
    obtain ⟨n, hn⟩ := s.exec_firstIdleNs w f ns
    simp [hn, Op.size]
  | _ => simp [State.exec, Op.size]

theorem step_counted (hinv : Counted l s) (h : Step s ev t) : Counted (l ++ [ev]) t := by
  cases h with
  | @call r w ns hph hfree =>
    refine ⟨fun op hop => ?_, fun w' => ?_⟩
    · rw [opsOf_snoc, Option.toList_none, List.append_nil]
      exact (hinv.counter op hop : s.counter op = _)
    · rw [doneOn_snoc, Option.toList_none, ite_self, List.append_nil]
      exact hinv.bytes w'
  | @exec r w f op rest hph =>
    refine ⟨fun k hk => ?_, fun w' => ?_⟩
    · have hstate : (s.exec w f op).counter k = _ := s.exec_counter w f op hk
      rw [hinv.counter k hk] at hstate
      refine Eq.trans (b := (s.exec w f op).counter k) rfl (hstate.trans ?_)
      rw [opsOf_snoc, Option.toList_some, List.count_append, List.count_singleton, UInt64.ofNat_add]
      by_cases hop : op = k <;> simp [hop]
    · have hstate : (s.exec w f op).bytes w' = _ := s.exec_bytes w f op w'
      rw [hinv.bytes w'] at hstate
      refine Eq.trans (b := (s.exec w f op).bytes w') rfl (hstate.trans ?_)
      rw [doneOn_snoc, Option.toList_some, List.map_append, List.sum_append]
      by_cases hw : w = w' <;> simp [hw]

theorem run_progress (h : Run Step (State.init a) l s) (r : a.Request) : Progress l s r := by
  induction h with
  | nil => exact .queued rfl rfl
  | snoc _ hstep ih => exact step_progress ih hstep

theorem run_counted (h : Run Step (State.init a) l s) : Counted l s := by
  induction h with
  | nil =>
    refine ⟨fun op hop => ?_, fun w => rfl⟩
    simp only [counting, List.mem_cons, List.not_mem_nil, or_false] at hop
    rcases hop with rfl | rfl | rfl | rfl | rfl <;> rfl
  | snoc _ hstep ih => exact step_counted ih hstep

/-! ## What a whole callback does -/

namespace Fetch

variable (a) (res : MessageResult) (ns : UInt64)

/-- The request was answered with its block. -/
def Good : Prop := res.success = true ∧ res.responseCodeNumber = 206 ∧ res.size = a.c.block

instance : Decidable (a.Good res) := by
  unfold Good
  infer_instance

/-- A callback takes one of four branches. -/
theorem callback_cases :
    (res.success = false ∧ ∃ line, a.callback res ns =
      [.bytes 0, .done, .lastFinishNs ns, .failed, .errShown line, .finished, .firstIdleNs ns]) ∨
    (res.success = true ∧ res.responseCodeNumber ≠ 206 ∧ a.callback res ns =
      [.bytes res.size, .done, .lastFinishNs ns, .badStatus, .firstBad res.responseCodeNumber,
        .finished, .firstIdleNs ns]) ∨
    (res.success = true ∧ res.size ≠ a.c.block ∧ ∃ line, a.callback res ns =
      [.bytes res.size, .done, .lastFinishNs ns, .shortBody, .errShown line, .finished,
        .firstIdleNs ns]) ∨
    (a.Good res ∧ a.callback res ns =
      [.bytes res.size, .done, .lastFinishNs ns, .ok, .finished, .firstIdleNs ns]) := by
  cases hsuccess : res.success with
  | false => exact Or.inl ⟨rfl, _, by simp only [callback, hsuccess]; rfl⟩
  | true =>
    by_cases hcode : res.responseCodeNumber = 206
    · by_cases hsize : res.size = a.c.block
      · exact Or.inr (Or.inr (Or.inr ⟨⟨hsuccess, hcode, hsize⟩,
          by simp [callback, hsuccess, hcode, hsize, wantCode]⟩))
      · refine Or.inr (Or.inr (Or.inl ⟨rfl, hsize, ?_⟩))
        simp [callback, hsuccess, hcode, hsize, wantCode]
    · exact Or.inr (Or.inl ⟨rfl, hcode, by simp [callback, hsuccess, hcode, wantCode]⟩)

theorem count_finished : (a.callback res ns).count .finished = 1 := by
  obtain ⟨-, line, h⟩ | ⟨-, -, h⟩ | ⟨-, -, line, h⟩ | ⟨-, h⟩ := a.callback_cases res ns <;>
    simp [h]

theorem count_le {op : Op} (hop : op ∈ counting) : (a.callback res ns).count op ≤ 1 := by
  simp only [counting, List.mem_cons, List.not_mem_nil, or_false] at hop
  obtain ⟨-, line, h⟩ | ⟨-, -, h⟩ | ⟨-, -, line, h⟩ | ⟨-, h⟩ := a.callback_cases res ns <;>
    rcases hop with rfl | rfl | rfl | rfl | rfl <;> simp [h]

theorem count_ok : (a.callback res ns).count .ok = if a.Good res then 1 else 0 := by
  obtain ⟨hs, line, h⟩ | ⟨-, hc, h⟩ | ⟨-, hb, line, h⟩ | ⟨hg, h⟩ := a.callback_cases res ns
  · simp [h, Good, hs]
  · simp [h, Good, hc]
  · simp [h, Good, hb]
  · simp [h, hg]

/-- A callback counts one outcome. -/
theorem count_outcomes : (a.callback res ns).count .ok + (a.callback res ns).count .badStatus +
    (a.callback res ns).count .shortBody + (a.callback res ns).count .failed = 1 := by
  obtain ⟨-, line, h⟩ | ⟨-, -, h⟩ | ⟨-, -, line, h⟩ | ⟨-, h⟩ := a.callback_cases res ns <;>
    simp [h]

theorem sum_size :
    ((a.callback res ns).map Op.size).sum = if res.success then res.size else 0 := by
  obtain ⟨hs, line, h⟩ | ⟨hs, -, h⟩ | ⟨hs, -, line, h⟩ | ⟨⟨hs, -⟩, h⟩ := a.callback_cases res ns <;>
    simp [h, hs, Op.size]

end Fetch

/-! ## When `main` leaves its loop -/

theorem count_opsOf (l : List (Event a)) (op : Op) :
    (opsOf l).count op = ∑ r : a.Request, (doneBy r l).count op := by
  rw [← (doneBy_perm l).count_eq, List.count_flatMap, Fin.sum_univ_def]
  rfl

theorem Progress.count_finished_le (h : Progress l s r) : (doneBy r l).count .finished ≤ 1 := by
  cases h with
  | queued _ done => simp [done]
  | called ns _ done =>
    rw [← a.count_finished (a.results r) ns, ← done, List.count_append]
    exact Nat.le_add_right ..

/-- The request's callback has no counter left to touch. -/
def Returned (r : a.Request) (l : List (Event a)) : Prop :=
  ∃ ns rest, doneBy r l ++ rest = a.callback (a.results r) ns ∧
    ∀ op ∈ rest, op = .firstIdleNs ns

/-- What a callback does after `finished` counts nothing. -/
theorem Progress.returned (h : Progress l s r) (hone : (doneBy r l).count .finished = 1) :
    Returned r l := by
  cases h with
  | queued _ done =>
    rw [done] at hone
    cases hone
  | @called w f rest ns _ done =>
    refine ⟨ns, rest, done, ?_⟩
    have hrest : rest.count .finished = 0 := by
      have hall := a.count_finished (a.results r) ns
      rw [← done, List.count_append] at hall
      omega
    obtain ⟨pre, hpre⟩ : ∃ pre, a.callback (a.results r) ns =
        (pre ++ [.finished]) ++ [.firstIdleNs ns] := ⟨_, by
      unfold Fetch.callback
      rw [List.append_assoc _ [Op.finished]]
      rfl⟩
    rw [hpre] at done
    rcases List.append_eq_append_iff.mp done with ⟨x, hx, hrest'⟩ | ⟨x, hx, hidle⟩
    · -- `finished` would be among what is left
      rcases List.eq_nil_or_concat x with rfl | ⟨y, op, rfl⟩
      · rw [List.nil_append] at hrest'
        rw [hrest']
        exact fun op hop => List.mem_singleton.mp hop
      · rw [List.concat_eq_append, ← List.append_assoc] at hx
        obtain rfl : Op.finished = op := by
          simpa using (List.append_inj' hx rfl).2
        rw [hrest'] at hrest
        simp at hrest
    · intro op hop
      exact List.mem_singleton.mp (hidle ▸ List.mem_append_right x hop)

/-- When `main` leaves its loop every callback has counted itself. -/
theorem returned_of_left (h : Run Step (State.init a) l s) (hleft : Left s) (r : a.Request) :
    Returned r l := by
  have hle : ∀ r, (doneBy r l).count .finished ≤ 1 := fun r => (run_progress h r).count_finished_le
  have hsum : ∑ r : a.Request, (doneBy r l).count .finished ≤ ∑ _r : a.Request, 1 :=
    Finset.sum_le_sum fun r _ => hle r
  have hcount : s.finished = .ofNat ((opsOf l).count .finished) :=
    (run_counted h).counter .finished (by simp [counting])
  have hlt := a.c.requests.toNat_lt
  have hleftN : a.c.requests.toNat ≤ s.finished.toNat := UInt64.le_iff_toNat_le.mp hleft
  have hone : ∑ _r : a.Request, 1 = a.c.requests.toNat := by simp
  rw [count_opsOf] at hcount
  rw [hcount, UInt64.toNat_ofNat', Nat.mod_eq_of_lt (by omega)] at hleftN
  have hall : ∑ r : a.Request, (doneBy r l).count .finished = ∑ _r : a.Request, 1 := by omega
  have heq := (Finset.sum_eq_sum_iff_of_le fun r _ => hle r).mp hall
  exact (run_progress h r).returned (heq r (Finset.mem_univ r))

/-- A callback that has counted itself has done all there is of the other operations. -/
theorem Returned.count_eq (h : Returned r l) :
    ∃ ns, (∀ op ∈ counting, (doneBy r l).count op = (a.callback (a.results r) ns).count op) ∧
      ((doneBy r l).map Op.size).sum = ((a.callback (a.results r) ns).map Op.size).sum := by
  obtain ⟨ns, rest, hdone, hrest⟩ := h
  refine ⟨ns, fun op hop => ?_, ?_⟩
  · have hzero : rest.count op = 0 := List.count_eq_zero.mpr fun hmem => by
      rw [hrest op hmem] at hop
      simp [counting] at hop
    rw [← hdone, List.count_append, hzero, Nat.add_zero]
  · have hzero : (rest.map Op.size).sum = 0 := by
      refine List.sum_eq_zero fun size hsize => ?_
      obtain ⟨op, hop, rfl⟩ := List.mem_map.mp hsize
      rw [hrest op hop]
      rfl
    rw [← hdone, List.map_append, List.sum_append, hzero, UInt64.add_zero]

theorem totalB_eq (h : Run Step (State.init a) l s) :
    totalB s = ∑ r : a.Request, ((doneBy r l).map Op.size).sum := by
  have hworkers : totalB s = ((opsOf l).map Op.size).sum := by
    rw [totalB, ← ((doneOn_perm l).map Op.size).sum_eq, List.map_flatMap, List.flatMap_def,
      List.sum_flatten, List.map_map]
    exact congrArg List.sum (List.map_congr_left fun w _ => (run_counted h).bytes w)
  rw [hworkers, ← ((doneBy_perm l).map Op.size).sum_eq, List.map_flatMap, List.flatMap_def,
    List.sum_flatten, List.map_map, Fin.sum_univ_def]
  rfl

/-- When `main` leaves its loop the counters are those of the requests' whole callbacks. -/
theorem counters_of_left (h : Run Step (State.init a) l s) (hleft : Left s) :
    ∃ ns : a.Request → UInt64,
      (∀ op ∈ counting,
        (s.counter op).toNat = ∑ r, (a.callback (a.results r) (ns r)).count op) ∧
      totalB s = ∑ r, ((a.callback (a.results r) (ns r)).map Op.size).sum := by
  choose ns hcounts hsizes using fun r => (returned_of_left h hleft r).count_eq
  refine ⟨ns, fun op hop => ?_, ?_⟩
  · have hle : ∑ r, (a.callback (a.results r) (ns r)).count op ≤ ∑ _r : a.Request, 1 :=
      Finset.sum_le_sum fun r _ => a.count_le (a.results r) (ns r) hop
    have hone : ∑ _r : a.Request, 1 = a.c.requests.toNat := by simp
    rw [(run_counted h).counter op hop, count_opsOf,
      Finset.sum_congr rfl fun r _ => hcounts r op hop, UInt64.toNat_ofNat',
      Nat.mod_eq_of_lt (hle.trans_lt (hone.trans_lt a.c.requests.toNat_lt))]
  · rw [totalB_eq h]
    exact Finset.sum_congr rfl fun r _ => hsizes r

theorem sum_const (b : UInt64) (n : Nat) :
    ((List.range n).map fun _ => b).sum = ((List.finRange n).map fun _ => b).sum := by
  rw [List.map_const', List.map_const', List.length_range, List.length_finRange]

theorem totalExpected_eq (a : Fetch) : totalExpected a = ∑ _r : a.Request, a.c.block := by
  have hblock : ∀ id, (a.c.blockRange id).2 - (a.c.blockRange id).1 = a.c.block := by
    intro id
    show (a.c.blockRange id).1 + a.c.block - (a.c.blockRange id).1 = a.c.block
    rw [UInt64.add_comm, UInt64.add_sub_cancel]
  rw [totalExpected, List.map_congr_left fun id _ => hblock (.ofNat id), sum_const,
    Fin.sum_univ_def]

theorem complete_iff (s : State a) : complete s = true ↔ s.ok = a.c.requests ∧
    totalB s = totalExpected a ∧ s.failed = 0 ∧ s.badStatus = 0 ∧ s.shortBody = 0 := by
  simp [complete, and_assoc]

/--
**When `main` leaves its wait loop the outcomes add up to the requests and the workers' bytes to
the successful bodies, and it says `COMPLETE` exactly if every request got its block.**
-/
theorem counters_partition (h : Run Step (State.init a) l s) (hleft : Left s) :
    s.ok.toNat + s.badStatus.toNat + s.shortBody.toNat + s.failed.toNat = a.c.requests.toNat ∧
    totalB s = ((List.finRange a.c.requests.toNat).map fun r =>
      if (a.results r).success then (a.results r).size else 0).sum ∧
    ((∃ line, verdict s = .complete line) ↔ ∀ r, (a.results r).success = true ∧
      (a.results r).responseCodeNumber = 206 ∧ (a.results r).size = a.c.block) := by
  obtain ⟨ns, hcounters, hbytes⟩ := counters_of_left h hleft
  have hok : s.ok.toNat = ∑ r, if a.Good (a.results r) then 1 else 0 := by
    rw [← Finset.sum_congr rfl fun r _ => a.count_ok (a.results r) (ns r)]
    exact hcounters .ok (by simp [counting])
  have hpartition : s.ok.toNat + s.badStatus.toNat + s.shortBody.toNat + s.failed.toNat =
      a.c.requests.toNat := by
    have hone : ∑ r : a.Request, 1 = a.c.requests.toNat := by simp
    rw [← hone, ← Finset.sum_congr rfl fun r _ => a.count_outcomes (a.results r) (ns r),
      Finset.sum_add_distrib, Finset.sum_add_distrib, Finset.sum_add_distrib,
      ← hcounters .ok (by simp [counting]), ← hcounters .badStatus (by simp [counting]),
      ← hcounters .shortBody (by simp [counting]), ← hcounters .failed (by simp [counting])]
    rfl
  have hsum : totalB s =
      ∑ r, if (a.results r).success then (a.results r).size else 0 := by
    rw [hbytes]
    exact Finset.sum_congr rfl fun r _ => a.sum_size (a.results r) (ns r)
  refine ⟨hpartition, by rw [hsum, Fin.sum_univ_def], ?_⟩
  have hverdict : (∃ line, verdict s = .complete line) ↔ complete s = true := by
    unfold verdict
    split
    · next hc => simp [hc]
    · next hc => simp [hc]
  rw [hverdict, complete_iff]
  show _ ↔ ∀ r, a.Good (a.results r)
  constructor
  · rintro ⟨hall, -⟩ r
    -- every request is counted in `ok`
    have hle : ∀ r ∈ Finset.univ, (if a.Good (a.results r) then 1 else 0) ≤ 1 := by
      intro r _
      split <;> omega
    have hfull : ∑ r, (if a.Good (a.results r) then 1 else 0) = ∑ _r : a.Request, 1 := by
      rw [← hok, hall]
      simp
    have hgood := (Finset.sum_eq_sum_iff_of_le hle).mp hfull r (Finset.mem_univ r)
    by_contra hnot
    rw [if_neg hnot] at hgood
    cases hgood
  · intro hgood
    have hfull : s.ok.toNat = a.c.requests.toNat := by
      rw [hok, Finset.sum_congr rfl fun r _ => if_pos (hgood r)]
      simp
    have hzero : ∀ n : UInt64, n.toNat = 0 → n = 0 := fun n hn => UInt64.toNat_inj.mp hn
    refine ⟨UInt64.toNat_inj.mp hfull, ?_, hzero _ (by omega), hzero _ (by omega),
      hzero _ (by omega)⟩
    rw [hsum, totalExpected_eq]
    refine Finset.sum_congr rfl fun r _ => ?_
    rw [if_pos (hgood r).1, (hgood r).2.2]

/-- One worker and one request, which is answered with its block. -/
def oneRequest : Fetch :=
  { c :=
      { workers := 1, conns := 1, block := 8, blocks := 1, object := 8, workers_ne := by decide,
        conns_ne := by decide, block_ne := by decide, object_ne := by decide }
    maxConcurrentRequests := 1
    results := fun _ =>
      { success := true, size := 8, responseCodeNumber := 206, failureCode := 0 } }

theorem run_oneRequest :
    ∃ (l : List (Event oneRequest)) (s : State oneRequest),
      Run Step (State.init oneRequest) l s ∧ Left s := by
  let w : oneRequest.Worker := ⟨0, by decide⟩
  let r : oneRequest.Request := ⟨0, by decide⟩
  have hinit : Run Step (State.init oneRequest) [] (State.init oneRequest) := Run.nil
  have h₀ := hinit.snoc (a := ⟨r, w, none⟩)
    (@Step.call _ _ r w 7 rfl fun r f op rest => by nofun)
  have h₁ := h₀.snoc (a := ⟨r, w, some (.bytes 8)⟩) (.exec rfl)
  have h₂ := h₁.snoc (a := ⟨r, w, some .done⟩) (.exec rfl)
  have h₃ := h₂.snoc (a := ⟨r, w, some (.lastFinishNs 7)⟩) (.exec rfl)
  have h₄ := h₃.snoc (a := ⟨r, w, some .ok⟩) (.exec rfl)
  have h₅ := h₄.snoc (a := ⟨r, w, some .finished⟩) (.exec rfl)
  exact ⟨_, _, h₅, by unfold Left; decide⟩

theorem counters_partition_oneRequest :
    ∃ s : State oneRequest, Left s ∧
      s.ok.toNat + s.badStatus.toNat + s.shortBody.toNat + s.failed.toNat = 1 ∧
      ∃ line, verdict s = .complete line := by
  obtain ⟨l, s, h, hleft⟩ := run_oneRequest
  obtain ⟨hsum, -, hcomplete⟩ := counters_partition h hleft
  exact ⟨s, hleft, hsum, hcomplete.mpr fun _ => ⟨rfl, rfl, rfl⟩⟩

end AnyBlob
