import MiniosvCtrl.Properties.BlobRows

/-!
# A row of the AnyBlob sweep is what the library returned

The callbacks count on their threads and print in between; `main` prints the counts when the last
one is done, and the bench parses what it printed.

* `run_printed` — what the callbacks have printed, after any run
* `counts_of_left` — what they have counted when `main` leaves its wait loop
* **`row_answered`** — it has the outcomes of the requests, and is valid if all got their blocks
-/

namespace AnyBlob

open Infra Infra.Regex Runner
open LinuxS3 (Piece Line Mutes Plain)

variable {a : Fetch} {s t : State a} {ev : Event a} {l : List (Event a)}

/-! ## What the callbacks print -/

/-- A text that the worker's callback prints. -/
def calledLine (w : Nat) (rest : Line) : Line := .lit "q" :: .num w :: .lit ": " :: rest

def failedRest (r : MessageResult) : Line :=
  [.lit "request failed: failure_code=", .num r.failureCode.toNat, .lit " http=",
    .num r.responseCodeNumber.toNat]

def shortRest (size wanted : UInt64) : Line :=
  [.lit "body ", .num size.toNat, .lit " B, wanted ", .num wanted.toNat]

open Report (toList_toString_uint)

theorem toList_failed (r : MessageResult) :
    ("request failed: failure_code=" ++ toString r.failureCode ++ " http=" ++
      toString r.responseCodeNumber).toList = (failedRest r).chars := by
  simp [failedRest, Piece.chars, toList_toString_uint]

theorem toList_short (size wanted : UInt64) :
    ("body " ++ toString size ++ " B, wanted " ++ toString wanted).toList =
      (shortRest size wanted).chars := by
  simp [shortRest, Piece.chars, toList_toString_uint]

/-- Two branches of a callback print something. -/
theorem errShown_of_mem {r : MessageResult} {ns : UInt64} {line : String}
    (h : .errShown line ∈ a.callback r ns) :
    line.toList = (failedRest r).chars ∨ line.toList = (shortRest r.size a.c.block).chars := by
  unfold Fetch.callback at h
  cases hsuccess : r.success with
  | false =>
    simp only [hsuccess, Bool.not_false, if_true, List.mem_append, List.mem_cons, reduceCtorEq,
      List.not_mem_nil, or_false, false_or, Op.errShown.injEq] at h
    exact Or.inl (h ▸ toList_failed r)
  | true =>
    simp only [hsuccess, Bool.not_true, Bool.false_eq_true, if_false, if_true, List.mem_append,
      List.mem_cons, reduceCtorEq, List.not_mem_nil, or_false, false_or] at h
    split at h
    · simp at h
    · split at h
      · simp only [List.mem_cons, reduceCtorEq, List.not_mem_nil, or_false, false_or,
          Op.errShown.injEq] at h
        exact Or.inr (h ▸ toList_short r.size a.c.block)
      · simp at h

/-- Words that no callback prints. -/
def unsaid : List (List Char) := ['\n'] :: LinuxS3.words

theorem mutes_calledLine (w : Nat) {rest : Line} (h : Mutes unsaid rest) :
    Mutes unsaid (calledLine w rest) := .lit rfl (.num rfl (.lit rfl h))

theorem mutes_failedRest (r : MessageResult) : Mutes unsaid (failedRest r) :=
  .lit rfl (.num rfl (.lit rfl (.num rfl .nil)))

theorem mutes_shortRest (size wanted : UInt64) : Mutes unsaid (shortRest size wanted) :=
  .lit rfl (.num rfl (.lit rfl (.num rfl .nil)))

theorem isCalled_of_mutes {w : Nat} {rest : Line} {line : String} (hrest : Mutes unsaid rest)
    (hline : line.toList = rest.chars) : IsCalled ("q" ++ toString w ++ ": " ++ line) := by
  have hchars : ("q" ++ toString w ++ ": " ++ line).toList = (calledLine w rest).chars := by
    simp [calledLine, Piece.chars, hline]
  have hmutes := mutes_calledLine w hrest
  refine ⟨by rw [hchars]; rfl, ?_, fun s hs => ?_⟩
  · rw [hchars]
    exact (hmutes _ List.mem_cons_self).not_mem
  · rw [hchars]
    exact (hmutes s (List.mem_cons_of_mem _ hs)).free (LinuxS3.ne_nil_of_mem_words hs)

theorem printed_exec (s : State a) (w : a.Worker) (f : UInt64) (op : Op) {line : String}
    (h : line ∈ (s.exec w f op).printed) : line ∈ s.printed ∨
      ∃ text, op = .errShown text ∧ line = "q" ++ toString w.val ++ ": " ++ text := by
  cases op with
  | errShown text =>
    show line ∈ s.printed ∨ _
    simp only [State.exec] at h
    split at h
    · rcases List.mem_append.mp h with h | h
      · exact Or.inl h
      · exact Or.inr ⟨text, rfl, List.mem_singleton.mp h⟩
    · exact Or.inl h
  | firstIdleNs ns =>
    obtain ⟨n, hn⟩ := s.exec_firstIdleNs w f ns
    rw [hn] at h
    exact Or.inl h
  | _ => exact Or.inl h

/-- **Whatever the callbacks print, in whatever order, each line begins with its worker.** -/
theorem run_printed (h : Run Step (State.init a) l s) : ∀ line ∈ s.printed, IsCalled line := by
  induction h with
  | nil => exact fun line hline => absurd hline List.not_mem_nil
  | @snoc l s ev t hrun hstep ih =>
    intro line hline
    cases hstep with
    | call => exact ih line hline
    | @exec r w f op rest hph =>
      rcases printed_exec s w f op hline with hline | ⟨text, rfl, rfl⟩
      · exact ih line hline
      · -- the operation is one of its callback's
        cases run_progress hrun r with
        | queued hqueued =>
          rw [hph] at hqueued
          cases hqueued
        | called ns hcalled hdone =>
          obtain ⟨rfl, rfl, rfl⟩ : _ ∧ _ ∧ _ := by
            rw [hph] at hcalled
            exact Phase.called.inj hcalled
          have hmem : .errShown text ∈ a.callback (a.results r) ns := by
            rw [← hdone]
            exact List.mem_append_right _ List.mem_cons_self
          rcases errShown_of_mem hmem with htext | htext
          · exact isCalled_of_mutes (mutes_failedRest _) htext
          · exact isCalled_of_mutes (mutes_shortRest _ _) htext

/-! ## What they count -/

/-- How many requests came to such an end. -/
def howMany (a : Fetch) (p : MessageResult → Prop) [DecidablePred p] : Nat :=
  (Finset.univ.filter fun r : a.Request => p (a.results r)).card

namespace Fetch

variable (a)

/-- The library gave up. -/
def Failed (r : MessageResult) : Prop := r.success = false

/-- Another code than that of a range. -/
def BadStatus (r : MessageResult) : Prop := r.success = true ∧ r.responseCodeNumber ≠ 206

def ShortBody (r : MessageResult) : Prop :=
  r.success = true ∧ r.responseCodeNumber = 206 ∧ r.size ≠ a.c.block

instance : DecidablePred Failed := fun r => inferInstanceAs (Decidable (r.success = false))

instance : DecidablePred BadStatus := fun r =>
  inferInstanceAs (Decidable (r.success = true ∧ r.responseCodeNumber ≠ 206))

instance : DecidablePred a.ShortBody := fun r =>
  inferInstanceAs (Decidable (r.success = true ∧ r.responseCodeNumber = 206 ∧ r.size ≠ a.c.block))

variable {a} (r : MessageResult) (ns : UInt64)

theorem count_failed : (a.callback r ns).count .failed = if Failed r then 1 else 0 := by
  obtain ⟨hs, line, h⟩ | ⟨hs, -, h⟩ | ⟨hs, -, line, h⟩ | ⟨⟨hs, -⟩, h⟩ := a.callback_cases r ns
  · simp [h, Failed, hs]
  · simp [h, Failed, hs]
  · simp [h, Failed, hs]
  · simp [h, Failed, hs]

theorem count_badStatus : (a.callback r ns).count .badStatus = if BadStatus r then 1 else 0 := by
  cases hs : r.success with
  | false => simp [callback, BadStatus, hs]
  | true =>
    by_cases hc : r.responseCodeNumber = 206
    · by_cases hb : r.size = a.c.block
      · simp [callback, BadStatus, wantCode, hs, hc, hb]
      · simp [callback, BadStatus, wantCode, hs, hc, hb]
    · simp [callback, BadStatus, wantCode, hs, hc]

theorem count_shortBody : (a.callback r ns).count .shortBody = if a.ShortBody r then 1 else 0 := by
  cases hs : r.success with
  | false => simp [callback, ShortBody, hs]
  | true =>
    by_cases hc : r.responseCodeNumber = 206
    · by_cases hb : r.size = a.c.block
      · simp [callback, ShortBody, wantCode, hs, hc, hb]
      · simp [callback, ShortBody, wantCode, hs, hc, hb]
    · simp [callback, ShortBody, wantCode, hs, hc]

end Fetch

theorem howMany_eq_sum (p : MessageResult → Prop) [DecidablePred p] :
    howMany a p = ∑ r : a.Request, if p (a.results r) then 1 else 0 :=
  Finset.card_filter _ _

/-- **Each counter has the number of the requests that came to its end.** -/
theorem counts_of_left (h : Run Step (State.init a) l s) (hleft : Left s) :
    s.ok.toNat = howMany a a.Good ∧ s.failed.toNat = howMany a Fetch.Failed ∧
      s.badStatus.toNat = howMany a Fetch.BadStatus ∧
      s.shortBody.toNat = howMany a a.ShortBody := by
  obtain ⟨ns, hcounters, -⟩ := counters_of_left h hleft
  have hsum : ∀ (op : Op) (p : MessageResult → Prop) [DecidablePred p], op ∈ counting →
      (∀ r ns, (a.callback r ns).count op = if p r then 1 else 0) →
      (s.counter op).toNat = howMany a p := fun op p _ hop hcount => by
    rw [howMany_eq_sum, ← Finset.sum_congr rfl fun r _ => hcount (a.results r) (ns r)]
    exact hcounters op hop
  exact ⟨hsum .ok a.Good (by simp [counting]) fun r ns => a.count_ok r ns,
    hsum .failed Fetch.Failed (by simp [counting]) Fetch.count_failed,
    hsum .badStatus Fetch.BadStatus (by simp [counting]) Fetch.count_badStatus,
    hsum .shortBody a.ShortBody (by simp [counting]) Fetch.count_shortBody⟩

theorem howMany_eq_zero {p : MessageResult → Prop} [DecidablePred p]
    (h : ∀ r : a.Request, ¬p (a.results r)) : howMany a p = 0 := by
  rw [howMany, Finset.card_eq_zero, Finset.filter_eq_empty_iff]
  exact fun r _ => h r

theorem all_of_howMany {p : MessageResult → Prop} [DecidablePred p]
    (h : howMany a p = a.c.requests.toNat) (r : a.Request) : p (a.results r) := by
  have hcard : (Finset.univ.filter fun r : a.Request => p (a.results r)).card =
      (Finset.univ : Finset a.Request).card := by
    rw [Finset.card_univ, Fintype.card_fin]
    exact h
  exact Finset.card_filter_eq_iff.mp hcard r (Finset.mem_univ r)

/-- **`main` says `COMPLETE` if every request was answered with its block, and only then.** -/
theorem complete_iff_good (h : Run Step (State.init a) l s) (hleft : Left s) :
    complete s = true ↔ ∀ r, a.Good (a.results r) := by
  obtain ⟨hok, hfailed, hbad, hshort⟩ := counts_of_left h hleft
  have hzero : ∀ n : UInt64, n.toNat = 0 → n = 0 := fun n hn => UInt64.toNat_inj.mp hn
  rw [complete_iff]
  constructor
  · rintro ⟨hall, -⟩
    exact all_of_howMany (hok.symm.trans (congrArg UInt64.toNat hall))
  · intro hgood
    obtain ⟨ns, -, hbytes⟩ := counters_of_left h hleft
    refine ⟨UInt64.toNat_inj.mp ?_, ?_, hzero _ ?_, hzero _ ?_, hzero _ ?_⟩
    · rw [hok, howMany, Finset.filter_true_of_mem fun r _ => hgood r, Finset.card_univ,
        Fintype.card_fin]
    · rw [hbytes, totalExpected_eq]
      refine Finset.sum_congr rfl fun r _ => ?_
      rw [a.sum_size, if_pos (hgood r).1, (hgood r).2.2]
    · rw [hfailed]
      exact howMany_eq_zero fun r hr => by
        rw [Fetch.Failed, (hgood r).1] at hr
        cases hr
    · rw [hbad]
      exact howMany_eq_zero fun r hr => hr.2 (hgood r).2.1
    · rw [hshort]
      exact howMany_eq_zero fun r hr => hr.2.2 (hgood r).2.2

/--
**The row has the outcomes of the requests, and is valid if every request was answered with its
block, and only then**, in whatever order the callbacks counted and printed.
-/
theorem row_answered {B : Builtins} {F : Floats} {r : Report a}
    (h : Run Step (State.init a) l r.state) (hleft : Left r.state) (hr : r.Printable)
    (hfloat : ∀ places units, (B.float (LinuxS3.fixedChars places units)).isSome)
    (setting : Setting) :
    ∃ row, (stack B).rows B setting (r.text F) = some [row] ∧
      row "conns_total" = .int a.c.requests.toNat ∧
      row "conns_clean" = .int (howMany a a.Good) ∧
      row "setup_failed" = .int (howMany a Fetch.Failed) ∧
      row "http_bad" = .int (howMany a Fetch.BadStatus) ∧
      row "hdr_bad" = .int (howMany a a.ShortBody) ∧
      ((stack B).valid setting row = true ↔ ∀ req, a.Good (a.results req)) := by
  have hlegible : r.Legible := ⟨hr, run_printed h⟩
  obtain ⟨hok, hfailed, hbad, hshort⟩ := counts_of_left h hleft
  let value : Nat → Nat → B.Float := fun places units =>
    (B.float (LinuxS3.fixedChars places units)).get (hfloat places units)
  have hvalue : LinuxS3.Report.Reads B value := fun places units =>
    (Option.some_get (hfloat places units)).symm
  have hgate : AnyBlob.valid B (r.row value F setting) = complete r.state :=
    Report.valid_row hlegible setting
  refine ⟨r.row value F setting, Report.rows_text hlegible hvalue setting, ?_, ?_, ?_, ?_, ?_, ?_⟩
  · exact Report.row_of_not_mem (by decide) setting
  · rw [← hok]
    exact Report.row_of_not_mem (by decide) setting
  · rw [← hfailed]
    exact Report.row_of_not_mem (by decide) setting
  · rw [← hbad]
    exact Report.row_of_not_mem (by decide) setting
  · rw [← hshort]
    exact Report.row_of_not_mem (by decide) setting
  · rw [← complete_iff_good h hleft, ← hgate]
    rfl

/-- Whatever was counted. -/
def roundFloats : Floats :=
  { mib := fun _ => 10
    seconds := fun _ => 1500
    rate := fun _ _ => 7
    gbps := fun _ _ => 56
    peak := fun _ => 62
    hundredths := fun _ => 3
    cpuSeconds := fun _ => 4
    cores := fun _ _ => 5
    cpuRate := fun _ _ => 6
    tail := fun _ => 8 }

/-- A summary of a run of `oneRequest`. -/
def oneReport (s : State oneRequest) : Report oneRequest :=
  { state := s
    https := false
    chunk := 65536
    targetIp := "10.0.0.1"
    host := "bench"
    cores := 4
    poolNs := 1000000
    between := s.printed.map .called
    printed := by rw [List.filterMap_map]; exact List.filterMap_some
    endNs := 1500000000
    timings := []
    userUs := 1
    sysUs := 1
    samples := [] }

theorem printable_oneReport (s : State oneRequest) : (oneReport s).Printable := by
  have haddress : "10.0.0.1".toList.all (fun c => c.isDigit || c == '.') = true := rfl
  have hclears : (['\n'] :: LinuxS3.words).all (fun s => clears s "bench".toList) = true := rfl
  have hclear := fun s hs => clear_of_clears (List.all_eq_true.mp hclears s hs)
  refine ⟨fun c hc => by simpa using List.all_eq_true.mp haddress c hc,
    ⟨(hclear _ List.mem_cons_self).not_mem, fun s hs =>
      (hclear s (List.mem_cons_of_mem _ hs)).free (LinuxS3.ne_nil_of_mem_words hs)⟩, ?_⟩
  intro w what hmem
  obtain ⟨line, -, heq⟩ := List.mem_map.mp hmem
  cases heq

def plainSetting : Setting :=
  { launched := ⟨"spot", "eu-north-1a", "i-1", "anyblob.log", false⟩
    server := none
    benchZone := none
    ip := ""
    cfg := [] }

theorem row_answered_oneRequest : ∃ (r : Report oneRequest) (row : Record Builtins.exact),
    (stack Builtins.exact).rows Builtins.exact plainSetting (r.text roundFloats) = some [row] ∧
      row "conns_total" = .int oneRequest.c.requests.toNat ∧
      row "conns_clean" = .int (howMany oneRequest oneRequest.Good) ∧
      (stack Builtins.exact).valid plainSetting row = true := by
  obtain ⟨l, s, h, hleft⟩ := run_oneRequest
  have hfloat : ∀ places units,
      (Builtins.exact.float (LinuxS3.fixedChars places units)).isSome := fun places units =>
    Option.isSome_of_eq_some (LinuxS3.Report.reads_exact places units)
  obtain ⟨row, hrows, htotal, hclean, -, -, -, hvalid⟩ :=
    row_answered (F := roundFloats) (r := oneReport s) h hleft (printable_oneReport s) hfloat
      plainSetting
  exact ⟨oneReport s, row, hrows, htotal, hclean, hvalid.mpr fun _ => ⟨rfl, rfl, rfl⟩⟩

end AnyBlob
