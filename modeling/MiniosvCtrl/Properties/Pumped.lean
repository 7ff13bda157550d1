import MiniosvCtrl.LinuxS3.Pump
import MiniosvCtrl.Properties.Body

/-!
# What a pump does with a connection's bytes

Whatever rustls and the kernel answer, and in whatever order:

* `nothing_lost` — no byte is lost, repeated or reordered, in either direction
* `closedCleanly_iff` — when a connection counts as clean
* `counts_agree` — with TLS and without, the same response counts the same

`Flow` and `Control` are the invariants of `pump`. The first is about the buffers and the counts,
which a step changes one after another; the second ties them to the calls.
-/

namespace LinuxS3

/-- What the socket delivered. -/
def ReadResult.bytes : ReadResult → List UInt8
  | .data bytes => bytes
  | _ => []

def Answer.delivered : Answer → List UInt8
  | .read r => r.bytes
  | _ => []

/-- All that the socket delivered. -/
def delivered (l : List Answer) : List UInt8 := l.flatMap Answer.delivered

theorem delivered_concat (l : List Answer) (a : Answer) :
    delivered (l ++ [a]) = delivered l ++ a.delivered := by
  simp [delivered]

/-! ## Counting -/

theorem counted_concat (chunks : List (List UInt8)) (chunk : List UInt8) :
    counted (chunks ++ [chunk]) = countBody (counted chunks) chunk :=
  List.foldl_concat _ _ _ _

theorem counted_flatten (chunks : List (List UInt8)) :
    counted chunks = countHead 0 0 chunks.flatten := by
  induction chunks using List.reverseRecOn with
  | nil => rfl
  | append_singleton chunks chunk ih =>
    rw [counted_concat, ih, List.flatten_concat, countHead_append]

theorem bytes_counted (chunks : List (List UInt8)) :
    (counted chunks).bytes = .ofNat (bodyLength chunks.flatten) := by
  rw [counted_flatten]
  exact (bytes_countHead (k := 0) (by decide) 0 _).trans (UInt64.zero_add _)

/-- A tally beside the body. -/
def Counted.plus (c : Counted) (n : UInt64) : Counted := { c with bytes := c.bytes + n }

theorem countHead_plus (b n : UInt64) (st : UInt8) (data : List UInt8) :
    countHead (b + n) st data = (countHead b st data).plus n := by
  induction data generalizing st with
  | nil => rfl
  | cons x data ih =>
    rw [countHead, countHead]
    split
    · simp only [Counted.plus, Counted.mk.injEq, and_true]
      ac_rfl
    · exact ih _

theorem countBody_plus (c : Counted) (n : UInt64) (data : List UInt8) :
    countBody (c.plus n) data = (countBody c data).plus n := by
  obtain ⟨b, done, st⟩ := c
  cases done with
  | false => exact countHead_plus b n st data
  | true =>
    simp only [countBody, Counted.plus, if_true, Counted.mk.injEq, and_true]
    ac_rfl

namespace Pump

variable {stub : Bool} {worker : Nat} {s t : Pump}

/-! ## The buffers -/

/-- What came in is with rustls or waits for it, and what was counted came in. -/
structure Flow (stub : Bool) (s : Pump) : Prop where
  incoming : s.discarded ++ s.incoming = s.received
  counted : s.counted =
    (LinuxS3.counted s.payloads).plus (UInt64.ofNat s.tallied.flatten.length)
  tallied : s.tallied ≠ [] → stub = true ∧ s.handshakeDone = true ∧ s.requestQueued = true
  requests : s.requests = s.requestQueued.toNat
  handshake : s.requestQueued = true → s.handshakeDone = true

/-- Before the return: what rustls produced was sent or waits to be. -/
structure Open (s : Pump) : Prop where
  outgoing : s.sent ++ s.outgoing = s.encoded
  failed : s.failed = true ↔ s.fails ≠ []
  unclean : s.closedCleanly = false

theorem Flow.init : Flow stub init where
  incoming := rfl
  counted := rfl
  tallied := fun h => absurd rfl h
  requests := rfl
  handshake := fun h => by cases h

theorem Open.init : Open init where
  outgoing := rfl
  failed := by simp [Pump.init]
  unclean := rfl

theorem Flow.fail (h : Flow stub s) (f : Fail) : Flow stub (s.fail f) :=
  ⟨h.incoming, h.counted, h.tallied, h.requests, h.handshake⟩

theorem Open.fail (h : Open s) (f : Fail) : Open (s.fail f) :=
  ⟨h.outgoing, by simp [Pump.fail], h.unclean⟩

theorem Flow.produce (h : Flow stub s) (bytes : List UInt8) : Flow stub (s.produce bytes) :=
  ⟨h.incoming, h.counted, h.tallied, h.requests, h.handshake⟩

theorem Open.produce (h : Open s) (bytes : List UInt8) : Open (s.produce bytes) where
  outgoing := by
    show s.sent ++ (s.outgoing ++ bytes) = s.encoded ++ bytes
    rw [← List.append_assoc, h.outgoing]
  failed := h.failed
  unclean := h.unclean

theorem Flow.takeRecord (h : Flow stub s) (payload : List UInt8) :
    Flow stub (s.takeRecord payload) where
  incoming := h.incoming
  counted := by
    show countBody s.counted payload = _
    rw [h.counted, countBody_plus]
    exact congrArg (Counted.plus · _) (counted_concat _ _).symm
  tallied := h.tallied
  requests := h.requests
  handshake := h.handshake

theorem Flow.takeRecords (records : List (Except String (List UInt8))) (got : Bool)
    (h : Flow stub s) : Flow stub (s.takeRecords got records).1 := by
  induction records generalizing s got with
  | nil => exact h
  | cons r records ih =>
    cases r with
    | ok payload => exact ih true (h.takeRecord payload)
    | error e => exact h.fail _

theorem Open.takeRecords (records : List (Except String (List UInt8))) (got : Bool)
    (h : Open s) : Open (s.takeRecords got records).1 := by
  induction records generalizing s got with
  | nil => exact h
  | cons r records ih =>
    cases r with
    | ok payload => exact ih true ⟨h.outgoing, h.failed, h.unclean⟩
    | error e => exact h.fail _

/-- `handshake_done = true` -/
def handshaken (s : Pump) : Pump := { s with handshakeDone := true }

/-- `request_queued = true`, with what `encrypt` gave. -/
def queued (s : Pump) (bytes : List UInt8) : Pump :=
  { s.handshaken.produce bytes with requestQueued := true, requests := s.requests + 1 }

theorem advance_again (hq : s.requestQueued = true) (discard : Nat) (encrypt : Filled) :
    s.advance discard (.writeTraffic encrypt) = s.handshaken.drain discard false :=
  if_pos hq

theorem advance_first (hq : s.requestQueued = false) (discard : Nat) (bytes : List UInt8) :
    s.advance discard (.writeTraffic (.ok bytes)) = (s.queued bytes).drain discard true :=
  if_neg (Bool.eq_false_iff.mp hq)

theorem advance_refused (hq : s.requestQueued = false) (discard : Nat) (e : String)
    (left : List UInt8) : s.advance discard (.writeTraffic (.failed e left)) =
      ((s.handshaken.produce left).fail (.tlsEncrypt e)).flush :=
  if_neg (Bool.eq_false_iff.mp hq)

/-- The request goes out after the handshake, and once. -/
theorem Flow.queued (h : Flow stub s) (hq : s.requestQueued = false) (bytes : List UInt8) :
    Flow stub (s.queued bytes) where
  incoming := h.incoming
  counted := h.counted
  tallied := fun ht => ⟨(h.tallied ht).1, rfl, rfl⟩
  requests := by
    show s.requests + 1 = _
    rw [h.requests, hq]
    rfl
  handshake := fun _ => rfl

theorem Flow.handshaken (h : Flow stub s) : Flow stub s.handshaken :=
  ⟨h.incoming, h.counted, fun ht => ⟨(h.tallied ht).1, rfl, (h.tallied ht).2.2⟩, h.requests,
    fun _ => rfl⟩

theorem Flow.settle (h : Flow stub s) : Flow stub s.settle := by
  unfold Pump.settle
  split
  · exact ⟨h.incoming, h.counted, h.tallied, h.requests, h.handshake⟩
  · split
    · exact ⟨h.incoming, h.counted, h.tallied, h.requests, h.handshake⟩
    · exact ⟨h.incoming, h.counted, h.tallied, h.requests, h.handshake⟩

theorem Flow.flush (h : Flow stub s) : Flow stub s.flush := by
  unfold Pump.flush
  split
  · exact h.settle
  · exact ⟨h.incoming, h.counted, h.tallied, h.requests, h.handshake⟩

theorem Flow.drain (h : Flow stub s) (discard : Nat) (progress : Bool) :
    Flow stub (s.drain discard progress) := by
  unfold Pump.drain
  split
  · -- what goes from the front of the one goes to the end of the other
    have hcut : Flow stub { s with
        incoming := s.incoming.drop discard
        discarded := s.discarded ++ s.incoming.take discard } :=
      ⟨by simp [h.incoming], h.counted, h.tallied, h.requests, h.handshake⟩
    cases progress with
    | true =>
      exact ⟨hcut.incoming, hcut.counted, hcut.tallied, hcut.requests, hcut.handshake⟩
    | false => exact hcut.flush
  · exact ⟨h.incoming, h.counted, h.tallied, h.requests, h.handshake⟩

theorem Flow.advance (h : Flow stub s) (discard : Nat) (state : TlsState) :
    Flow stub (s.advance discard state) := by
  cases state with
  | failed e => exact (h.fail _).flush
  | readTraffic records => exact (h.takeRecords records false).drain _ _
  | encodeTlsData r =>
    cases r with
    | ok bytes => exact (h.produce bytes).drain _ _
    | failed e left => exact ((h.produce left).fail _).flush
  | transmitTlsData => exact h.drain _ _
  | writeTraffic encrypt =>
    cases hq : s.requestQueued with
    | true =>
      rw [advance_again hq]
      exact h.handshaken.drain _ _
    | false =>
      cases encrypt with
      | ok bytes =>
        rw [advance_first hq]
        exact (h.queued hq bytes).drain _ _
      | failed e left =>
        rw [advance_refused hq]
        exact ((h.handshaken.produce left).fail _).flush
  | other => exact h.drain _ _

theorem Flow.write (h : Flow stub s) (r : WriteResult) : Flow stub (s.write worker r) := by
  cases r with
  | all =>
    have hsent : Flow stub { s with outgoing := [], sent := s.sent ++ s.outgoing } :=
      ⟨h.incoming, h.counted, h.tallied, h.requests, h.handshake⟩
    exact hsent.settle
  | failed e wrote =>
    have hsent : Flow stub { s with outgoing := [], sent := s.sent ++ s.outgoing.take wrote } :=
      ⟨h.incoming, h.counted, h.tallied, h.requests, h.handshake⟩
    exact (hsent.fail _).settle

theorem Flow.take (h : Flow stub s) (bytes : List UInt8) : Flow stub (s.take stub bytes) := by
  unfold Pump.take
  split
  case isTrue hstub =>
    simp only [Bool.and_eq_true] at hstub
    refine ⟨h.incoming, ?_, fun _ => ⟨hstub.1.1, hstub.1.2, hstub.2⟩, h.requests, h.handshake⟩
    show s.counted.plus (UInt64.ofNat bytes.length) = _
    rw [h.counted]
    simp only [Counted.plus, List.flatten_concat, List.length_append, UInt64.ofNat_add,
      Counted.mk.injEq, and_true]
    ac_rfl
  case isFalse =>
    refine ⟨?_, h.counted, h.tallied, h.requests, h.handshake⟩
    show s.discarded ++ (s.incoming ++ bytes) = s.received ++ bytes
    rw [← List.append_assoc, h.incoming]

theorem Flow.read (h : Flow stub s) (r : ReadResult) : Flow stub (s.read stub worker r) := by
  cases r with
  | data bytes =>
    cases bytes with
    | nil => exact ⟨h.incoming, h.counted, h.tallied, h.requests, h.handshake⟩
    | cons b bytes =>
      have ht := h.take (b :: bytes)
      exact ⟨ht.incoming, ht.counted, ht.tallied, ht.requests, ht.handshake⟩
  | interrupted => exact ⟨h.incoming, h.counted, h.tallied, h.requests, h.handshake⟩
  | failed e => exact ⟨h.incoming, h.counted, h.tallied, h.requests, h.handshake⟩

/-! ## The calls -/

/-- What holds between two answers. -/
structure Control (s : Pump) : Prop where
  working : s.phase ≠ .returned → Open s
  /-- The pump does not wait for the server with bytes of its own unsent. -/
  reading : s.phase = .reading → s.outgoing = [] ∧ s.failed = false ∧ s.eof = false
  returned : s.phase = .returned → s.sent <+: s.encoded ∧ (s.fails = [] → s.sent = s.encoded) ∧
    (s.closedCleanly = true ↔
      s.eof = true ∧ s.handshakeDone = true ∧ s.requestQueued = true ∧ s.fails = [])

theorem Control.of_open (h : Open s) (hreading : s.phase ≠ .reading)
    (hreturned : s.phase ≠ .returned) : Control s :=
  ⟨fun _ => h, fun hr => absurd hr hreading, fun hr => absurd hr hreturned⟩

theorem Control.settle (h : Open s) (hout : s.outgoing = []) : Control s.settle := by
  have hsent : s.sent = s.encoded := by
    rw [← h.outgoing, hout, List.append_nil]
  unfold Pump.settle
  split
  case isTrue hfailed =>
    refine ⟨fun hne => absurd rfl hne, fun hr => (by cases hr), fun _ => ⟨?_, fun _ => hsent, ?_⟩⟩
    · exact hsent ▸ List.prefix_rfl
    · have hfails := h.failed.mp hfailed
      simp [h.unclean, hfails]
  case isFalse hfailed =>
    have hfails : s.fails = [] := by
      by_contra hne
      exact hfailed (h.failed.mpr hne)
    split
    case isTrue heof =>
      refine ⟨fun hne => absurd rfl hne, fun hr => (by cases hr), fun _ => ⟨?_, fun _ => hsent, ?_⟩⟩
      · exact hsent ▸ List.prefix_rfl
      · simp [heof, hfails]
    case isFalse heof =>
      refine ⟨fun _ => ⟨h.outgoing, h.failed, h.unclean⟩, fun _ => ⟨hout, ?_, ?_⟩,
        fun hr => by cases hr⟩
      · exact Bool.eq_false_iff.mpr hfailed
      · exact Bool.eq_false_iff.mpr heof

theorem Control.flush (h : Open s) : Control s.flush := by
  unfold Pump.flush
  split
  case isTrue hout => exact .settle h hout
  case isFalse =>
    exact .of_open ⟨h.outgoing, h.failed, h.unclean⟩ (fun hr => by cases hr) fun hr => by cases hr

theorem Control.drain (h : Open s) (discard : Nat) (progress : Bool) :
    Control (s.drain discard progress) := by
  unfold Pump.drain
  split
  · cases progress with
    | true =>
      exact .of_open ⟨h.outgoing, h.failed, h.unclean⟩ (fun hr => by cases hr)
        fun hr => by cases hr
    | false =>
      have hcut : Open { s with
          incoming := s.incoming.drop discard
          discarded := s.discarded ++ s.incoming.take discard } :=
        ⟨h.outgoing, h.failed, h.unclean⟩
      exact .flush hcut
  · exact .of_open ⟨h.outgoing, h.failed, h.unclean⟩ (fun hr => by cases hr) fun hr => by cases hr

theorem Control.advance (h : Open s) (discard : Nat) (state : TlsState) :
    Control (s.advance discard state) := by
  have hdone : Open s.handshaken := ⟨h.outgoing, h.failed, h.unclean⟩
  cases state with
  | failed e => exact .flush (h.fail _)
  | readTraffic records => exact .drain (h.takeRecords records false) _ _
  | encodeTlsData r =>
    cases r with
    | ok bytes => exact .drain (h.produce bytes) _ _
    | failed e left => exact .flush ((h.produce left).fail _)
  | transmitTlsData => exact .drain h _ _
  | writeTraffic encrypt =>
    cases hq : s.requestQueued with
    | true =>
      rw [advance_again hq]
      exact .drain hdone _ _
    | false =>
      cases encrypt with
      | ok bytes =>
        have hp := hdone.produce bytes
        have hqueued : Open (s.queued bytes) := ⟨hp.outgoing, hp.failed, hp.unclean⟩
        rw [advance_first hq]
        exact .drain hqueued _ _
      | failed e left =>
        rw [advance_refused hq]
        exact .flush ((hdone.produce left).fail _)
  | other => exact .drain h _ _

theorem Control.write (h : Open s) (r : WriteResult) : Control (s.write worker r) := by
  cases r with
  | all =>
    have hsent : Open { s with outgoing := [], sent := s.sent ++ s.outgoing } :=
      ⟨by simp [h.outgoing], h.failed, h.unclean⟩
    exact .settle hsent rfl
  | failed e wrote =>
    -- the failure makes the pump return, so what was not written does not matter to it
    refine ⟨fun hne => absurd rfl hne, fun hr => (by cases hr), fun _ => ⟨?_, ?_, ?_⟩⟩
    · show s.sent ++ s.outgoing.take wrote <+: s.encoded
      rw [← h.outgoing]
      exact (List.prefix_append_right_inj _).mpr (List.take_prefix _ _)
    · exact fun hfails => by simp [Pump.write, Pump.settle, Pump.fail] at hfails
    · simp [Pump.write, Pump.settle, Pump.fail, h.unclean]

theorem Control.read (h : Control s) (hr : s.phase = .reading) (r : ReadResult) :
    Control (s.read stub worker r) := by
  have hopen : Open s := h.working (by rw [hr]; decide)
  obtain ⟨hout, hfailed, heof⟩ := h.reading hr
  cases r with
  | data bytes =>
    cases bytes with
    | nil =>
      exact .of_open ⟨hopen.outgoing, hopen.failed, hopen.unclean⟩ (fun hr => by cases hr)
        fun hr => by cases hr
    | cons b bytes =>
      have htake : Open (s.take stub (b :: bytes)) := by
        unfold Pump.take
        split
        · exact ⟨hopen.outgoing, hopen.failed, hopen.unclean⟩
        · exact ⟨hopen.outgoing, hopen.failed, hopen.unclean⟩
      exact .of_open ⟨htake.outgoing, htake.failed, htake.unclean⟩ (fun hr => by cases hr)
        fun hr => by cases hr
  | interrupted =>
    exact .of_open ⟨hopen.outgoing, hopen.failed, hopen.unclean⟩ (fun hr => by cases hr)
      fun hr => by cases hr
  | failed e =>
    have hsent : s.sent = s.encoded := by
      rw [← hopen.outgoing, hout, List.append_nil]
    refine ⟨fun hne => absurd rfl hne, fun hr => (by cases hr), fun _ => ⟨?_, fun _ => hsent, ?_⟩⟩
    · exact hsent ▸ List.prefix_rfl
    · simp [Pump.read, hopen.unclean]

/-! ## Steps and runs -/

/-- What an answer can be, and what it leads to. -/
theorem step_cases {a : Answer} (h : step stub worker s a = some t) :
    (∃ d st, a = .records d st ∧ s.phase = .processing ∧ t = s.advance d st) ∨
      (∃ r, a = .written r ∧ s.phase = .writing ∧ t = s.write worker r) ∨
      ∃ r, a = .read r ∧ s.phase = .reading ∧ t = s.read stub worker r := by
  unfold step at h
  split at h
  case h_1 d st hp => exact Or.inl ⟨d, st, rfl, hp, (Option.some.inj h).symm⟩
  case h_2 r hp => exact Or.inr (Or.inl ⟨r, rfl, hp, (Option.some.inj h).symm⟩)
  case h_3 r hp => exact Or.inr (Or.inr ⟨r, rfl, hp, (Option.some.inj h).symm⟩)
  case h_4 => cases h

theorem Flow.step {a : Answer} (hf : Flow stub s) (h : step stub worker s a = some t) :
    Flow stub t := by
  obtain ⟨d, st, rfl, -, rfl⟩ | ⟨r, rfl, -, rfl⟩ | ⟨r, rfl, -, rfl⟩ := step_cases h
  · exact hf.advance d st
  · exact hf.write r
  · exact hf.read r

theorem Control.step {a : Answer} (hc : Control s) (h : Pump.step stub worker s a = some t) :
    Control t := by
  obtain ⟨d, st, rfl, hp, rfl⟩ | ⟨r, rfl, hp, rfl⟩ | ⟨r, rfl, hp, rfl⟩ := step_cases h
  · exact .advance (hc.working (by rw [hp]; decide)) d st
  · exact .write (hc.working (by rw [hp]; decide)) r
  · exact hc.read hp r

theorem Runs.flow {l : List Answer} (h : Runs stub worker l s) : Flow stub s :=
  h.invariant Flow.init fun _ _ _ hf hstep => hf.step hstep

theorem Runs.control {l : List Answer} (h : Runs stub worker l s) : Control s :=
  h.invariant (.of_open Open.init (by decide) (by decide)) fun _ _ _ hc hstep => hc.step hstep

/-! ## The answers behind it -/

/-- The payloads before the first bad record. -/
def payloadsOf : List (Except String (List UInt8)) → List (List UInt8)
  | .ok payload :: rest => payload :: payloadsOf rest
  | _ => []

end Pump

def Answer.payloads : Answer → List (List UInt8)
  | .records _ (.readTraffic rs) => Pump.payloadsOf rs
  | _ => []

namespace Pump

variable {stub : Bool} {worker : Nat} {s t : Pump}

/-- What only a read or a record changes. -/
structure Frame (s t : Pump) : Prop where
  received : t.received = s.received
  tallied : t.tallied = s.tallied
  payloads : t.payloads = s.payloads
  eof : t.eof = s.eof

theorem Frame.rfl : Frame s s := ⟨Eq.refl _, Eq.refl _, Eq.refl _, Eq.refl _⟩

theorem Frame.trans {w : Pump} (h : Frame s t) (h' : Frame t w) : Frame s w :=
  ⟨h'.received.trans h.received, h'.tallied.trans h.tallied, h'.payloads.trans h.payloads,
    h'.eof.trans h.eof⟩

theorem frame_settle (s : Pump) : Frame s s.settle := by
  unfold settle
  split
  · exact ⟨by rfl, by rfl, by rfl, by rfl⟩
  · split
    · exact ⟨by rfl, by rfl, by rfl, by rfl⟩
    · exact ⟨by rfl, by rfl, by rfl, by rfl⟩

theorem frame_flush (s : Pump) : Frame s s.flush := by
  unfold flush
  split
  · exact frame_settle s
  · exact ⟨by rfl, by rfl, by rfl, by rfl⟩

theorem frame_drain (s : Pump) (discard : Nat) (progress : Bool) :
    Frame s (s.drain discard progress) := by
  unfold drain
  split
  · cases progress with
    | true => exact ⟨by rfl, by rfl, by rfl, by rfl⟩
    | false => exact Frame.trans ⟨by rfl, by rfl, by rfl, by rfl⟩ (frame_flush _)
  · exact ⟨by rfl, by rfl, by rfl, by rfl⟩

theorem frame_failed (s : Pump) (left : List UInt8) (f : Fail) :
    Frame s ((s.produce left).fail f).flush :=
  Frame.trans ⟨by rfl, by rfl, by rfl, by rfl⟩ (frame_flush _)

theorem takeRecords_frame (records : List (Except String (List UInt8))) (got : Bool) (s : Pump) :
    (s.takeRecords got records).1.payloads = s.payloads ++ payloadsOf records ∧
      (s.takeRecords got records).1.received = s.received ∧
      (s.takeRecords got records).1.tallied = s.tallied ∧
      (s.takeRecords got records).1.eof = s.eof := by
  induction records generalizing s got with
  | nil => simp [takeRecords, payloadsOf]
  | cons r records ih =>
    cases r with
    | ok payload =>
      obtain ⟨hp, hr, ht, he⟩ := ih true (s.takeRecord payload)
      refine ⟨?_, hr, ht, he⟩
      rw [takeRecords, hp]
      simp [takeRecord, payloadsOf]
    | error e => simp [takeRecords, payloadsOf, fail]

/-- **A round counts the payloads of the answer, and nothing else comes in.** -/
theorem advance_frame (s : Pump) (discard : Nat) (state : TlsState) :
    (s.advance discard state).payloads =
        s.payloads ++ (Answer.records discard state).payloads ∧
      (s.advance discard state).received = s.received ∧
      (s.advance discard state).tallied = s.tallied ∧ (s.advance discard state).eof = s.eof := by
  have hframe : ∀ {t : Pump}, Frame s t → t.payloads = s.payloads ++ [] ∧
      t.received = s.received ∧ t.tallied = s.tallied ∧ t.eof = s.eof := fun h =>
    ⟨by rw [h.payloads, List.append_nil], h.received, h.tallied, h.eof⟩
  cases state with
  | failed e => exact hframe (Frame.trans ⟨by rfl, by rfl, by rfl, by rfl⟩ (frame_flush _))
  | readTraffic records =>
    obtain ⟨hp, hr, ht, he⟩ := takeRecords_frame records false s
    have hd := frame_drain (s.takeRecords false records).1 discard
      (s.takeRecords false records).2
    exact ⟨hd.payloads.trans hp, hd.received.trans hr, hd.tallied.trans ht, hd.eof.trans he⟩
  | encodeTlsData r =>
    cases r with
    | ok bytes => exact hframe (Frame.trans ⟨by rfl, by rfl, by rfl, by rfl⟩ (frame_drain _ _ _))
    | failed e left => exact hframe (frame_failed _ _ _)
  | transmitTlsData => exact hframe (frame_drain _ _ _)
  | writeTraffic encrypt =>
    cases hq : s.requestQueued with
    | true =>
      rw [advance_again hq]
      exact hframe (Frame.trans ⟨by rfl, by rfl, by rfl, by rfl⟩ (frame_drain _ _ _))
    | false =>
      cases encrypt with
      | ok bytes =>
        rw [advance_first hq]
        exact hframe (Frame.trans ⟨by rfl, by rfl, by rfl, by rfl⟩ (frame_drain _ _ _))
      | failed e left =>
        rw [advance_refused hq]
        exact hframe (Frame.trans ⟨by rfl, by rfl, by rfl, by rfl⟩ (frame_failed _ _ _))
  | other => exact hframe (frame_drain _ _ _)

theorem write_frame (s : Pump) (r : WriteResult) : Frame s (s.write worker r) := by
  cases r with
  | all => exact Frame.trans ⟨by rfl, by rfl, by rfl, by rfl⟩ (frame_settle _)
  | failed e wrote => exact Frame.trans ⟨by rfl, by rfl, by rfl, by rfl⟩ (frame_settle _)

/-- **What is read comes after all that was read, wherever it goes.** -/
theorem Flow.read_input (h : Flow stub s) (r : ReadResult) :
    (s.read stub worker r).received ++ (s.read stub worker r).tallied.flatten =
      s.received ++ s.tallied.flatten ++ r.bytes := by
  cases r with
  | data bytes =>
    cases bytes with
    | nil => exact (List.append_nil _).symm
    | cons b bytes =>
      show (s.take stub (b :: bytes)).received ++ (s.take stub (b :: bytes)).tallied.flatten = _
      unfold Pump.take
      split
      · simp [ReadResult.bytes]
      case isFalse hnot =>
        -- nothing was tallied yet: once something is, the condition stays
        have hnone : s.tallied = [] := by
          by_contra hne
          obtain ⟨hs, hd, hq⟩ := h.tallied hne
          exact hnot (by simp [hs, hd, hq])
        simp [hnone, ReadResult.bytes]
  | interrupted => exact (List.append_nil _).symm
  | failed e => exact (List.append_nil _).symm

theorem read_eof (s : Pump) (r : ReadResult) :
    (s.read stub worker r).eof = true ↔ s.eof = true ∨ r = .data [] := by
  cases r with
  | data bytes =>
    cases bytes with
    | nil => simp [Pump.read]
    | cons b bytes =>
      have heof : (s.take stub (b :: bytes)).eof = s.eof := by
        unfold take
        split <;> rfl
      simp [Pump.read, heof]
  | interrupted => simp [Pump.read]
  | failed e => simp [Pump.read]

theorem read_payloads (s : Pump) (r : ReadResult) :
    (s.read stub worker r).payloads = s.payloads := by
  cases r with
  | data bytes =>
    cases bytes with
    | nil => rfl
    | cons b bytes =>
      show (s.take stub (b :: bytes)).payloads = _
      unfold take
      split <;> rfl
  | interrupted => rfl
  | failed e => rfl

/-- What a run's answers say of the state they lead to. -/
structure Records (l : List Answer) (s : Pump) : Prop where
  input : s.received ++ s.tallied.flatten = delivered l
  payloads : s.payloads = l.flatMap Answer.payloads
  eof : s.eof = true ↔ Answer.read (.data []) ∈ l

theorem Runs.records {l : List Answer} (h : Runs stub worker l s) : Records l s := by
  induction h with
  | nil => exact ⟨rfl, rfl, by simp [init]⟩
  | @snoc l t a w hr ha ih =>
    have hflow : Flow stub t := Runs.flow hr
    obtain ⟨d, st, rfl, -, rfl⟩ | ⟨r, rfl, -, rfl⟩ | ⟨r, rfl, -, rfl⟩ := step_cases ha
    · obtain ⟨hp, hrec, ht, he⟩ := advance_frame _ d st
      refine ⟨?_, ?_, ?_⟩
      · rw [hrec, ht, ih.input, delivered_concat]
        exact (List.append_nil _).symm
      · rw [hp, ih.payloads, List.flatMap_append, List.flatMap_singleton]
      · rw [he, ih.eof]
        simp
    · have hw : Frame t (t.write worker r) := write_frame t r
      refine ⟨?_, ?_, ?_⟩
      · rw [hw.received, hw.tallied, ih.input, delivered_concat]
        exact (List.append_nil _).symm
      · rw [hw.payloads, ih.payloads, List.flatMap_append, List.flatMap_singleton]
        exact (List.append_nil _).symm
      · rw [hw.eof, ih.eof]
        simp
    · refine ⟨?_, ?_, ?_⟩
      · rw [hflow.read_input, ih.input, delivered_concat]
        rfl
      · rw [read_payloads, ih.payloads, List.flatMap_append, List.flatMap_singleton]
        exact (List.append_nil _).symm
      · rw [read_eof, ih.eof]
        simp [eq_comm]

/-- The handshake is done, the request goes out, one record comes, and the end. -/
def shortAnswers : List Answer :=
  [.records 0 (.writeTraffic (.ok [1, 2])), .records 0 .other, .written .all,
    .read (.data [7, 13, 10, 13, 10, 8]),
    .records 6 (.readTraffic [.ok [13, 10, 13, 10, 9]]), .records 0 .other,
    .read (.data []), .records 0 .other]

/-- Where they lead. -/
def shortEnd : Pump := (shortAnswers.foldlM (step false 0) init).getD init

/--
**A connection is clean when the server ended it after the request, and nothing was printed.**
The request is then encrypted once and sent in full.
-/
theorem closedCleanly_iff {l : List Answer} (h : Runs stub worker l s)
    (hreturned : s.phase = .returned) :
    (s.closedCleanly = true ↔
        Answer.read (.data []) ∈ l ∧ s.requests = 1 ∧ s.fails = []) ∧
      (s.closedCleanly = true → s.sent = s.encoded) ∧ s.requests ≤ 1 := by
  have hflow := h.flow
  obtain ⟨-, hsent, hclean⟩ := h.control.returned hreturned
  have hone : s.requests = 1 ↔ s.requestQueued = true := by
    rw [hflow.requests]
    cases s.requestQueued <;> decide
  refine ⟨?_, fun hc => hsent (hclean.mp hc).2.2.2, ?_⟩
  · rw [hclean, h.records.eof, hone]
    exact ⟨fun ⟨he, _, hq, hf⟩ => ⟨he, hq, hf⟩, fun ⟨he, hq, hf⟩ =>
      ⟨he, hflow.handshake hq, hq, hf⟩⟩
  · rw [hflow.requests]
    exact Bool.toNat_le _

theorem closedCleanly_iff_short :
    (shortEnd.closedCleanly = true ↔
        Answer.read (.data []) ∈ shortAnswers ∧ shortEnd.requests = 1 ∧ shortEnd.fails = []) ∧
      (shortEnd.closedCleanly = true → shortEnd.sent = shortEnd.encoded) ∧
      shortEnd.requests ≤ 1 :=
  @closedCleanly_iff false 0 shortEnd shortAnswers (Infra.Run.of_foldlM rfl) rfl

/-- **The body is counted, and in stub mode what is tallied.** -/
theorem Runs.bytes {l : List Answer} (h : Runs stub worker l s) :
    s.counted.bytes = UInt64.ofNat (bodyLength (l.flatMap Answer.payloads).flatten) +
      UInt64.ofNat s.tallied.flatten.length := by
  rw [h.flow.counted, h.records.payloads]
  exact congrArg (· + _) (bytes_counted _)

end Pump

namespace PumpPlain

variable {worker : Nat} {s : PumpPlain}

/-- What is counted is what was read, and only the end of the stream is clean. -/
structure Sound (l : List Answer) (s : PumpPlain) : Prop where
  counted : s.counted = LinuxS3.counted s.received
  received : s.received.flatten = delivered l
  working : s.phase ≠ .returned →
    s.closedCleanly = false ∧ s.fails = [] ∧ Answer.read (.data []) ∉ l
  returned : s.phase = .returned →
    (s.closedCleanly = true ↔ Answer.read (.data []) ∈ l ∧ s.fails = [])

theorem Sound.init : Sound [] init where
  counted := rfl
  received := rfl
  working := fun _ => ⟨rfl, rfl, List.not_mem_nil⟩
  returned := fun h => by cases h

theorem step_cases {t : PumpPlain} {a : Answer} (h : step worker s a = some t) :
    (∃ r, a = .written r ∧ s.phase = .writing ∧ t = s.write worker r) ∨
      ∃ r, a = .read r ∧ s.phase = .reading ∧ t = s.read worker r := by
  unfold step at h
  split at h
  case h_1 r hp => exact Or.inl ⟨r, rfl, hp, (Option.some.inj h).symm⟩
  case h_2 r hp => exact Or.inr ⟨r, rfl, hp, (Option.some.inj h).symm⟩
  case h_3 => cases h

theorem Sound.write {l : List Answer} (h : Sound l s) (hp : s.phase ≠ .returned)
    (r : WriteResult) : Sound (l ++ [.written r]) (s.write worker r) := by
  obtain ⟨hclean, hfails, heof⟩ := h.working hp
  have hdelivered : delivered (l ++ [.written r]) = delivered l := by
    rw [delivered_concat]
    exact List.append_nil _
  have hmem : Answer.read (.data []) ∉ l ++ [.written r] := by simp [heof]
  cases r with
  | all =>
    exact ⟨h.counted, h.received.trans hdelivered.symm, fun _ => ⟨hclean, hfails, hmem⟩,
      fun hr => by cases hr⟩
  | failed e wrote =>
    exact ⟨h.counted, h.received.trans hdelivered.symm, fun hne => absurd rfl hne,
      fun _ => by simp [PumpPlain.write, hclean, heof]⟩

theorem Sound.read {l : List Answer} (h : Sound l s) (hp : s.phase = .reading)
    (r : ReadResult) : Sound (l ++ [.read r]) (s.read worker r) := by
  obtain ⟨hclean, hfails, heof⟩ := h.working (by rw [hp]; decide)
  have hinput : s.received.flatten ++ r.bytes = delivered (l ++ [.read r]) := by
    rw [delivered_concat, h.received]
    rfl
  have hsame : r.bytes = [] → s.received.flatten = delivered (l ++ [.read r]) := fun hr => by
    rw [← hinput, hr, List.append_nil]
  cases r with
  | data bytes =>
    cases bytes with
    | nil =>
      exact ⟨h.counted, hsame rfl, fun hne => absurd rfl hne,
        fun _ => by simp [PumpPlain.read, hfails]⟩
    | cons b bytes =>
      refine ⟨?_, ?_, fun _ => ⟨hclean, hfails, by simp [heof]⟩, fun hr => ?_⟩
      · show countBody s.counted (b :: bytes) = _
        rw [h.counted]
        exact (counted_concat _ _).symm
      · rw [← hinput]
        exact List.flatten_concat
      · rw [show (s.read worker (.data (b :: bytes))).phase = s.phase from rfl, hp] at hr
        cases hr
  | interrupted =>
    exact ⟨h.counted, hsame rfl, fun _ => ⟨hclean, hfails, by simp [heof]⟩, fun hr => by
      rw [show (s.read worker .interrupted).phase = s.phase from rfl, hp] at hr
      cases hr⟩
  | failed e =>
    exact ⟨h.counted, hsame rfl, fun hne => absurd rfl hne,
      fun _ => by simp [PumpPlain.read, hclean, heof]⟩

theorem Runs.sound {l : List Answer} (h : Runs worker l s) : Sound l s := by
  induction h with
  | nil => exact Sound.init
  | snoc _ ha ih =>
    obtain ⟨r, rfl, hp, rfl⟩ | ⟨r, rfl, hp, rfl⟩ := step_cases ha
    · exact ih.write (by rw [hp]; decide) r
    · exact ih.read hp r

/-- The body of what was delivered is counted. -/
theorem Runs.bytes {l : List Answer} (h : Runs worker l s) :
    s.counted.bytes = UInt64.ofNat (bodyLength (delivered l)) := by
  rw [h.sound.counted, ← h.sound.received]
  exact bytes_counted _

end PumpPlain

/--
**The same response counts the same with TLS and without.** However the one was cut into records
and the other into reads, and wherever the connections were interrupted: when the records' payloads
are what the plain socket delivered, the counts agree, and are the length of the body.
-/
theorem counts_agree {worker worker' : Nat} {l l' : List Answer} {s : Pump} {p : PumpPlain}
    (h : Pump.Runs false worker l s) (h' : PumpPlain.Runs worker' l' p)
    (hsame : (l.flatMap Answer.payloads).flatten = delivered l') :
    s.counted.bytes = p.counted.bytes ∧
      p.counted.bytes = UInt64.ofNat (bodyLength (delivered l')) := by
  have hnone : s.tallied = [] := by
    by_contra hne
    exact absurd (h.flow.tallied hne).1 Bool.false_ne_true
  refine ⟨?_, h'.bytes⟩
  rw [h.bytes, h'.bytes, hsame, hnone]
  exact UInt64.add_zero _

/-- The same response, cut elsewhere. -/
theorem counts_agree_short :
    Pump.shortEnd.counted.bytes = (1 : UInt64) ∧
      (1 : UInt64) = UInt64.ofNat (bodyLength [13, 10, 13, 10, 9]) :=
  @counts_agree 0 0 Pump.shortAnswers
    [.written .all, .read (.data [13, 10]), .read .interrupted, .read (.data [13, 10, 9])]
    Pump.shortEnd ⟨.reading, ⟨1, true, 4⟩, false, [], [[13, 10], [13, 10, 9]]⟩
    (Infra.Run.of_foldlM rfl) (Infra.Run.of_foldlM rfl) rfl

end LinuxS3
