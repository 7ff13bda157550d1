import Mathlib.Algebra.BigOperators.Group.List.Basic
import MiniosvCtrl.Properties.Exchanges

/-!
# The exchanges of a connection

How many there are, what they carry and what time they take, from the events of the connection.

* `length_exchangesFrom`, `sum_bytes_exchangesFrom` — numbers
* `ordered_exchangesFrom` — no time difference underflows
* `sum_total_le`, `sum_total_eq` — the time they take
* `accounted_once`
-/

namespace Netphase

namespace Event

def isSend : Event → Bool
  | send _ => true
  | recv _ _ => false

def isRecv : Event → Bool
  | send _ => false
  | recv _ _ => true

def bytes : Event → Nat
  | send _ => 0
  | recv n _ => n

end Event

/-- The groups of sends that are answered: the sends directly before a receive. -/
def groups (es : List Event) : Nat :=
  (es.zip es.tail).countP fun e => e.1.isSend && e.2.isRecv

/-- The bytes that are received after the first send. -/
def received (es : List Event) : Nat := ((es.dropWhile fun e => !e.isSend).map Event.bytes).sum

namespace Exchange

/-- From the last send to the next one, or to the last receive. -/
def total (x : Exchange) : Nat :=
  x.ttfb.toNat + x.body.toNat + (x.gap.map UInt64.toNat).getD 0

/-- The times of an exchange follow one another. -/
structure Ordered (x : Exchange) : Prop where
  first : x.tSend ≤ x.tFirst
  last : x.tFirst ≤ x.tLast
  next : ∀ t ∈ x.next, x.tLast ≤ t

/-- Where an exchange ends. -/
def stop (x : Exchange) : UInt64 := x.next.getD x.tLast

theorem Ordered.total_eq {x : Exchange} (h : x.Ordered) :
    x.tSend.toNat + x.total = x.stop.toNat := by
  have hfirst := UInt64.le_iff_toNat_le.mp h.first
  have hlast := UInt64.le_iff_toNat_le.mp h.last
  have httfb : x.ttfb.toNat = x.tFirst.toNat - x.tSend.toNat := UInt64.toNat_sub_of_le _ _ h.first
  have hbody : x.body.toNat = x.tLast.toNat - x.tFirst.toNat := UInt64.toNat_sub_of_le _ _ h.last
  cases hnext : x.next with
  | none =>
    rw [total, httfb, hbody, gap, stop, hnext, Option.map_none, Option.map_none, Option.getD_none,
      Option.getD_none]
    omega
  | some t =>
    have ht := h.next t hnext
    have hle := UInt64.le_iff_toNat_le.mp ht
    have hgap : (t - x.tLast).toNat = t.toNat - x.tLast.toNat := UInt64.toNat_sub_of_le _ _ ht
    rw [total, httfb, hbody, gap, stop, hnext, Option.map_some, Option.map_some, Option.getD_some,
      Option.getD_some, hgap]
    omega

end Exchange

section

variable {es : List Event} {s t : UInt64} {x : Exchange} {n : Nat}

/-! ## How many -/

theorem groups_cons (e : Event) (es : List Event) : groups (e :: es) =
    (if e.isSend && es.head?.any Event.isRecv then 1 else 0) + groups es := by
  cases es with
  | nil => simp [groups]
  | cons e' es =>
    rw [groups, groups, List.tail_cons, List.tail_cons, List.zip_cons_cons, List.countP_cons,
      Nat.add_comm]
    simp

theorem length_exchangesFrom (es : List Event) :
    (exchangesFrom .nothing es).length = groups es ∧
    (∀ s, (exchangesFrom (.asked s) es).length = groups (.send s :: es)) ∧
    ∀ x, (exchangesFrom (.answered x) es).length = 1 + groups es := by
  induction es with
  | nil => exact ⟨rfl, fun _ => rfl, fun _ => rfl⟩
  | cons e es ih =>
    obtain ⟨hnothing, hasked, hanswered⟩ := ih
    cases e with
    | send t =>
      refine ⟨hasked t, fun s => ?_, fun x => ?_⟩
      · rw [exchangesFrom, hasked, groups_cons (.send s)]
        simp [Event.isRecv]
      · rw [exchangesFrom, List.length_cons, hasked, Nat.add_comm]
    | recv n t =>
      have hgroups : groups (.recv n t :: es) = groups es := by
        rw [groups_cons]
        simp [Event.isSend]
      refine ⟨?_, fun s => ?_, fun x => ?_⟩
      · rw [exchangesFrom, hnothing, hgroups]
      · rw [exchangesFrom, hanswered, groups_cons, hgroups]
        simp [Event.isSend, Event.isRecv]
      · rw [exchangesFrom, hanswered, hgroups]

/-! ## How much -/

theorem sum_bytes_exchangesFrom (es : List Event) :
    (∀ s, ((exchangesFrom (.asked s) es).map Exchange.bytes).sum = (es.map Event.bytes).sum) ∧
    ∀ x, ((exchangesFrom (.answered x) es).map Exchange.bytes).sum =
      x.bytes + (es.map Event.bytes).sum := by
  induction es with
  | nil => exact ⟨fun _ => rfl, fun _ => rfl⟩
  | cons e es ih =>
    obtain ⟨hasked, hanswered⟩ := ih
    cases e with
    | send t =>
      refine ⟨fun s => ?_, fun x => ?_⟩
      · rw [exchangesFrom, hasked]
        simp [Event.bytes]
      · rw [exchangesFrom, List.map_cons, List.sum_cons, hasked]
        simp [Event.bytes]
    | recv n t =>
      refine ⟨fun s => ?_, fun x => ?_⟩
      · rw [exchangesFrom, hanswered, List.map_cons, List.sum_cons]
        rfl
      · rw [exchangesFrom, hanswered, List.map_cons, List.sum_cons, ← Nat.add_assoc]
        rfl

theorem sum_bytes_nothing (es : List Event) :
    ((exchangesFrom .nothing es).map Exchange.bytes).sum = received es := by
  induction es with
  | nil => rfl
  | cons e es ih =>
    cases e with
    | send t =>
      rw [exchangesFrom, (sum_bytes_exchangesFrom es).1, received,
        List.dropWhile_cons_of_neg (by simp [Event.isSend])]
      simp [Event.bytes]
    | recv n t =>
      rw [exchangesFrom, ih, received, received,
        List.dropWhile_cons_of_pos (by simp [Event.isSend])]

/-! ## How long -/

/-- No event is before `t`. -/
def NoneBefore (t : UInt64) (es : List Event) : Prop := ∀ e ∈ es, t ≤ e.stamp

/-- The events are in the order of their times. -/
def Sorted (es : List Event) : Prop := es.Pairwise fun e e' => e.stamp ≤ e'.stamp

/-- An exchange that is being answered. -/
structure Open (x : Exchange) (es : List Event) : Prop where
  ordered : x.Ordered
  next : x.next = none
  before : NoneBefore x.tLast es

theorem open_first {n : Nat} {s t : UInt64} {es : List Event} (hs : s ≤ t) (ht : NoneBefore t es) :
    Open { tSend := s, tFirst := t, tLast := t, bytes := n, next := none } es where
  ordered := ⟨hs, UInt64.le_refl t, fun _ h => absurd h (Option.not_mem_none _)⟩
  next := rfl
  before := ht

theorem Open.more {e : Event} (h : Open x (e :: es)) (he : NoneBefore e.stamp es) (m : Nat) :
    Open { x with tLast := e.stamp, bytes := m } es where
  ordered :=
    ⟨h.ordered.first, UInt64.le_trans h.ordered.last (h.before e List.mem_cons_self), by
      intro t ht
      rw [Option.mem_def, h.next] at ht
      cases ht⟩
  next := h.next
  before := he

theorem Open.ended {e : Event} (h : Open x (e :: es)) :
    Exchange.Ordered { x with next := some e.stamp } where
  first := h.ordered.first
  last := h.ordered.last
  next := by
    intro t ht
    rw [← Option.some_inj.mp ht]
    exact h.before e List.mem_cons_self

theorem ordered_exchangesFrom (hs : Sorted es) :
    (∀ x ∈ exchangesFrom .nothing es, x.Ordered) ∧
    (∀ s, NoneBefore s es → ∀ x ∈ exchangesFrom (.asked s) es, x.Ordered) ∧
    ∀ x, Open x es → ∀ y ∈ exchangesFrom (.answered x) es, y.Ordered := by
  induction es with
  | nil =>
    refine ⟨fun _ h => absurd h List.not_mem_nil, fun _ _ _ h => absurd h List.not_mem_nil, ?_⟩
    intro x hx y hy
    rw [List.mem_singleton.mp hy]
    exact hx.ordered
  | cons e es ih =>
    obtain ⟨he, hs⟩ := List.pairwise_cons.mp hs
    obtain ⟨hnothing, hasked, hanswered⟩ := ih hs
    cases e with
    | send t =>
      refine ⟨hasked t he, fun s _ => hasked t he, fun x hx y hy => ?_⟩
      rcases List.mem_cons.mp hy with rfl | hy
      · exact hx.ended
      · exact hasked t he y hy
    | recv n t =>
      refine ⟨hnothing, fun s hbefore => ?_, fun x hx => ?_⟩
      · exact hanswered _ (open_first (hbefore _ List.mem_cons_self) he)
      · exact hanswered _ (hx.more he _)

/-- The last receive, or the send behind it, if it is there: `t` with what follows, where a receive
came last or not. -/
def lastCounted (t : UInt64) : Bool → List Event → UInt64
  | _, [] => t
  | _, .recv _ t' :: es => lastCounted t' true es
  | true, .send t' :: es => lastCounted t' false es
  | false, .send _ :: es => lastCounted t false es

/-- The time of some exchanges. -/
def totals (xs : List Exchange) : Nat := (xs.map Exchange.total).sum

theorem sum_total_le (hs : Sorted es) :
    (∀ s t, t ≤ s → NoneBefore s es →
      t.toNat + totals (exchangesFrom (.asked s) es) ≤ (lastCounted t false es).toNat) ∧
    ∀ x, Open x es →
      x.tSend.toNat + totals (exchangesFrom (.answered x) es) ≤
        (lastCounted x.tLast true es).toNat := by
  induction es with
  | nil =>
    refine ⟨fun _ _ _ _ => Nat.le_refl _, fun x hx => ?_⟩
    have htotal := hx.ordered.total_eq
    rw [Exchange.stop, hx.next, Option.getD_none] at htotal
    exact htotal.le
  | cons e es ih =>
    obtain ⟨he, hs⟩ := List.pairwise_cons.mp hs
    obtain ⟨hasked, hanswered⟩ := ih hs
    cases e with
    | send t' =>
      refine ⟨fun s t hle hbefore => ?_, fun x hx => ?_⟩
      · exact hasked t' t (UInt64.le_trans hle (hbefore _ List.mem_cons_self)) he
      · have htotal : x.tSend.toNat + Exchange.total { x with next := some t' } = t'.toNat :=
          hx.ended.total_eq
        have hrest := hasked t' t' (UInt64.le_refl t') he
        rw [exchangesFrom, totals, List.map_cons, List.sum_cons, ← Nat.add_assoc, htotal]
        exact hrest
    | recv n t' =>
      refine ⟨fun s t hle hbefore => ?_, fun x hx => ?_⟩
      · have hrest := hanswered _ (open_first (n := n) (hbefore _ List.mem_cons_self) he)
        exact (Nat.add_le_add_right (UInt64.le_iff_toNat_le.mp hle) _).trans hrest
      · exact hanswered _ (hx.more he _)

/-- Every exchange has one send, and the last send was answered. -/
def Prompt (es : List Event) : Prop :=
  ∀ pre t post, es = pre ++ .send t :: post → post.head?.any Event.isRecv = true

theorem Prompt.tail {e : Event} (h : Prompt (e :: es)) : Prompt es :=
  fun pre t post heq => h (e :: pre) t post (by rw [heq, List.cons_append])

theorem sum_total_eq (hs : Sorted es) (hp : Prompt es) :
    (∀ s, NoneBefore s es → es.head?.any Event.isRecv = true →
      s.toNat + totals (exchangesFrom (.asked s) es) = (lastCounted s false es).toNat) ∧
    ∀ x, Open x es →
      x.tSend.toNat + totals (exchangesFrom (.answered x) es) =
        (lastCounted x.tLast true es).toNat := by
  induction es with
  | nil =>
    refine ⟨fun _ _ h => by simp at h, fun x hx => ?_⟩
    have htotal := hx.ordered.total_eq
    rw [Exchange.stop, hx.next, Option.getD_none] at htotal
    exact htotal
  | cons e es ih =>
    obtain ⟨he, hs⟩ := List.pairwise_cons.mp hs
    obtain ⟨hasked, hanswered⟩ := ih hs hp.tail
    cases e with
    | send t' =>
      refine ⟨fun s _ h => by simp [Event.isRecv] at h, fun x hx => ?_⟩
      have htotal : x.tSend.toNat + Exchange.total { x with next := some t' } = t'.toNat :=
        hx.ended.total_eq
      have hrest := hasked t' he (hp [] t' es rfl)
      rw [exchangesFrom, totals, List.map_cons, List.sum_cons, ← Nat.add_assoc, htotal]
      exact hrest
    | recv n t' =>
      refine ⟨fun s hbefore _ => ?_, fun x hx => ?_⟩
      · exact hanswered _ (open_first (hbefore _ List.mem_cons_self) he)
      · exact hanswered _ (hx.more he _)

end

/-! ## The connections of a run -/

theorem stamps_events (fd : Int) (calls : List Call) :
    ((events fd calls).map Event.stamp).Sublist (calls.filterMap Call.stamp) := by
  induction calls with
  | nil => exact List.Sublist.refl _
  | cons c calls ih =>
    cases c with
    | connect fd' port => exact ih
    | send fd' t =>
      have hstamps : (Call.send fd' t :: calls).filterMap Call.stamp =
          t :: calls.filterMap Call.stamp := rfl
      rw [events, hstamps]
      split
      · exact ih.cons_cons t
      · exact ih.cons t
    | recv fd' n t =>
      have hstamps : (Call.recv fd' n t :: calls).filterMap Call.stamp =
          t :: calls.filterMap Call.stamp := rfl
      rw [events, hstamps]
      split
      · exact ih.cons_cons t
      · exact ih.cons t
    | close fd' =>
      rw [events]
      split
      · exact List.nil_sublist _
      · exact ih

theorem stamps_conn {calls : List Call} {c : Conn} (hc : c ∈ connections calls) :
    (c.events.map Event.stamp).Sublist (calls.filterMap Call.stamp) := by
  induction calls with
  | nil => exact absurd hc List.not_mem_nil
  | cons call calls ih =>
    cases call with
    | connect fd port =>
      cases port with
      | none => exact ih hc
      | some port =>
        rcases List.mem_cons.mp hc with rfl | hc
        · exact stamps_events fd calls
        · exact ih hc
    | send fd t => exact (ih hc).trans (List.sublist_cons_self _ _)
    | recv fd n t => exact (ih hc).trans (List.sublist_cons_self _ _)
    | close fd => exact ih hc

theorem sorted_conn {calls : List Call} (hclock : Clock calls) {c : Conn}
    (hc : c ∈ connections calls) : Sorted c.events :=
  List.pairwise_map.mp (hclock.sublist (stamps_conn hc))

/-- The exchanges from the first send on. -/
theorem exchangesFrom_dropWhile (es : List Event) : exchangesFrom .nothing es =
    exchangesFrom .nothing (es.dropWhile fun e => !e.isSend) := by
  induction es with
  | nil => rfl
  | cons e es ih =>
    cases e with
    | send t => rw [List.dropWhile_cons_of_neg (by simp [Event.isSend])]
    | recv n t =>
      rw [List.dropWhile_cons_of_pos (by simp [Event.isSend])]
      exact ih

/-- What the dump of some calls is to say. -/
structure AccountedOnce (calls : List Call) (d : Dump) : Prop where
  exchanges : d.req.n + d.hs.n = ((connections calls).map fun c => groups c.events).sum
  hs : d.hs = aggregate ((connections calls).flatMap Conn.handshake)
  req : d.req = aggregate ((connections calls).flatMap Conn.requests)
  bytes : d.req.bytes + d.hs.bytes = ((connections calls).map fun c => received c.events).sum
  noUnderflow : ∀ c ∈ connections calls, ∀ x ∈ c.exchanges, x.Ordered
  time : ∀ c ∈ connections calls, ∀ t es, c.events.dropWhile (fun e => !e.isSend) = .send t :: es →
    t.toNat + totals c.exchanges ≤ (lastCounted t false es).toNat ∧
    (Prompt (.send t :: es) → t.toNat + totals c.exchanges = (lastCounted t false es).toNat)

section

variable {calls : List Call} {d : Dump}

theorem sum_map_add {α : Type} (f g : α → Nat) (l : List α) :
    (l.map f).sum + (l.map g).sum = (l.map fun a => f a + g a).sum := by
  induction l with
  | nil => rfl
  | cons a l ih =>
    simp only [List.map_cons, List.sum_cons]
    omega

theorem length_parts (c : Conn) : c.requests.length + c.handshake.length = groups c.events := by
  have hlength : c.exchanges.length = groups c.events := (length_exchangesFrom c.events).1
  rw [Conn.requests, Conn.handshake]
  by_cases hport : c.port = 443
  · rw [if_pos hport, if_pos hport, List.length_drop, List.length_take]
    omega
  · rw [if_neg hport, if_neg hport, hlength]
    rfl

theorem bytes_parts (c : Conn) : (c.requests.map Exchange.bytes).sum +
    (c.handshake.map Exchange.bytes).sum = received c.events := by
  have hbytes : (c.exchanges.map Exchange.bytes).sum = received c.events :=
    sum_bytes_nothing c.events
  rw [Conn.requests, Conn.handshake]
  by_cases hport : c.port = 443
  · rw [if_pos hport, if_pos hport, Nat.add_comm, ← List.sum_append_nat, ← List.map_append,
      List.take_append_drop, hbytes]
  · rw [if_neg hport, if_neg hport, hbytes]
    rfl

theorem sum_flatMap {α : Type} (f : Exchange → Nat) (g : α → List Exchange) (l : List α) :
    ((l.flatMap g).map f).sum = (l.map fun a => ((g a).map f).sum).sum := by
  induction l with
  | nil => rfl
  | cons a l ih =>
    rw [List.flatMap_cons, List.map_append, List.sum_append_nat, ih, List.map_cons, List.sum_cons]

theorem time_conn (hclock : Clock calls) {c : Conn} (hc : c ∈ connections calls) {t : UInt64}
    {es : List Event} (heq : c.events.dropWhile (fun e => !e.isSend) = .send t :: es) :
    t.toNat + totals c.exchanges ≤ (lastCounted t false es).toNat ∧
    (Prompt (.send t :: es) → t.toNat + totals c.exchanges = (lastCounted t false es).toNat) := by
  have hsorted : Sorted (.send t :: es) := by
    rw [← heq]
    exact (sorted_conn hclock hc).sublist (List.dropWhile_sublist _)
  obtain ⟨hbefore, hs⟩ := List.pairwise_cons.mp hsorted
  have hexchanges : c.exchanges = exchangesFrom (.asked t) es := by
    rw [Conn.exchanges, exchangesFrom_dropWhile, heq]
    rfl
  rw [hexchanges]
  refine ⟨(sum_total_le hs).1 t t (UInt64.le_refl t) hbefore, fun hp => ?_⟩
  exact (sum_total_eq hs hp.tail).1 t hbefore (hp [] t es rfl)

end

/-! ## One run, and one that is not counted -/

/-- The descriptor that a call connects. -/
def Call.connected : Call → Option Int
  | connect fd (some _) => some fd
  | connect _ none => none
  | send _ _ => none
  | recv _ _ _ => none
  | close _ => none

theorem ended_of_nodup {calls : List Call} (h : (calls.filterMap Call.connected).Nodup) :
    Ended calls := by
  intro pre fd port mid port' post heq
  have hfds : calls.filterMap Call.connected = pre.filterMap Call.connected ++
      fd :: (mid.filterMap Call.connected ++ fd :: post.filterMap Call.connected) := by
    rw [heq, List.filterMap_append]
    refine congrArg (_ ++ fd :: ·) ?_
    rw [List.filterMap_append]
    rfl
  rw [hfds] at h
  have hfd := (List.nodup_cons.mp (List.nodup_append.mp h).2.1).1
  exact absurd (List.mem_append_right _ List.mem_cons_self) hfd

theorem fini_of_conns {calls : List Call} (h : (run calls).conns ≠ 0) :
    fini (run calls) = some (closeAll (run calls)).dump := by
  rw [fini, if_neg h]

/-- Two exchanges with a server of port 443. -/
def twice : List Call :=
  [.connect 3 (some 443), .send 3 1, .recv 3 2 5, .send 3 7, .recv 3 4 9, .recv 3 (-1) 10, .close 3]

/-- An exchange on a descriptor that the library has no slot for. -/
def beyond : List Call :=
  [.connect 3 (some 80), .connect 65536 (some 443), .send 65536 1, .recv 65536 1 2, .close 65536]

end Netphase
