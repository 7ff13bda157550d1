import MiniosvCtrl.DuckdbLinux.Netphase
import Mathlib.Data.List.Nodup

/-!
# Every exchange is counted once

The calls on a descriptor, from where it is connected to where it is closed, are a connection. Its
exchanges are what lies between its sends: some sends, and the receives behind them.

* `connections`, `Conn.exchanges` — what the calls say
* `tally_run` — what the library counts
* `accounted_once`
-/

namespace Netphase

/-! ## Connections -/

/-- A send, or a receive of some bytes. -/
inductive Event
  | send (t : UInt64)
  | recv (n : Nat) (t : UInt64)
  deriving DecidableEq, Repr

def Event.stamp : Event → UInt64
  | send t => t
  | recv _ t => t

/-- What happens on a descriptor before it is closed. -/
def events (fd : Int) : List Call → List Event
  | [] => []
  | .connect _ _ :: calls => events fd calls
  | .send fd' t :: calls => if fd' = fd then .send t :: events fd calls else events fd calls
  | .recv fd' n t :: calls =>
    if fd' = fd ∧ 0 < n then .recv n.toNat t :: events fd calls else events fd calls
  | .close fd' :: calls => if fd' = fd then [] else events fd calls

/-- Where the exchanges of a connection stand: nothing was sent yet, a send waits for its answer,
or an exchange is being answered. -/
inductive Reading
  | nothing
  | asked (t : UInt64)
  | answered (x : Exchange)

/-- The exchanges of events. The last send before the answer counts, and with the next send an
exchange ends. -/
def exchangesFrom : Reading → List Event → List Exchange
  | .answered x, [] => [x]
  | .nothing, [] => []
  | .asked _, [] => []
  | .nothing, .send t :: es => exchangesFrom (.asked t) es
  | .asked _, .send t :: es => exchangesFrom (.asked t) es
  | .answered x, .send t :: es => { x with next := some t } :: exchangesFrom (.asked t) es
  | .nothing, .recv _ _ :: es => exchangesFrom .nothing es
  | .asked s, .recv n t :: es =>
    exchangesFrom (.answered { tSend := s, tFirst := t, tLast := t, bytes := n, next := none }) es
  | .answered x, .recv n t :: es =>
    exchangesFrom (.answered { x with tLast := t, bytes := x.bytes + n }) es

structure Conn where
  fd : Int
  port : UInt16
  events : List Event

def Conn.exchanges (c : Conn) : List Exchange := exchangesFrom .nothing c.events

def connections : List Call → List Conn
  | [] => []
  | .connect fd (some port) :: calls =>
    { fd := fd, port := port, events := events fd calls } :: connections calls
  | .connect _ none :: calls => connections calls
  | .send _ _ :: calls => connections calls
  | .recv _ _ _ :: calls => connections calls
  | .close _ :: calls => connections calls

/-- No descriptor is connected again before it is closed. -/
def Ended (calls : List Call) : Prop :=
  ∀ pre fd port mid port' post,
    calls = pre ++ .connect fd (some port) :: (mid ++ .connect fd (some port') :: post) →
    .close fd ∈ mid

/-- The clock of a call that reads it. -/
def Call.stamp : Call → Option UInt64
  | connect _ _ => none
  | send _ t => some t
  | recv _ _ t => some t
  | close _ => none

/-- The clock does not go back. -/
def Clock (calls : List Call) : Prop := (calls.filterMap Call.stamp).Pairwise (· ≤ ·)

/-! ## Counting in any order -/

/-- The two counts: `hs` and `req`. -/
def Process.aggs (p : Process) : Agg × Agg := (p.hs, p.req)

theorem aggs_fst (p : Process) : p.aggs.1 = p.hs := rfl

theorem aggs_snd (p : Process) : p.aggs.2 = p.req := rfl

/-- One more exchange is counted, as the first of a connection to port 443 or not. -/
def tallyOne (a : Agg × Agg) (c : Bool × Exchange) : Agg × Agg :=
  if c.1 then (a.1.count c.2, a.2) else (a.1, a.2.count c.2)

def tally (a : Agg × Agg) (l : List (Bool × Exchange)) : Agg × Agg := l.foldl tallyOne a

theorem tally_append (a : Agg × Agg) (l m : List (Bool × Exchange)) :
    tally a (l ++ m) = tally (tally a l) m := List.foldl_append

@[simp] theorem aggs_count (p : Process) (first : Bool) (x : Exchange) :
    (p.count first x).aggs = tallyOne p.aggs (first, x) := by
  cases first <;> rfl

theorem hist_comm (h : List Nat) (d e : UInt64) : hist (hist h d) e = hist (hist h e) d := by
  by_cases heq : bucket d = bucket e
  · rw [hist, hist, hist, hist, heq]
  · exact List.modify_modify_ne _ _ _ heq

theorem Agg.count_comm (a : Agg) (x y : Exchange) : (a.count x).count y = (a.count y).count x := by
  simp only [Agg.count, hist_comm _ x.ttfb, hist_comm _ x.body, Agg.mk.injEq, and_true, true_and]
  omega

theorem tallyOne_comm (a : Agg × Agg) (c d : Bool × Exchange) :
    tallyOne (tallyOne a c) d = tallyOne (tallyOne a d) c := by
  obtain ⟨_ | _, x⟩ := c
  · obtain ⟨_ | _, y⟩ := d
    · exact congrArg (Prod.mk a.1) (a.2.count_comm x y)
    · rfl
  · obtain ⟨_ | _, y⟩ := d
    · rfl
    · exact congrArg (·, a.2) (a.1.count_comm x y)

theorem tally_perm (a : Agg × Agg) {l m : List (Bool × Exchange)} (h : l.Perm m) :
    tally a l = tally a m := by
  induction h generalizing a with
  | nil => rfl
  | cons c _ ih => exact ih (tallyOne a c)
  | swap c d l => exact congrArg (tally · l) (tallyOne_comm a d c)
  | trans _ _ ih ih' => exact (ih a).trans (ih' a)

/-! ## A slot and its connection -/

/-- What a slot says of the exchanges. -/
def Slot.reading (s : Slot) : Reading :=
  match s.phase with
  | .idle => .nothing
  | .sent => .asked s.tSend
  | .receiving =>
    .answered
      { tSend := s.tSend, tFirst := s.tFirst, tLast := s.tLast, bytes := s.bytes, next := none }

/-- Exchanges, each with whether `hs` counts it. -/
def labelled (tls : Bool) : UInt32 → List Exchange → List (Bool × Exchange)
  | _, [] => []
  | k, x :: xs => (decide (k = 0 ∧ tls = true), x) :: labelled tls (k + 1) xs

/-- What is still to be counted of a connection. -/
def Slot.owed (s : Slot) (es : List Event) : List (Bool × Exchange) :=
  labelled s.tls s.exchanges (exchangesFrom s.reading es)

/-- Bytes are kept only while an exchange is being answered. -/
def Slot.Clean (s : Slot) : Prop := s.phase ≠ .receiving → s.bytes = 0

/-- What is counted when an exchange ends, and the slot behind it. -/
def Slot.ending (s : Slot) (tNext : Option UInt64) : List (Bool × Exchange) :=
  if s.phase ≠ .receiving then []
  else
    [(decide (s.exchanges = 0 ∧ s.tls = true),
      { tSend := s.tSend, tFirst := s.tFirst, tLast := s.tLast, bytes := s.bytes, next := tNext })]

def Slot.ended (s : Slot) : Slot :=
  if s.phase ≠ .receiving then s
  else { s with exchanges := s.exchanges + 1, phase := .idle, bytes := 0 }

section

variable {s : Slot} {es : List Event}

theorem owed_send (s : Slot) (t : UInt64) (es : List Event) : s.owed (.send t :: es) =
    s.ending (some t) ++ Slot.owed { s.ended with tSend := t, phase := .sent } es := by
  cases hs : s.phase <;>
    simp [Slot.owed, Slot.reading, Slot.ending, Slot.ended, hs, exchangesFrom, labelled]

theorem owed_nil (s : Slot) : s.owed [] = s.ending none := by
  cases hs : s.phase <;> simp [Slot.owed, Slot.reading, Slot.ending, hs, exchangesFrom, labelled]

theorem owed_recv_idle (hs : s.phase = .idle) (n : Nat) (t : UInt64) (es : List Event) :
    s.owed (.recv n t :: es) = s.owed es := by
  simp [Slot.owed, Slot.reading, hs, exchangesFrom]

theorem owed_recv (hclean : s.Clean) (hs : s.phase ≠ .idle) (n : Nat) (t : UInt64)
    (es : List Event) : s.owed (.recv n t :: es) = (s.receive n t).owed es := by
  cases hphase : s.phase with
  | idle => exact absurd hphase hs
  | sent =>
    have hbytes : s.bytes = 0 := hclean (by simp [hphase])
    simp [Slot.owed, Slot.reading, Slot.receive, hphase, exchangesFrom, hbytes]
  | receiving => simp [Slot.owed, Slot.reading, Slot.receive, hphase, exchangesFrom]

theorem Slot.Clean.receive (hs : s.phase ≠ .idle) (n : Nat) (t : UInt64) :
    (s.receive n t).Clean := by
  intro h
  refine absurd ?_ h
  cases hphase : s.phase with
  | idle => exact absurd hphase hs
  | sent => simp [Slot.receive, hphase]
  | receiving => simp [Slot.receive, hphase]

theorem Slot.Clean.ended (h : s.Clean) : s.ended.Clean := by
  by_cases hs : s.phase = .receiving
  · simp [Slot.Clean, Slot.ended, hs]
  · rwa [Slot.ended, if_pos hs]

theorem ended_bytes (h : s.Clean) : s.ended.bytes = 0 := by
  by_cases hs : s.phase = .receiving
  · simp [Slot.ended, hs]
  · rw [Slot.ended, if_pos hs]
    exact h hs

@[simp] theorem ended_sock : s.ended.sock = s.sock := by
  by_cases hs : s.phase = .receiving <;> simp [Slot.ended, hs]

@[simp] theorem receive_sock {n : Nat} {t : UInt64} : (s.receive n t).sock = s.sock := by
  by_cases hs : s.phase = .sent <;> simp [Slot.receive, hs]

end

section

variable {p : Process} {fd : Nat} {tNext : Option UInt64}

theorem closeExchange_aggs :
    (p.closeExchange fd tNext).aggs = tally p.aggs ((p.slots fd).ending tNext) := by
  by_cases hs : (p.slots fd).phase = .receiving
  · rw [Process.closeExchange, if_neg (not_not_intro hs), Slot.ending, if_neg (not_not_intro hs)]
    exact aggs_count p _ _
  · rw [Process.closeExchange, if_pos hs, Slot.ending, if_pos hs]
    rfl

theorem closeExchange_slots :
    (p.closeExchange fd tNext).slots = Function.update p.slots fd (p.slots fd).ended := by
  by_cases hs : (p.slots fd).phase = .receiving
  · rw [Process.closeExchange, if_neg (not_not_intro hs), Slot.ended, if_neg (not_not_intro hs)]
    simp [Process.set]
  · rw [Process.closeExchange, if_pos hs, Slot.ended, if_pos hs, Function.update_eq_self]

end

/-! ## What is still to be counted -/

/-- At one place of a list something comes off. -/
theorem flatMap_perm_of_update {α β : Type} [DecidableEq α] {l : List α} (hl : l.Nodup) {k : α}
    (hk : k ∈ l) {f g : α → List β} {pre : List β} (hother : ∀ i, i ≠ k → f i = g i)
    (hpre : f k = pre ++ g k) : (l.flatMap f).Perm (pre ++ l.flatMap g) := by
  have hcons := List.perm_cons_erase hk
  have hrest : (l.erase k).flatMap f = (l.erase k).flatMap g := by
    refine List.flatMap_congr fun i hi => hother i ?_
    exact (hl.mem_erase_iff.mp hi).1
  calc l.flatMap f
    _ |>.Perm ((k :: l.erase k).flatMap f) := hcons.flatMap_right f
    _ = pre ++ (k :: l.erase k).flatMap g := by
      rw [List.flatMap_cons, List.flatMap_cons, hpre, hrest, List.append_assoc]
    _ |>.Perm (pre ++ l.flatMap g) := (hcons.symm.flatMap_right g).append_left pre

/-- Of the connections that are open. -/
def pendingAt (p : Process) (calls : List Call) (fd : Nat) : List (Bool × Exchange) :=
  if (p.slots fd).sock then (p.slots fd).owed (events fd calls) else []

def pending (p : Process) (calls : List Call) : List (Bool × Exchange) :=
  (List.range maxFd).flatMap (pendingAt p calls)

/-- A descriptor that the library has a slot for. -/
def Conn.watched (c : Conn) : Bool := decide (0 ≤ c.fd ∧ c.fd < maxFd)

def Conn.counted (c : Conn) : List (Bool × Exchange) := labelled (c.port = 443) 0 c.exchanges

/-- Of the connections to come. -/
def coming (calls : List Call) : List (Bool × Exchange) :=
  ((connections calls).filter Conn.watched).flatMap Conn.counted

/-- Nobody connects a descriptor again that is open. -/
def Free (p : Process) (calls : List Call) : Prop :=
  ∀ fd < maxFd, (p.slots fd).sock = true →
    ∀ mid port post, calls = mid ++ .connect (fd : Int) (some port) :: post →
      .close (fd : Int) ∈ mid

section

variable {p : Process} {calls : List Call} {c : Call}

theorem watches_iff {fd : Int} : p.watches fd = true ↔
    0 ≤ fd ∧ fd < maxFd ∧ (p.slots fd.toNat).sock = true := by
  simp [Process.watches]

theorem not_sock_of_not_watches {fd : Nat} (hfd : fd < maxFd) (h : ¬ p.watches fd = true) :
    (p.slots fd).sock = false := by
  rw [watches_iff] at h
  have hlt : (fd : Int) < maxFd := by exact_mod_cast hfd
  simpa [hlt] using h

theorem pending_congr {q : Process} {calls' : List Call}
    (h : ∀ fd < maxFd, pendingAt p calls fd = pendingAt q calls' fd) :
    pending p calls = pending q calls' :=
  List.flatMap_congr fun fd hfd => h fd (List.mem_range.mp hfd)

theorem pending_perm {q : Process} {calls' : List Call} {k : Nat} (hk : k < maxFd)
    {pre : List (Bool × Exchange)}
    (hother : ∀ fd, fd ≠ k → pendingAt p calls fd = pendingAt q calls' fd)
    (hpre : pendingAt p calls k = pre ++ pendingAt q calls' k) :
    (pending p calls).Perm (pre ++ pending q calls') :=
  flatMap_perm_of_update List.nodup_range (List.mem_range.mpr hk) hother hpre

/-- What a call comes to. -/
def Tallied (p q : Process) (c : Call) (calls : List Call) : Prop :=
  tally p.aggs (pending p (c :: calls) ++ coming (c :: calls)) =
    tally q.aggs (pending q calls ++ coming calls)

theorem tallied_of_perm {q : Process} {pre : List (Bool × Exchange)}
    (haggs : q.aggs = tally p.aggs pre) (hcoming : coming (c :: calls) = coming calls)
    (hperm : (pending p (c :: calls)).Perm (pre ++ pending q calls)) : Tallied p q c calls := by
  rw [Tallied, haggs, ← tally_append, hcoming, ← List.append_assoc]
  exact tally_perm p.aggs (hperm.append_right _)

theorem tallied_of_eq {q : Process} (haggs : q.aggs = p.aggs)
    (hcoming : coming (c :: calls) = coming calls)
    (h : ∀ fd < maxFd, pendingAt p (c :: calls) fd = pendingAt q calls fd) :
    Tallied p q c calls := by
  rw [Tallied, haggs, hcoming, pending_congr h]

theorem events_send_of_ne {fd fd' : Int} (h : fd' ≠ fd) (t : UInt64) :
    events fd (.send fd' t :: calls) = events fd calls := if_neg h

theorem events_recv_of_ne {fd fd' : Int} (h : fd' ≠ fd) (n : Int) (t : UInt64) :
    events fd (.recv fd' n t :: calls) = events fd calls := if_neg fun h' => h h'.1

theorem events_close_of_ne {fd fd' : Int} (h : fd' ≠ fd) :
    events fd (.close fd' :: calls) = events fd calls := if_neg h

/-- What a send does. -/
theorem onSend_cases (p : Process) (fd : Int) (t : UInt64) :
    (¬ p.watches fd = true ∧ p.onSend fd t = p) ∨
    ∃ k : Nat, fd = k ∧ k < maxFd ∧ (p.slots k).sock = true ∧
      (p.onSend fd t).slots = Function.update p.slots k
        { (p.slots k).ended with tSend := t, phase := .sent } ∧
      (p.onSend fd t).aggs = tally p.aggs ((p.slots k).ending (some t)) := by
  by_cases hwatch : p.watches fd = true
  · obtain ⟨hnonneg, hlt, hsock⟩ := watches_iff.mp hwatch
    obtain ⟨k, rfl⟩ := Int.eq_ofNat_of_zero_le hnonneg
    have hsend : p.onSend k t = ((p.closeExchange k (some t)).set k
        { (p.slots k).ended with tSend := t, phase := .sent }).noteSend t := by
      simp only [Process.onSend, if_pos hwatch, Int.toNat_natCast, closeExchange_slots,
        Function.update_self]
    refine .inr ⟨k, rfl, by exact_mod_cast hlt, hsock, ?_, ?_⟩
    · rw [hsend, Process.noteSend_slots, Process.set, closeExchange_slots, Function.update_idem]
    · rw [← closeExchange_aggs, hsend, Process.aggs]
      simp [Process.aggs]
  · exact .inl ⟨hwatch, by rw [Process.onSend, if_neg hwatch]⟩

/-- What a receive does. -/
theorem onRecv_cases (p : Process) (fd n : Int) (t : UInt64) :
    (¬ (p.watches fd = true ∧ 0 < n) ∧ p.onRecv fd n t = p) ∨
    ∃ k : Nat, fd = k ∧ k < maxFd ∧ (p.slots k).sock = true ∧ 0 < n ∧
      ((p.slots k).phase = .idle ∧ p.onRecv fd n t = p ∨
        (p.slots k).phase ≠ .idle ∧ (p.onRecv fd n t).aggs = p.aggs ∧
          (p.onRecv fd n t).slots =
            Function.update p.slots k ((p.slots k).receive n.toNat t)) := by
  by_cases hwatch : p.watches fd = true ∧ 0 < n
  · obtain ⟨hnonneg, hlt, hsock⟩ := watches_iff.mp hwatch.1
    obtain ⟨k, rfl⟩ := Int.eq_ofNat_of_zero_le hnonneg
    refine .inr ⟨k, rfl, by exact_mod_cast hlt, hsock, hwatch.2, ?_⟩
    by_cases hidle : (p.slots k).phase = .idle
    · refine .inl ⟨hidle, ?_⟩
      simp only [Process.onRecv, if_pos hwatch, Int.toNat_natCast, if_pos hidle]
    · have hrecv : p.onRecv k n t = (p.set k ((p.slots k).receive n.toNat t)).noteRecv t := by
        simp only [Process.onRecv, if_pos hwatch, Int.toNat_natCast, if_neg hidle]
      refine .inr ⟨hidle, ?_, ?_⟩
      · rw [hrecv, Process.aggs]
        simp [Process.aggs]
      · rw [hrecv, Process.noteRecv_slots, Process.set]
  · exact .inl ⟨hwatch, by rw [Process.onRecv, if_neg hwatch]⟩

/-- What closing does. -/
theorem close_cases (p : Process) (fd : Int) :
    (¬ p.watches fd = true ∧ p.close fd = p) ∨
    ∃ k : Nat, fd = k ∧ k < maxFd ∧ (p.slots k).sock = true ∧
      (p.close fd).slots = Function.update p.slots k { (p.slots k).ended with sock := false } ∧
      (p.close fd).aggs = tally p.aggs ((p.slots k).ending none) := by
  by_cases hwatch : p.watches fd = true
  · obtain ⟨hnonneg, hlt, hsock⟩ := watches_iff.mp hwatch
    obtain ⟨k, rfl⟩ := Int.eq_ofNat_of_zero_le hnonneg
    have hclose : p.close k = (p.closeExchange k none).set k
        { (p.slots k).ended with sock := false } := by
      simp only [Process.close, if_pos hwatch, Int.toNat_natCast, closeExchange_slots,
        Function.update_self]
    refine .inr ⟨k, rfl, by exact_mod_cast hlt, hsock, ?_, ?_⟩
    · rw [hclose, Process.set, closeExchange_slots, Function.update_idem]
    · rw [← closeExchange_aggs, hclose, Process.aggs]
      rfl
  · exact .inl ⟨hwatch, by rw [Process.close, if_neg hwatch]⟩

/-- What connecting does. -/
theorem connect_cases (p : Process) (fd : Int) (port : UInt16) :
    (¬ (0 ≤ fd ∧ fd < maxFd) ∧ p.connect fd (some port) = p) ∨
    ∃ k : Nat, fd = k ∧ k < maxFd ∧
      (p.connect fd (some port)).slots = Function.update p.slots k
        { Slot.zero with sock := true, tls := port = 443 } ∧
      (p.connect fd (some port)).aggs = p.aggs := by
  by_cases hfd : 0 ≤ fd ∧ fd < maxFd
  · obtain ⟨k, rfl⟩ := Int.eq_ofNat_of_zero_le hfd.1
    refine .inr ⟨k, rfl, by exact_mod_cast hfd.2, ?_, ?_⟩
    · simp only [Process.connect, if_pos hfd, Int.toNat_natCast]
      rfl
    · simp only [Process.connect, if_pos hfd]
      rfl
  · exact .inl ⟨hfd, if_neg hfd⟩

theorem tallied_send (fd : Int) (t : UInt64) : Tallied p (p.onSend fd t) (.send fd t) calls := by
  rcases onSend_cases p fd t with ⟨hwatch, hsend⟩ | ⟨k, rfl, hk, hsock, hslots, haggs⟩
  · rw [hsend]
    refine tallied_of_eq rfl rfl fun i hi => ?_
    by_cases hfd : fd = i
    · subst hfd
      rw [pendingAt, pendingAt, not_sock_of_not_watches hi hwatch]
      rfl
    · rw [pendingAt, pendingAt, events_send_of_ne hfd]
  · refine tallied_of_perm haggs rfl (pending_perm hk ?_ ?_)
    · intro i hi
      rw [pendingAt, pendingAt, hslots, Function.update_of_ne hi,
        events_send_of_ne (by exact_mod_cast hi.symm)]
    · rw [pendingAt, pendingAt, if_pos hsock, hslots, Function.update_self, events, if_pos rfl,
        owed_send, if_pos (by simpa using hsock)]

theorem tallied_recv (hclean : ∀ fd, (p.slots fd).Clean) (fd n : Int) (t : UInt64) :
    Tallied p (p.onRecv fd n t) (.recv fd n t) calls := by
  rcases onRecv_cases p fd n t with ⟨hwatch, hrecv⟩ | ⟨k, rfl, hk, hsock, hn, hrecv⟩
  · rw [hrecv]
    refine tallied_of_eq rfl rfl fun i hi => ?_
    by_cases hself : fd = i ∧ 0 < n
    · have hnot : ¬ p.watches i = true := fun h => hwatch ⟨hself.1 ▸ h, hself.2⟩
      rw [pendingAt, pendingAt, not_sock_of_not_watches hi hnot]
      rfl
    · rw [pendingAt, pendingAt, events, if_neg hself]
  · have hother : ∀ i, i ≠ k → events i (.recv (k : Int) n t :: calls) = events i calls :=
      fun i hi => events_recv_of_ne (by exact_mod_cast hi.symm) n t
    have hself : events k (.recv (k : Int) n t :: calls) = .recv n.toNat t :: events k calls :=
      if_pos ⟨rfl, hn⟩
    rcases hrecv with ⟨hidle, hrecv⟩ | ⟨hidle, haggs, hslots⟩
    · rw [hrecv]
      refine tallied_of_eq rfl rfl fun i _ => ?_
      by_cases hi : i = k
      · subst hi
        rw [pendingAt, pendingAt, hself, owed_recv_idle hidle]
      · rw [pendingAt, pendingAt, hother i hi]
    · refine tallied_of_eq haggs rfl fun i _ => ?_
      by_cases hi : i = k
      · subst hi
        rw [pendingAt, pendingAt, hself, hslots, Function.update_self,
          owed_recv (hclean i) hidle, receive_sock]
      · rw [pendingAt, pendingAt, hother i hi, hslots, Function.update_of_ne hi]

theorem tallied_close (fd : Int) : Tallied p (p.close fd) (.close fd) calls := by
  rcases close_cases p fd with ⟨hwatch, hclose⟩ | ⟨k, rfl, hk, hsock, hslots, haggs⟩
  · rw [hclose]
    refine tallied_of_eq rfl rfl fun i hi => ?_
    by_cases hfd : fd = i
    · subst hfd
      rw [pendingAt, pendingAt, not_sock_of_not_watches hi hwatch]
      rfl
    · rw [pendingAt, pendingAt, events_close_of_ne hfd]
  · refine tallied_of_perm haggs rfl (pending_perm hk ?_ ?_)
    · intro i hi
      rw [pendingAt, pendingAt, hslots, Function.update_of_ne hi,
        events_close_of_ne (by exact_mod_cast hi.symm)]
    · rw [pendingAt, pendingAt, if_pos hsock, hslots, Function.update_self, events, if_pos rfl,
        owed_nil, if_neg (by simp), List.append_nil]

theorem tallied_connect {fd : Int} {port : UInt16}
    (hfree : ∀ k < maxFd, fd = (k : Int) → (p.slots k).sock = false) :
    Tallied p (p.connect fd (some port)) (.connect fd (some port)) calls := by
  rcases connect_cases p fd port with ⟨hfd, hconnect⟩ | ⟨k, rfl, hk, hslots, haggs⟩
  · have hwatched :
        ¬ Conn.watched { fd := fd, port := port, events := events fd calls } = true := by
      simpa [Conn.watched] using hfd
    have hcoming : coming (.connect fd (some port) :: calls) = coming calls := by
      rw [coming, connections, List.filter_cons_of_neg hwatched]
      rfl
    rw [hconnect]
    exact tallied_of_eq rfl hcoming fun i _ => rfl
  · have hwatched : Conn.watched { fd := k, port := port, events := events k calls } = true :=
      decide_eq_true ⟨Int.natCast_nonneg k, Int.ofNat_lt.mpr hk⟩
    have hcoming : coming (.connect k (some port) :: calls) =
        labelled (port = 443) 0 (exchangesFrom .nothing (events k calls)) ++ coming calls := by
      rw [coming, connections, List.filter_cons_of_pos hwatched]
      rfl
    -- what was to come is now to be counted of the slot
    have hperm : (pending (p.connect k (some port)) calls).Perm
        (labelled (port = 443) 0 (exchangesFrom .nothing (events k calls)) ++
          pending p (.connect k (some port) :: calls)) := by
      refine pending_perm hk ?_ ?_
      · intro i hi
        rw [pendingAt, pendingAt, hslots, Function.update_of_ne hi]
        rfl
      · rw [pendingAt, pendingAt, hslots, Function.update_self, if_pos rfl, hfree k hk rfl,
          if_neg (by simp), List.append_nil]
        rfl
    rw [Tallied, haggs, hcoming]
    refine tally_perm p.aggs ?_
    refine List.Perm.trans ?_ (hperm.symm.append_right _)
    rw [← List.append_assoc]
    exact List.perm_append_comm.append_right _

end

/-! ## A whole run -/

/-- What holds between calls. -/
structure Between (p : Process) (calls : List Call) : Prop where
  clean : ∀ fd, (p.slots fd).Clean
  free : Free p calls
  ended : Ended calls

section

variable {p : Process} {calls : List Call} {c : Call}

theorem Ended.tail (h : Ended (c :: calls)) : Ended calls :=
  fun pre fd port mid port' post heq =>
    h (c :: pre) fd port mid port' post (by rw [heq, List.cons_append])

theorem clean_update {slots : Nat → Slot} {k : Nat} {s : Slot} (h : ∀ fd, (slots fd).Clean)
    (hs : s.Clean) (fd : Nat) : (Function.update slots k s fd).Clean := by
  by_cases hfd : fd = k
  · subst hfd
    rwa [Function.update_self]
  · rw [Function.update_of_ne hfd]
    exact h fd

theorem Between.connect_free {fd : Int} {port : UInt16}
    (h : Between p (.connect fd (some port) :: calls)) (k : Nat) (hlt : k < maxFd) (hk : fd = k) :
    (p.slots k).sock = false := by
  by_contra hsock
  rw [Bool.not_eq_false] at hsock
  subst hk
  exact absurd (h.free k hlt hsock [] port calls rfl) List.not_mem_nil

/-- What is open after a call was connected by it, or was open and is not closed by it. -/
theorem Between.next {q : Process} (h : Between p (c :: calls)) (hclean : ∀ fd, (q.slots fd).Clean)
    (hopen : ∀ fd < maxFd, (q.slots fd).sock = true →
      (∃ port, c = .connect (fd : Int) (some port)) ∨
        (p.slots fd).sock = true ∧ c ≠ .close (fd : Int)) : Between q calls where
  clean := hclean
  ended := h.ended.tail
  free := by
    intro fd hfd hsock mid port post heq
    rcases hopen fd hfd hsock with ⟨port', rfl⟩ | ⟨hbefore, hc⟩
    · exact h.ended [] fd port' mid port post (by rw [heq, List.nil_append])
    · have hmem := h.free fd hfd hbefore (c :: mid) port post (by rw [heq, List.cons_append])
      exact (List.mem_cons.mp hmem).resolve_left hc.symm

theorem Between.same (h : Between p (c :: calls))
    (hopen : ∀ fd < maxFd, (p.slots fd).sock = true → c ≠ .close (fd : Int)) : Between p calls :=
  h.next h.clean fun fd hfd hsock => .inr ⟨hsock, hopen fd hfd hsock⟩

theorem Between.update {q : Process} {k : Nat} {s : Slot} (h : Between p (c :: calls))
    (hslots : q.slots = Function.update p.slots k s) (hs : s.Clean)
    (hself : s.sock = true → (∃ port, c = .connect (k : Int) (some port)) ∨
      (p.slots k).sock = true ∧ c ≠ .close (k : Int))
    (hother : ∀ fd, fd ≠ k → c ≠ .close (fd : Int)) : Between q calls := by
  refine h.next (fun fd => ?_) fun fd hfd hsock => ?_
  · rw [hslots]
    exact clean_update h.clean hs fd
  · rw [hslots] at hsock
    by_cases hk : fd = k
    · subst hk
      rw [Function.update_self] at hsock
      exact hself hsock
    · rw [Function.update_of_ne hk] at hsock
      exact .inr ⟨hsock, hother fd hk⟩

/-- **A call keeps it.** -/
theorem Between.step (h : Between p (c :: calls)) : Between (step p c) calls := by
  -- each call leaves the slots, or writes to the one of its own socket
  cases c with
  | connect fd port =>
    cases port with
    | none => exact h.same fun _ _ _ => by simp
    | some port =>
      rw [Netphase.step]
      rcases connect_cases p fd port with ⟨-, hconnect⟩ | ⟨k, rfl, -, hslots, -⟩
      · rw [hconnect]
        exact h.same fun _ _ _ => by simp
      · exact h.update hslots (fun _ => rfl) (fun _ => .inl ⟨port, rfl⟩) fun _ _ => by simp
  | send fd t =>
    rw [Netphase.step]
    rcases onSend_cases p fd t with ⟨-, hsend⟩ | ⟨k, rfl, -, hsock, hslots, -⟩
    · rw [hsend]
      exact h.same fun _ _ _ => by simp
    · exact h.update hslots (fun _ => ended_bytes (h.clean k)) (fun _ => .inr ⟨hsock, by simp⟩)
        fun _ _ => by simp
  | recv fd n t =>
    rw [Netphase.step]
    rcases onRecv_cases p fd n t with ⟨-, hrecv⟩ | ⟨k, rfl, -, hsock, -, hrecv⟩
    · rw [hrecv]
      exact h.same fun _ _ _ => by simp
    · rcases hrecv with ⟨-, hrecv⟩ | ⟨hidle, -, hslots⟩
      · rw [hrecv]
        exact h.same fun _ _ _ => by simp
      · exact h.update hslots (Slot.Clean.receive hidle _ _) (fun _ => .inr ⟨hsock, by simp⟩)
          fun _ _ => by simp
  | close fd =>
    rw [Netphase.step]
    rcases close_cases p fd with ⟨hwatch, hclose⟩ | ⟨k, rfl, -, -, hslots, -⟩
    · rw [hclose]
      -- a socket of a slot is watched, so what is closed unwatched is none
      refine h.same fun k hk hsock hc => hwatch ?_
      rw [Call.close.inj hc, watches_iff]
      exact ⟨Int.natCast_nonneg k, Int.ofNat_lt.mpr hk, hsock⟩
    · refine h.update hslots (fun _ => ended_bytes (h.clean k)) (fun hsock => ?_) fun fd hfd => ?_
      · cases hsock
      · simpa using hfd.symm

theorem tallied_step (h : Between p (c :: calls)) : Tallied p (step p c) c calls := by
  cases c with
  | connect fd port =>
    cases port with
    | none => exact tallied_of_eq rfl rfl fun _ _ => rfl
    | some port => exact tallied_connect h.connect_free
  | send fd t => exact tallied_send fd t
  | recv fd n t => exact tallied_recv h.clean fd n t
  | close fd => exact tallied_close fd

/-- At exit the connections that are open are counted. -/
theorem closeAll_aggs (p : Process) : (closeAll p).aggs = tally p.aggs (pending p []) := by
  have hfolds : ∀ fds : List Nat, fds.Nodup → ∀ q : Process,
      (fds.foldl (fun p fd => if (p.slots fd).sock then p.closeExchange fd none else p) q).aggs =
        tally q.aggs (fds.flatMap (pendingAt q [])) := by
    intro fds hfds
    induction fds with
    | nil => exact fun _ => rfl
    | cons fd fds ih =>
      obtain ⟨hfd, hfds⟩ := List.nodup_cons.mp hfds
      intro q
      rw [List.foldl_cons, ih hfds, List.flatMap_cons, tally_append, pendingAt]
      by_cases hsock : (q.slots fd).sock = true
      · have hrest : fds.flatMap (pendingAt (q.closeExchange fd none) []) =
            fds.flatMap (pendingAt q []) := by
          refine List.flatMap_congr fun i hi => ?_
          have hne : i ≠ fd := fun heq => hfd (heq ▸ hi)
          rw [pendingAt, pendingAt, closeExchange_slots, Function.update_of_ne hne]
        rw [if_pos hsock, if_pos hsock, hrest, closeExchange_aggs, events, owed_nil]
      · rw [if_neg hsock, if_neg hsock]
        rfl
  exact hfolds _ List.nodup_range p

/-- **A run counts what is pending and what is to come.** -/
theorem tally_run (h : Between p calls) : (closeAll (calls.foldl step p)).aggs =
    tally p.aggs (pending p calls ++ coming calls) := by
  induction calls generalizing p with
  | nil =>
    rw [List.foldl_nil, closeAll_aggs]
    show _ = tally p.aggs (pending p [] ++ [])
    rw [List.append_nil]
  | cons c calls ih =>
    rw [List.foldl_cons, ih h.step]
    exact (tallied_step h).symm

end

/-! ## The two counts -/

theorem tally_fst (a : Agg × Agg) (l : List (Bool × Exchange)) :
    (tally a l).1 = ((l.filter Prod.fst).map Prod.snd).foldl Agg.count a.1 := by
  induction l generalizing a with
  | nil => rfl
  | cons c l ih =>
    obtain ⟨_ | _, x⟩ := c
    · exact ih (a.1, a.2.count x)
    · exact ih (a.1.count x, a.2)

theorem tally_snd (a : Agg × Agg) (l : List (Bool × Exchange)) :
    (tally a l).2 = ((l.filter fun c => !c.1).map Prod.snd).foldl Agg.count a.2 := by
  induction l generalizing a with
  | nil => rfl
  | cons c l ih =>
    obtain ⟨_ | _, x⟩ := c
    · exact ih (a.1, a.2.count x)
    · exact ih (a.1.count x, a.2)

/-- Behind the first exchange nothing is `hs`'s, until the number is back at zero. -/
theorem labelled_later {tls : Bool} {k : UInt32} {xs : List Exchange} (hk : 0 < k.toNat)
    (hfits : k.toNat + xs.length ≤ 2 ^ 32) : labelled tls k xs = xs.map (Prod.mk false) := by
  induction xs generalizing k with
  | nil => rfl
  | cons x xs ih =>
    rw [List.length_cons] at hfits
    have hne : k ≠ 0 := by
      rintro rfl
      exact absurd hk (by decide)
    have htail : labelled tls (k + 1) xs = xs.map (Prod.mk false) := by
      cases xs with
      | nil => rfl
      | cons y ys =>
        rw [List.length_cons] at hfits
        have hnext : (k + 1).toNat = k.toNat + 1 := by
          rw [UInt32.toNat_add, UInt32.toNat_one, Nat.mod_eq_of_lt (by omega)]
        exact ih (by omega) (by rw [hnext, List.length_cons]; omega)
    rw [labelled, htail, List.map_cons]
    simp [hne]

theorem labelled_plain (k : UInt32) (xs : List Exchange) :
    labelled false k xs = xs.map (Prod.mk false) := by
  induction xs generalizing k with
  | nil => rfl
  | cons x xs ih =>
    rw [labelled, ih, List.map_cons]
    simp

theorem filter_fst_plain (xs : List Exchange) :
    (xs.map (Prod.mk false)).filter Prod.fst = [] := by
  refine List.filter_eq_nil_iff.mpr fun c hc => ?_
  obtain ⟨x, -, rfl⟩ := List.mem_map.mp hc
  exact Bool.false_ne_true

theorem filter_not_plain (xs : List Exchange) :
    ((xs.map (Prod.mk false)).filter fun c => !c.1).map Prod.snd = xs := by
  induction xs with
  | nil => rfl
  | cons x xs ih => exact congrArg (x :: ·) ih

theorem filter_fst_first (xs : List Exchange) :
    ((xs.map (Prod.mk true)).filter Prod.fst).map Prod.snd = xs := by
  induction xs with
  | nil => rfl
  | cons x xs ih => exact congrArg (x :: ·) ih

theorem filter_not_first (xs : List Exchange) :
    (xs.map (Prod.mk true)).filter (fun c => !c.1) = [] := by
  refine List.filter_eq_nil_iff.mpr fun c hc => ?_
  obtain ⟨x, -, rfl⟩ := List.mem_map.mp hc
  exact Bool.false_ne_true

/-- The first exchange of a connection to port 443. -/
def Conn.handshake (c : Conn) : List Exchange := if c.port = 443 then c.exchanges.take 1 else []

/-- The other exchanges. -/
def Conn.requests (c : Conn) : List Exchange :=
  if c.port = 443 then c.exchanges.drop 1 else c.exchanges

/-- The number of a slot does not come back to zero. -/
def Conn.Fits (c : Conn) : Prop := c.port = 443 → c.exchanges.length ≤ 2 ^ 32

theorem Conn.counted_eq {c : Conn} (h : c.Fits) :
    c.counted = c.handshake.map (Prod.mk true) ++ c.requests.map (Prod.mk false) := by
  by_cases hport : c.port = 443
  · have hfits := h hport
    rw [Conn.counted, Conn.handshake, Conn.requests, if_pos hport, if_pos hport,
      decide_eq_true hport]
    cases hxs : c.exchanges with
    | nil => rfl
    | cons x xs =>
      rw [hxs, List.length_cons] at hfits
      have hone : (0 + 1 : UInt32).toNat = 1 := rfl
      rw [labelled, labelled_later (by rw [hone]; decide) (by rw [hone]; omega)]
      rfl
  · rw [Conn.counted, Conn.handshake, Conn.requests, if_neg hport, if_neg hport,
      decide_eq_false hport, labelled_plain]
    rfl

theorem between_zero {calls : List Call} (h : Ended calls) : Between Process.zero calls where
  clean := fun _ _ => rfl
  ended := h
  free := by
    intro fd _ hsock
    cases hsock

theorem pending_zero (calls : List Call) : pending Process.zero calls = [] :=
  List.flatMap_eq_nil_iff.mpr fun _ _ => rfl

/-- **What is dumped.** -/
theorem aggs_run {calls : List Call} (h : Ended calls) : (closeAll (run calls)).aggs =
    tally (Agg.zero, Agg.zero) (coming calls) := by
  rw [run, tally_run (between_zero h), pending_zero, List.nil_append]
  rfl

theorem hs_run {calls : List Call} (hended : Ended calls)
    (hfits : ∀ c ∈ connections calls, c.Fits) : (closeAll (run calls)).hs =
      aggregate (((connections calls).filter Conn.watched).flatMap Conn.handshake) := by
  rw [← aggs_fst, aggs_run hended, tally_fst, coming, List.filter_flatMap, List.map_flatMap]
  refine congrArg aggregate (List.flatMap_congr fun c hc => ?_)
  rw [Conn.counted_eq (hfits c (List.mem_of_mem_filter hc)), List.filter_append, filter_fst_plain,
    List.append_nil, filter_fst_first]

theorem req_run {calls : List Call} (hended : Ended calls)
    (hfits : ∀ c ∈ connections calls, c.Fits) : (closeAll (run calls)).req =
      aggregate (((connections calls).filter Conn.watched).flatMap Conn.requests) := by
  rw [← aggs_snd, aggs_run hended, tally_snd, coming, List.filter_flatMap, List.map_flatMap]
  refine congrArg aggregate (List.flatMap_congr fun c hc => ?_)
  rw [Conn.counted_eq (hfits c (List.mem_of_mem_filter hc)), List.filter_append, List.map_append,
    filter_not_plain, filter_not_first]
  rfl

end Netphase
