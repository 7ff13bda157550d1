import MiniosvCtrl.Infra.Marked
import MiniosvCtrl.Properties.OnRecord
import MiniosvCtrl.Server.External
import MiniosvCtrl.Server.Instance

/-!
# Whether the server on record serves

The instance prints its address once nginx has answered, and `start` takes the address from what
the console shows so far. The console is read while it grows, so a reading may end anywhere.

* `Machine.Serves`, `said_cases` — what the instance prints, and when
* `group1_console`, `group1_whole` — what a reading of its console shows
* `holds_run` — what is known of every record that is made is known of the one at the end
* `Fleet` — what runs on the instances of a run, and what EC2 says of them
* **`preflight_iff`** — when the check before a run lets it dial, after any commands
-/

namespace NginxStatic

open Infra Infra.Regex

variable {m : Machine} {line : String} {out : List String}

/-! ## What the instance prints -/

/-- nginx is started and answers a ranged GET with 206, and did not exit before. -/
structure Machine.Serves (m : Machine) : Prop where
  raises : ∀ c, c ≠ .shutdown → m.raises c = none
  fetch : m.fetch = .ok ()
  fallocate : m.fallocate = 0
  answered : ∃ n < 60, m.get n = some 206 ∧ ∀ k ≤ n, m.poll k = none

/-- The lines of an instance that does not serve, and the tracebacks. -/
inductive Machine.Fails (m : Machine) : String → Prop
  | raised {c : Call} {traceback : String} (h : m.raises c = some traceback) : Fails m traceback
  | fetch {e : String} (h : m.fetch = .error e) :
      Fails m ("SERVER FAILED: fetch " ++ m.url ++ ": " ++ e)
  | fallocate : Fails m ("SERVER FAILED: fallocate " ++ m.size ++ " " ++ m.blob)
  | exited (code : Int) : Fails m ("SERVER FAILED: nginx exited " ++ toString code)
  | silent : Fails m "SERVER FAILED: no 206 from nginx"

/-- The line for the driver and perhaps a traceback, or none of it. -/
def Machine.Says (m : Machine) (said : List String) : Prop :=
  (m.Serves ∧ ∃ rest, said = m.readyLine :: rest ∧ ∀ line ∈ rest, m.Fails line) ∨
    ∀ line ∈ said, m.Fails line

theorem Machine.Fails.alone (h : m.Fails line) : m.Says [line] :=
  Or.inr fun _ hmem => List.mem_singleton.mp hmem ▸ h

/-- One turn after the other. -/
theorem ready_cases (m : Machine) (n k : Nat) :
    (m.ready (List.range' n k) = .ok () ∧
      ∃ j, n ≤ j ∧ j < n + k ∧ m.get j = some 206 ∧ ∀ i, n ≤ i → i ≤ j → m.poll i = none) ∨
    ∃ line, m.ready (List.range' n k) = .error line ∧ m.Fails line := by
  induction k generalizing n with
  | zero => exact Or.inr ⟨_, rfl, .silent⟩
  | succ k ih =>
    rw [List.range'_succ]
    unfold Machine.ready
    cases hpoll : m.poll n with
    | some code => exact Or.inr ⟨_, rfl, .exited code⟩
    | none =>
      by_cases hget : m.get n = some 206
      · refine Or.inl ⟨if_pos hget, n, Nat.le_refl n, by omega, hget, fun i hle hge => ?_⟩
        obtain rfl : i = n := by omega
        exact hpoll
      · simp only [if_neg hget]
        rcases ih (n + 1) with ⟨hready, j, hj, hlt, h206, hpolls⟩ | hline
        · refine Or.inl ⟨hready, j, by omega, by omega, h206, fun i hle hge => ?_⟩
          by_cases hi : i = n
          · rw [hi]
            exact hpoll
          · exact hpolls i (by omega) hge
        · exact Or.inr hline

theorem call_ok {c : Call} (h : m.raises c = none) (out : List String) :
    call m c out = (.ok (), out) := by
  rw [call, h]

theorem call_error {c : Call} {t : String} (h : m.raises c = some t) (out : List String) :
    call m c out = (.error t, out) := by
  rw [call, h]

/-- A step that is not caught, with nothing printed before. -/
theorem call_says {c : Call} {f : Unit → Running Nat}
    (h : m.raises c = none → m.Says (printed (f () []))) :
    m.Says (printed ((call m c >>= f) [])) := by
  cases hraises : m.raises c with
  | none =>
    rw [Py.bind_ok (call_ok hraises [])]
    exact h hraises
  | some t =>
    rw [Py.bind_error (call_error hraises [])]
    exact (Machine.Fails.raised hraises).alone

theorem awaitNginx_says
    (hserves : (∃ n < 60, m.get n = some 206 ∧ ∀ k ≤ n, m.poll k = none) → m.Serves) :
    m.Says (printed (awaitNginx m [])) := by
  unfold awaitNginx
  rw [List.range_eq_range']
  rcases ready_cases m 0 60 with ⟨hready, j, -, hlt, hget, hpoll⟩ | ⟨line, hready, hline⟩
  · rw [hready]
    refine Or.inl ⟨hserves ⟨j, by omega, hget, fun k hk => hpoll k (Nat.zero_le k) hk⟩, ?_⟩
    have hsay : say m.readyLine [] = (.ok (), [m.readyLine]) := rfl
    simp only [Py.bind_ok hsay]
    by_cases hlocal : m.isLocal = true
    · rw [if_pos hlocal]
      exact ⟨[], rfl, fun _ h => absurd h List.not_mem_nil⟩
    · rw [if_neg hlocal]
      cases hraises : m.raises .shutdown with
      | none =>
        rw [Py.bind_ok (call_ok hraises _)]
        exact ⟨[], rfl, fun _ h => absurd h List.not_mem_nil⟩
      | some t =>
        rw [Py.bind_error (call_error hraises _)]
        exact ⟨[t], rfl, fun _ h => List.mem_singleton.mp h ▸ .raised hraises⟩
  · rw [hready]
    exact hline.alone

/-- **The line for the driver is printed only by an instance that serves.** -/
theorem said_cases (m : Machine) : m.Says m.said := by
  unfold Machine.said main
  refine call_says fun hmakedirs => ?_
  cases hfetch : m.fetch with
  | error e => exact (Machine.Fails.fetch hfetch).alone
  | ok _ =>
    refine call_says fun hchmod => call_says fun hfallocate => ?_
    by_cases hcode : m.fallocate ≠ 0
    · rw [if_pos hcode]
      exact Machine.Fails.fallocate.alone
    · rw [if_neg hcode]
      refine call_says fun hconfig => call_says fun hnginx => awaitNginx_says fun h => ?_
      refine ⟨fun c hc => ?_, hfetch, not_ne_iff.mp hcode, h⟩
      cases c with
      | shutdown => exact absurd rfl hc
      | makedirs => exact hmakedirs
      | chmod => exact hchmod
      | fallocate => exact hfallocate
      | config => exact hconfig
      | nginx => exact hnginx

/-! ## Where the word for the driver is -/

def mark : List Char := "SERVER READY ip=".toList

/-- The end of it. -/
def key : List Char := "ip=".toList

/-- The settings that are printed. -/
def Machine.settings (m : Machine) : List String :=
  [m.cfg "AWS_BUCKET" "", m.cfg "AWS_REGION" "", m.cfg "BENCH_BIN_PREFIX" "bin/nginx-static",
    m.cfg "BENCH_WWW" "/dev/shm/www", m.size, m.workers]

/-- Nothing but the line for the driver has the word, and nothing in that line has its end. -/
structure Quiet (m : Machine) (b : Machine.Boot) : Prop where
  before : Clear mark b.before
  after : Free mark b.after
  settings : ∀ t ∈ m.settings, Free key t.toList
  metadata : ∀ path ∈ ["local-ipv4", "instance-type"], ∀ t, m.metadata path = some t →
    Free key t.toList
  release : Free key m.release.toList
  fetch : ∀ e, m.fetch = .error e → Free mark e.toList
  raises : ∀ c t, m.raises c = some t → Free mark t.toList

/-- A literal that keeps a word out of a text before it. -/
def parts (s : List Char) : List Char → Bool
  | [] => false
  | c :: l => !s.contains c && clears s l

section Words

variable {s a b l : List Char}

theorem free_ahead (hl : clears s l = true) (hb : Free s b) : Free s (l ++ b) :=
  free_append (clear_of_clears hl) hb

theorem free_literal (hl : clears s l = true) (hs : s ≠ []) : Free s l :=
  (clear_of_clears hl).free hs

theorem free_between (hl : parts s l = true) (ha : Free s a) (hb : Free s b) :
    Free s (a ++ (l ++ b)) := by
  cases l with
  | nil => cases hl
  | cons c l =>
    rw [parts, Bool.and_eq_true, Bool.not_eq_true', List.contains_eq_mem,
      decide_eq_false_iff_not] at hl
    exact free_append_cons hl.1 ha (free_ahead hl.2 hb)

theorem free_behind (hl : parts s l = true) (ha : Free s a) (hs : s ≠ []) : Free s (a ++ l) := by
  have hnil : Free s [] := fun h => hs (List.infix_nil.mp h)
  have := free_between hl ha hnil
  rwa [List.append_nil] at this

theorem free_mark (h : Free key a) : Free mark a :=
  h.extend ⟨"SERVER READY ".toList, [], by decide⟩

theorem free_lines {lines : List String} (h : ∀ line ∈ lines, Free mark line.toList)
    (hb : Free mark b) : Free mark (lines.flatMap (fun line => line.toList ++ ['\n']) ++ b) := by
  induction lines with
  | nil => exact hb
  | cons line lines ih =>
    rw [List.flatMap_cons, List.append_assoc, List.append_assoc]
    exact free_append_cons (by decide) (h line List.mem_cons_self)
      (ih fun x hx => h x (List.mem_cons_of_mem _ hx))

theorem not_mem_toDigits {c : Char} (hc : c.isDigit = false) (n : Nat) :
    c ∉ Nat.toDigits 10 n := fun h => by
  rw [Builtins.isDigit_of_mem_toDigits h] at hc
  cases hc

theorem not_mem_toString (code : Int) : 'S' ∉ (toString code).toList := by
  cases code with
  | ofNat n =>
    have hlist : (toString (Int.ofNat n)).toList = Nat.toDigits 10 n := String.toList_ofList
    rw [hlist]
    exact not_mem_toDigits rfl n
  | negSucc n =>
    have hlist : (toString (Int.negSucc n)).toList = '-' :: Nat.toDigits 10 (n + 1) := by
      show ("-" ++ Nat.repr (n + 1)).toList = _
      rw [String.toList_append]
      exact congrArg ('-' :: ·) String.toList_ofList
    rw [hlist]
    exact List.not_mem_cons_of_ne_of_not_mem (by decide) (not_mem_toDigits rfl (n + 1))

end Words

namespace Quiet

variable {b : Machine.Boot} (hq : Quiet m b)

include hq

theorem free_settings :
    Free key (m.cfg "AWS_BUCKET" "").toList ∧ Free key (m.cfg "AWS_REGION" "").toList ∧
      Free key (m.cfg "BENCH_BIN_PREFIX" "bin/nginx-static").toList ∧
      Free key (m.cfg "BENCH_WWW" "/dev/shm/www").toList ∧
      Free key m.size.toList ∧ Free key m.workers.toList := by
  simpa [Machine.settings] using hq.settings

theorem free_url : Free key m.url.toList := by
  obtain ⟨hbucket, hregion, hprefix, -⟩ := hq.free_settings
  simp only [Machine.url, Machine.endpoint, String.toList_append, List.append_assoc]
  exact free_ahead (by decide) (free_between (by decide) hbucket
    (free_between (by decide) hregion (free_ahead (by decide)
      (free_behind (by decide) hprefix (by decide)))))

theorem free_blob : Free key m.blob.toList := by
  obtain ⟨-, -, -, hwww, -⟩ := hq.free_settings
  unfold Machine.blob
  generalize m.cfg "BENCH_WWW" "/dev/shm/www" = www at hwww
  dsimp only
  split
  · rename_i h
    rw [String.toList_append]
    rcases h with rfl | hlast
    · exact free_literal (by decide) (by decide)
    · obtain ⟨front, hfront⟩ := List.getLast?_eq_some_iff.mp hlast
      rw [hfront, List.append_assoc]
      exact free_behind (l := ['/'] ++ "blob.bin".toList) (by decide)
        (hwww.part (hfront ▸ (List.prefix_append front ['/']).isInfix)) (by decide)
  · rw [String.toList_append]
    exact free_behind (by decide) hwww (by decide)

theorem free_fails (h : m.Fails line) : Free mark line.toList := by
  cases h with
  | raised h => exact hq.raises _ _ h
  | fetch h =>
    simp only [String.toList_append, List.append_assoc]
    exact free_ahead (by decide)
      (free_between (by decide) (free_mark hq.free_url) (hq.fetch _ h))
  | fallocate =>
    obtain ⟨-, -, -, -, hsize, -⟩ := hq.free_settings
    simp only [String.toList_append, List.append_assoc]
    exact free_ahead (by decide) (free_mark
      (free_between (by decide) hsize hq.free_blob))
  | exited code =>
    rw [String.toList_append]
    exact free_ahead (by decide)
      (free_of_not_mem (by decide) (not_mem_toString code))
  | silent => exact free_literal (by decide) (by decide)

theorem free_known {path : String} (hpath : path ∈ ["local-ipv4", "instance-type"]) :
    Free key (m.known path).toList := by
  unfold Machine.known
  split
  · exact free_literal (by decide) (by decide)
  · rename_i hne
    unfold Machine.imds at hne ⊢
    cases htoken : m.token path with
    | none => exact absurd (by rw [htoken]; rfl) hne
    | some token =>
      cases hmeta : m.metadata path with
      | none => exact absurd (by rw [htoken, Option.bind_some, hmeta]; rfl) hne
      | some t =>
        exact hq.metadata path hpath t hmeta

omit hq in
theorem free_nproc : Free key m.nproc.toList := by
  unfold Machine.nproc
  cases m.cpuCount with
  | none => exact free_literal (by decide) (by decide)
  | some n =>
    have hlist : (toString n).toList = Nat.toDigits 10 n := String.toList_ofList
    show Free key (toString n).toList
    rw [hlist]
    exact free_of_not_mem (c := 'i') (by decide) (not_mem_toDigits rfl n)

end Quiet

/-- The line for the driver, behind the address. -/
def Machine.restLine (m : Machine) : List Char :=
  " object=".toList ++ (m.size.toList ++ (" workers=".toList ++ (m.workers.toList ++
    (" nproc=".toList ++ (m.nproc.toList ++ (" type=".toList ++
      ((m.known "instance-type").toList ++ (" kernel=".toList ++ m.release.toList))))))))

theorem toList_readyLine (m : Machine) :
    m.readyLine.toList = mark ++ ((m.known "local-ipv4").toList ++ m.restLine) := by
  unfold Machine.readyLine Machine.restLine mark
  repeat rw [String.toList_append]
  repeat rw [List.append_assoc]

theorem Quiet.free_restLine {b : Machine.Boot} (hq : Quiet m b) :
    Free key ((m.known "local-ipv4").toList ++ m.restLine) := by
  obtain ⟨-, -, -, -, hsize, hworkers⟩ := hq.free_settings
  unfold Machine.restLine
  exact free_between (by decide) (hq.free_known (by decide))
    (free_between (by decide) hsize (free_between (by decide) hworkers
    (free_between (by decide) Quiet.free_nproc
    (free_between (by decide) (hq.free_known (by decide)) hq.release))))

/-! ## What a reading of the console shows -/

section Readings

variable {B : Builtins} {b : Machine.Boot} {t ip : List Char}

open NginxServer (serverReady)

theorem Quiet.console_fails (hq : Quiet m b) (h : ∀ line ∈ m.said, m.Fails line) :
    Free mark (m.console b) :=
  free_append hq.before (free_lines (fun line hline => hq.free_fails (h line hline)) hq.after)

theorem Quiet.console_serves (hq : Quiet m b) {rest : List String}
    (hsaid : m.said = m.readyLine :: rest) (h : ∀ line ∈ rest, m.Fails line) :
    ∃ u, m.console b = b.before ++ (mark ++ ((m.known "local-ipv4").toList ++ ' ' :: u)) ∧
      Free mark ((m.known "local-ipv4").toList ++ ' ' :: u) := by
  have hlines := free_lines (fun line hline => hq.free_fails (h line hline)) hq.after
  have hfree := free_append_cons (c := '\n') (by decide) (free_mark hq.free_restLine) hlines
  refine ⟨m.restLine.tail ++ '\n' ::
    (rest.flatMap (fun line => line.toList ++ ['\n']) ++ b.after), ?_, ?_⟩
  · rw [Machine.console, Machine.output, hsaid, List.flatMap_cons, toList_readyLine]
    simp only [List.append_assoc]
    rfl
  · rw [List.append_assoc] at hfree
    exact hfree

theorem digitOrPoint_letter {c : Char} (h : c.toNat < 128) (hdigit : c.isDigit = false)
    (hpoint : c ≠ '.') : B.digitOrPoint c = false := by
  rw [Builtins.digitOrPoint, B.digit_ascii h, hdigit, Bool.false_or]
  exact beq_eq_false_iff_ne.mpr hpoint

/-- A reading with an address is one of an instance that serves, and has a run of what follows. -/
theorem reading_of_group1 (hq : Quiet m b) (ht : t <+: m.console b)
    (h : (serverReady B).group1 t = some ip) :
    m.Serves ∧ ∃ u, lead B.digitOrPoint (((m.imds "local-ipv4").toList ++ ' ' :: u).take
      (t.length - (b.before ++ mark).length)) = some ip := by
  have hpattern : serverReady B = marked mark B.digitOrPoint := rfl
  rw [hpattern] at h
  rcases said_cases m with ⟨hserves, rest, hsaid, hrest⟩ | hfails
  · obtain ⟨u, hconsole, hfree⟩ := hq.console_serves hsaid hrest
    rw [hconsole] at ht
    rw [group1_reading (by decide) (clear_of_clears (by decide)) hq.before hfree ht] at h
    refine ⟨hserves, u, ?_⟩
    unfold Machine.known at h
    split at h
    · -- `unknown` does not begin like an address
      obtain ⟨hne, hpre, hall⟩ :=
        prefix_of_lead (digitOrPoint_letter (by decide) rfl (by decide)) h
      obtain ⟨c, ip, rfl⟩ := List.exists_cons_of_ne_nil hne
      obtain rfl : c = 'u' := (List.cons_prefix_cons.mp hpre).1
      have hu := hall 'u' List.mem_cons_self
      rw [digitOrPoint_letter (by decide) rfl (by decide)] at hu
      cases hu
    · exact h
  · have hnone : (marked mark B.digitOrPoint).group1 t = none := by
      refine group1_unmarked fun x c rest he => ?_
      have hin : mark <:+: t := ⟨x, c :: rest, he.symm⟩
      exact absurd (hin.trans ht.isInfix) (hq.console_fails hfails)
    rw [hnone] at h
    cases h

/-- **What a reading shows as an address is a part of the address of an instance that serves.** -/
theorem group1_console (hq : Quiet m b) (ht : t <+: m.console b)
    (h : (serverReady B).group1 t = some ip) :
    m.Serves ∧ ip ≠ [] ∧ ip <+: (m.imds "local-ipv4").toList := by
  obtain ⟨hserves, u, hlead⟩ := reading_of_group1 hq ht h
  obtain ⟨hne, hpre, -⟩ := prefix_of_lead (digitOrPoint_letter (by decide) rfl (by decide)) hlead
  exact ⟨hserves, hne, hpre⟩

/-- The reading ends inside the address. -/
def Machine.Cuts (m : Machine) (b : Machine.Boot) (t : List Char) : Prop :=
  (b.before ++ mark).length < t.length ∧
    t.length < (b.before ++ mark).length + (m.imds "local-ipv4").toList.length

theorem group1_whole (hq : Quiet m b) (ht : t <+: m.console b)
    (haddress : ∀ c ∈ (m.imds "local-ipv4").toList, c.isDigit = true ∨ c = '.')
    (hcut : ¬ m.Cuts b t) (h : (serverReady B).group1 t = some ip) :
    ip = (m.imds "local-ipv4").toList := by
  obtain ⟨-, u, hlead⟩ := reading_of_group1 hq ht h
  have hend : B.digitOrPoint ' ' = false := digitOrPoint_letter (by decide) rfl (by decide)
  obtain ⟨hne, hpre, -⟩ := prefix_of_lead hend hlead
  have hall : ∀ c ∈ (m.imds "local-ipv4").toList, B.digitOrPoint c = true := by
    intro c hc
    rcases haddress c hc with hdigit | rfl
    · rw [Builtins.digitOrPoint, B.digit_of_isDigit hdigit, Bool.true_or]
    · exact Bool.or_true _
  have hshown : (b.before ++ mark).length < t.length := by
    by_contra hle
    rw [Nat.sub_eq_zero_of_le (Nat.le_of_not_lt hle), List.take_zero] at hlead
    cases hlead
  have hlength : (m.imds "local-ipv4").toList.length ≤ t.length - (b.before ++ mark).length := by
    have := not_and.mp hcut hshown
    omega
  have hsome : (m.imds "local-ipv4").toList ≠ [] := fun hnil =>
    hne (List.prefix_nil.mp (hnil ▸ hpre))
  rw [lead_whole hall hend hsome hlength] at hlead
  exact (Option.some_inj.mp hlead).symm

end Readings

end NginxStatic

namespace NginxServer

open Infra Ec2
open NginxStatic (Machine Quiet free_literal group1_console group1_whole)

variable {B : Builtins} {w w' : World} {r : Replies} {e : Event} {l : List Event}
  {t ip : List Char} {s : Record}

/-! ## What `start` reads -/

theorem text_of_reading {P : List Char → Prop}
    (hr : ∀ n t, r.console n = .ok (some t) → P t) (ht : P t) (n : Nat) : P (r.text n t) := by
  unfold Replies.text
  cases hreply : r.console n with
  | error _ => exact if_neg (Nat.not_lt_zero _) ▸ ht
  | ok out =>
    cases out with
    | none => exact if_neg (Nat.not_lt_zero _) ▸ ht
    | some got =>
      show P (if t.length < got.length then got else t)
      split
      · exact hr n got hreply
      · exact ht

/-- The address comes from a reading. -/
theorem awaitReady_reads {P : List Char → Prop} (hr : ∀ n t, r.console n = .ok (some t) → P t)
    {n now : Nat} (ht : P t) (h : awaitReady B r n now t = some ip) :
    ∃ t', P t' ∧ (serverReady B).group1 t' = some ip := by
  induction hk : readyS - now using Nat.strongRecOn generalizing n now t with
  | ind k ih =>
    have htext := text_of_reading hr ht n
    rw [awaitReady] at h
    split at h
    · rename_i hnow
      cases hfound : (serverReady B).group1 (r.text n t) with
      | some ip' =>
        simp only [hfound, Option.some.injEq] at h
        exact ⟨_, htext, h ▸ hfound⟩
      | none =>
        simp only [hfound] at h
        split at h
        · cases h
        · exact ih (readyS - (now + 10 + r.turn n)) (by omega) htext h rfl
    · cases h

theorem terminated_record (w : World) (r : Replies) (i : InstanceId) :
    (w.terminated r i).record = w.record := by
  unfold World.terminated
  split <;> rfl

theorem terminated_launched (w : World) (r : Replies) (i : InstanceId) :
    (w.terminated r i).launched = w.launched := by
  unfold World.terminated
  split <;> rfl

/-- What is known of every record that a `start` makes. -/
def Event.Records (B : Builtins) (e : Event) (Q : Record → Prop) : Prop :=
  ∀ a i zone ip, e.command = .start a → e.replies.launched = some (i, zone) →
    awaitReady B e.replies 0 0 [] = some ip → Q (recordOf a i zone ip)

/-- What is on record. -/
def World.Holds (w : World) (Q : Record → Prop) : Prop :=
  ∀ s, w.record = some s → s.iid ∈ w.launched ∧ Q s

/-- A record stays until another one is made or it is removed. -/
theorem holds_step {Q : Record → Prop} (hw : w.Holds Q) (hstart : e.Records B Q)
    (h : Step B w e w') : w'.Holds Q := by
  obtain ⟨-, rfl⟩ := h
  obtain ⟨command, r⟩ := e
  intro s hs
  cases command with
  | status => exact hw s hs
  | start a =>
    change (cmdStart B a r w).2.record = some s at hs
    show s.iid ∈ (cmdStart B a r w).2.launched ∧ Q s
    by_cases hidle : (w.record.isSome && r.live) = true ∨ r.launched = none
    · rw [cmdStart_idle hidle] at hs ⊢
      exact hw s hs
    obtain ⟨hlive, hnone⟩ := not_or.mp hidle
    obtain ⟨⟨i, zone⟩, hlaunched⟩ := Option.ne_none_iff_exists'.mp hnone
    have hlive := Bool.eq_false_iff.mpr hlive
    cases hready : awaitReady B r 0 0 [] with
    | some ip =>
      rw [cmdStart_ready hlive hlaunched hready] at hs ⊢
      obtain rfl := Option.some_inj.mp hs
      exact ⟨List.mem_cons_self, hstart a i zone ip rfl hlaunched hready⟩
    | none =>
      rw [cmdStart_unready hlive hlaunched hready] at hs ⊢
      rw [terminated_record] at hs
      rw [terminated_launched]
      exact ⟨List.mem_cons_of_mem i (hw s hs).1, (hw s hs).2⟩
  | stop =>
    change (cmdStop r w).2.record = some s at hs
    show s.iid ∈ (cmdStop r w).2.launched ∧ Q s
    cases hrecord : w.record with
    | none =>
      rw [cmdStop_none hrecord] at hs ⊢
      exact hw s hs
    | some old =>
      by_cases hraises : r.Raises
      · rw [cmdStop_raises hrecord hraises] at hs ⊢
        rw [terminated_record] at hs
        rw [terminated_launched]
        exact hw s hs
      · rw [cmdStop_returns hrecord hraises] at hs
        cases hs

theorem holds_run {Q : Record → Prop} (h : Run (Step B) (World.init none) l w)
    (hstart : ∀ e ∈ l, e.Records B Q) : w.Holds Q := by
  induction h with
  | nil =>
    intro s hs
    cases hs
  | snoc _ hstep ih =>
    refine holds_step (ih fun e he => hstart e (List.mem_append_left _ he)) ?_ hstep
    exact hstart _ (List.mem_append_right _ List.mem_cons_self)

/-! ## The server on record -/

/-- What the instances run, what is on their consoles beside it, and where they are. -/
structure Fleet where
  machine : InstanceId → Machine
  boot : InstanceId → Machine.Boot
  zone : InstanceId → Zone
  quiet : ∀ i, Quiet (machine i) (boot i)
  zone_ne : ∀ i, zone i ≠ ""
  /-- Addresses are of version 4. -/
  digits : ∀ i, ∀ c ∈ ((machine i).imds "local-ipv4").toList, c.isDigit = true ∨ c = '.'

namespace Fleet

variable (f : Fleet)

def console (i : InstanceId) : List Char := (f.machine i).console (f.boot i)

/-- The address, as the instance's metadata has it. -/
def address (i : InstanceId) : List Char := ((f.machine i).imds "local-ipv4").toList

/-- EC2 says where it launched an instance, and reads its console up to some point. -/
def Answers (e : Event) : Prop :=
  ∀ i zone, e.replies.launched = some (i, zone) → zone = f.zone i ∧
    ∀ n t, e.replies.console n = .ok (some t) → t <+: f.console i

/-- No reading ends inside the address. -/
def Whole (e : Event) : Prop :=
  ∀ i zone n t, e.replies.launched = some (i, zone) → e.replies.console n = .ok (some t) →
    ¬ (f.machine i).Cuts (f.boot i) t

/-- EC2 describes the instances as they are. -/
def Describes (describe : InstanceId → Except Fault Described) : Prop :=
  ∀ i d, describe i = .ok d → d.zone = f.zone i ∧
    (f.address i ≠ [] → d.privateIpAddress = some (f.address i))

/-- A server that serves, with its zone and with its address or a beginning of it. -/
structure Checked (s : Record) : Prop where
  serves : (f.machine s.iid).Serves
  zone : s.zone = f.zone s.iid
  ip_ne : s.ip ≠ []
  ip : s.ip <+: f.address s.iid

variable {f}

theorem records_checked (h : f.Answers e) : e.Records B f.Checked := by
  intro a i zone ip _ hlaunched hready
  obtain ⟨hzone, hconsole⟩ := h i zone hlaunched
  obtain ⟨t, ht, hfound⟩ := awaitReady_reads hconsole List.nil_prefix hready
  obtain ⟨hserves, hne, hpre⟩ := group1_console (f.quiet i) ht hfound
  exact ⟨hserves, hzone, hne, hpre⟩

theorem records_whole (h : f.Answers e) (hwhole : f.Whole e) :
    e.Records B fun s => s.ip = f.address s.iid := by
  intro a i zone ip _ hlaunched hready
  obtain ⟨-, hconsole⟩ := h i zone hlaunched
  have hreadings : ∀ n t, e.replies.console n = .ok (some t) →
      t <+: f.console i ∧ ¬ (f.machine i).Cuts (f.boot i) t :=
    fun n t ht => ⟨hconsole n t ht, hwhole i zone n t hlaunched ht⟩
  have hnothing : ¬ (f.machine i).Cuts (f.boot i) [] := fun hcut => Nat.not_lt_zero _ hcut.1
  obtain ⟨t, ⟨ht, hcut⟩, hfound⟩ :=
    awaitReady_reads hreadings ⟨List.nil_prefix, hnothing⟩ hready
  exact group1_whole (f.quiet i) ht (f.digits i) hcut hfound

end Fleet

variable {f : Fleet}

/-! ## The check before a run -/

variable {describe : InstanceId → Except Fault Described} {target : List Char}
  {zone : Option Zone}

/-- A check against a record that is right. -/
theorem verifyExternal_iff {isPrivate : List Char → Option Bool} (hs : f.Checked s)
    (hd : f.Describes describe) (htarget : isPrivate target = some true) (hne : target ≠ []) :
    verifyExternal isPrivate describe target zone (some s) = .ok () ↔
      zone = some s.zone ∧ target = f.address s.iid ∧
        ∃ d, describe s.iid = .ok d ∧ d.state = "running" := by
  have haddress : f.address s.iid ≠ [] := fun hnil =>
    hs.ip_ne (List.prefix_nil.mp (hnil ▸ hs.ip))
  simp only [verifyExternal, if_neg hne, htarget]
  cases hdescribe : describe s.iid with
  | error _ => simp
  | ok d =>
    obtain ⟨hzone, hip⟩ := hd s.iid d hdescribe
    have hip := hip haddress
    have hblank : s.zone ≠ "" := hs.zone ▸ f.zone_ne s.iid
    simp only [hip, Except.ok.injEq, exists_eq_left', hzone, ← hs.zone]
    by_cases hstate : d.state = "running"
    swap
    · simp [hstate]
    by_cases hsame : f.address s.iid = target
    swap
    · simp [hstate, hsame, Ne.symm hsame]
    cases zone with
    | none => simp [hstate, hsame]
    | some z =>
      by_cases hz : z = s.zone
      · simp [hstate, hsame, hz, hblank]
      · by_cases hempty : z = ""
        · simp [hstate, hsame, hempty, Ne.symm hblank]
        · simp [hstate, hsame, hz, hempty]

/--
**Whatever commands came before, the server on record serves and its recorded address is a
beginning of its own, and the whole of it unless a reading ended inside it. The check lets a private
address be dialled exactly if it is the whole address of that server, which is running, in its
zone.**
-/
theorem preflight_iff (isPrivate : List Char → Option Bool)
    (h : Run (Step B) (World.init none) l w) (hanswers : ∀ e ∈ l, f.Answers e)
    (hd : f.Describes describe) :
    (∀ s, w.record = some s → s.iid ∈ w.launched ∧ f.Checked s) ∧
    ((∀ e ∈ l, f.Whole e) → ∀ s, w.record = some s → s.ip = f.address s.iid) ∧
    ∀ target zone, isPrivate target = some true → target ≠ [] →
      (verifyExternal isPrivate describe target zone w.record = .ok () ↔
        ∃ s, w.record = some s ∧ zone = some s.zone ∧ target = f.address s.iid ∧
          ∃ d, describe s.iid = .ok d ∧ d.state = "running") := by
  have hchecked := holds_run h fun e he => Fleet.records_checked (hanswers e he)
  refine ⟨hchecked, fun hwhole s hs => ?_, fun target zone htarget hne => ?_⟩
  · have hall := holds_run h fun e he => Fleet.records_whole (hanswers e he) (hwhole e he)
    exact (hall s hs).2
  · cases hrecord : w.record with
    | none => simp [verifyExternal, hne, htarget]
    | some s =>
      rw [verifyExternal_iff (hchecked s hrecord).2 hd htarget hne]
      simp

/-- One that has all its settings by default. -/
def plainMachine : Machine :=
  { cfg := fun _ default => default
    raises := fun _ => none
    fetch := .ok ()
    fallocate := 0
    poll := fun _ => none
    get := fun _ => some 206
    token := fun _ => some "token"
    metadata := fun _ => some "10.0.0.1"
    cpuCount := some 128
    release := "6.1" }

theorem quiet_plainMachine : Quiet plainMachine ⟨[], []⟩ where
  before := Regex.Clear.nil
  after := fun h => absurd (List.infix_nil.mp h) (by decide)
  settings := by
    have hall : plainMachine.settings.all (fun t => Regex.clears NginxStatic.key t.toList) =
      true := by decide
    intro t ht
    exact free_literal (List.all_eq_true.mp hall t ht) (by decide)
  metadata := by
    rintro path - t ht
    obtain rfl := Option.some_inj.mp ht
    exact free_literal (by decide) (by decide)
  release := free_literal (by decide) (by decide)
  fetch := nofun
  raises := nofun

theorem digits_plainMachine :
    ∀ c ∈ (plainMachine.imds "local-ipv4").toList, c.isDigit = true ∨ c = '.' := by
  have hall : "10.0.0.1".toList.all (fun c => c.isDigit || c == '.') = true := by decide
  intro c hc
  simpa using List.all_eq_true.mp hall c hc

def oneServer : Fleet :=
  { machine := fun _ => plainMachine
    boot := fun _ => ⟨[], []⟩
    zone := fun _ => "a"
    quiet := fun _ => quiet_plainMachine
    zone_ne := fun _ => by decide
    digits := fun _ => digits_plainMachine }

theorem answers_oneServer (a : Args) :
    oneServer.Answers ⟨.start a, answering (.ok (7, "a")) (.ok ())⟩ := by
  intro i zone h
  obtain ⟨-, rfl⟩ := Prod.mk.inj (Option.some_inj.mp h)
  refine ⟨rfl, fun n t ht => ?_⟩
  obtain rfl := Option.some_inj.mp (Except.ok.inj ht)
  have hsaid : plainMachine.said = plainMachine.readyLine :: [] := rfl
  obtain ⟨u, hconsole, -⟩ :=
    quiet_plainMachine.console_serves hsaid fun _ h => absurd h List.not_mem_nil
  exact ⟨' ' :: u, by rw [Fleet.console]; exact hconsole.symm⟩

def oneDescribed : Described :=
  { state := "running", privateIpAddress := some "10.0.0.1".toList, zone := "a" }

/-- After a `start`, its server may be dialled at the address that was recorded. -/
theorem preflight_iff_start : ∃ (w : World) (s : Record), w.record = some s ∧
    oneServer.Checked s ∧
    verifyExternal (fun _ => some true) (fun _ => .ok oneDescribed) s.ip (some s.zone) w.record =
      .ok () := by
  have h := run_start ⟨"r6in.32xlarge", "50G"⟩
  have hanswers : ∀ e ∈ [⟨.start ⟨"r6in.32xlarge", "50G"⟩, answering (.ok (7, "a")) (.ok ())⟩],
      oneServer.Answers e := fun e he => List.mem_singleton.mp he ▸ answers_oneServer _
  have hd : oneServer.Describes fun _ => .ok oneDescribed := by
    intro i d hdescribe
    obtain rfl := Except.ok.inj hdescribe
    exact ⟨rfl, fun _ => rfl⟩
  obtain ⟨hchecked, -, hiff⟩ := preflight_iff (fun _ => some true) h hanswers hd
  exact ⟨_, _, rfl, (hchecked _ rfl).2,
    (hiff _ _ rfl (by decide)).mpr ⟨_, rfl, rfl, rfl, _, rfl, rfl⟩⟩

end NginxServer
