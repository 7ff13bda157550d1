import MiniosvCtrl.Infra.Run
import MiniosvCtrl.Runner.Spot

/-!
# Which spot requests are cancelled

`terminate` says why the order matters: cancelling a request does not stop its instance. So a
cancelled request's instance must be gone, or named by a `terminate_instances` that succeeded.

* `terminate_cancels` / `sweepSpotRequests_cancels` — what each function cancels, exactly
* `apply_good_iff` — one call keeps the property exactly when `Op.Careful` holds of it
* `cancels_safe_iff` — the same for every sequence of calls

The two ways to lose it are the two places where a refused call is read as good news: a
`terminate_instances` refused as a whole, after which the requests are still listed and
cancelled, and a refused `describe_instances`, read as "instance forgotten entirely".
-/

namespace Runner

open Ec2 Infra

/-- The instance is gone or was named by a successful `terminate_instances`. -/
def Released (a : Account) (named : List InstanceId) (i : InstanceId) : Prop :=
  a.Gone i ∨ i ∈ named

/-- Every cancelled request's instance is released. -/
def CancelCall.Safe (c : CancelCall) : Prop :=
  ∀ r ∈ c.account.requests, r.id ∈ c.requests → ∃ i, r.instanceId = some i ∧
    Released c.account c.named i

/-- No cancel so far hit the request of a live instance. -/
def CancelsSafe (w : World) : Prop :=
  ∀ c ∈ w.cancels, CancelCall.Safe c

variable {faults : Nat → Option ClientError}

/-! ## `terminate` -/

/-- `terminate_instances` is refused: EC2 refuses the call, or one of the ids is unknown. -/
def TerminateRefused (faults : Nat → Option ClientError) (ids : List InstanceId) (w : World) :
    Prop :=
  (faults w.calls).isSome ∨ ∃ i ∈ ids, w.account.instances i = none

/--
A refused `terminate_instances` is followed by a refused listing, or by one that shows no
request of an instance that is not released.
-/
def TerminateCareful (faults : Nat → Option ClientError) (ids : List InstanceId) (w : World) :
    Prop :=
  TerminateRefused faults ids w → faults (w.calls + 1) = none →
    ∀ r ∈ w.account.requests, r.holds = true → ∀ i ∈ ids, r.instanceId = some i →
      Released w.account w.named i

theorem terminateInstances_cases (ids : List InstanceId) (w : World) :
    (TerminateRefused faults ids w ∧ (terminateInstances faults ids w).2 = w.tick) ∨
    (¬ TerminateRefused faults ids w ∧ (terminateInstances faults ids w).2
      = { w.tick with account := w.account.shutDown ids, named := ids ++ w.named }) := by
  unfold terminateInstances TerminateRefused
  cases hf : faults w.calls with
  | some e => exact Or.inl ⟨Or.inl rfl, rfl⟩
  | none =>
    by_cases hany : ids.any (fun i => (w.account.instances i).isNone) = true
    · refine Or.inl ⟨Or.inr ?_, by simp [hany]⟩
      simpa [Option.isNone_iff_eq_none] using hany
    · refine Or.inr ⟨?_, by simp [hany]⟩
      simpa [Option.isNone_iff_eq_none] using hany

/-- The ids `terminate` cancels after `terminate_instances` left the account as in `w`. -/
def sirsOf (ids : List InstanceId) (w : World) : List RequestId :=
  ((w.account.requests.filter (fun r => r.instanceId.any (fun i => decide (i ∈ ids)))).filter
    SpotRequest.holds).map SpotRequest.id

theorem mem_sirsOf {ids : List InstanceId} {w : World} {r : SpotRequest}
    (hr : r ∈ w.account.requests) :
    r.id ∈ sirsOf ids w ↔ r.holds = true ∧ ∃ i ∈ ids, r.instanceId = some i := by
  unfold sirsOf
  simp only [List.mem_map, List.mem_filter]
  constructor
  · rintro ⟨r', ⟨⟨hr', hi⟩, hh⟩, hid⟩
    have heq : r' = r := List.inj_on_of_nodup_map w.account.requests_nodup hr' hr hid
    subst heq
    refine ⟨hh, ?_⟩
    cases hx : r'.instanceId with
    | none => simp [hx] at hi
    | some i => exact ⟨i, by simpa [hx] using hi, rfl⟩
  · rintro ⟨hh, i, hi, hri⟩
    exact ⟨r, ⟨⟨hr, by simp [hri, hi]⟩, hh⟩, rfl⟩

/-- What `terminateAll` adds to the cancels. -/
theorem terminateAll_cancels (ids : List InstanceId) (w : World) :
    (terminateAll faults ids w).cancels = w.cancels ++
      (if faults (w.calls + 1) = none ∧ sirsOf ids (terminateInstances faults ids w).2 ≠ [] then
        [(terminateInstances faults ids w).2.cancelCall
          (sirsOf ids (terminateInstances faults ids w).2)] else []) := by
  have hw' : (terminateInstances faults ids w).2.calls = w.calls + 1 ∧
      (terminateInstances faults ids w).2.cancels = w.cancels := by
    rcases @terminateInstances_cases faults ids w with ⟨_, h⟩ | ⟨_, h⟩ <;>
      rw [h] <;> exact ⟨rfl, rfl⟩
  unfold terminateAll
  generalize (terminateInstances faults ids w).2 = w' at hw'
  obtain ⟨hcalls, hcancels⟩ := hw'
  simp only [describeSpotInstanceRequests, hcalls]
  cases hf : faults (w.calls + 1) with
  | some e => simp [hcancels]
  | none =>
    show (if sirsOf ids w' = [] then w'.tick
        else (cancelSpotInstanceRequests faults (sirsOf ids w') w'.tick).2).cancels = _
    by_cases hs : sirsOf ids w' = []
    · simp [hs, hcancels]
    · rw [if_neg hs, if_pos ⟨rfl, hs⟩, cancelSpotInstanceRequests_cancels, World.tick_cancels,
        hcancels]
      rfl

/-- The cancel of a `terminate` is safe exactly when the call was careful. -/
theorem terminateAll_issued_safe (ids : List InstanceId) (w : World)
    (hf : faults (w.calls + 1) = none) :
    CancelCall.Safe ((terminateInstances faults ids w).2.cancelCall
        (sirsOf ids (terminateInstances faults ids w).2)) ↔
      TerminateCareful faults ids w := by
  rcases @terminateInstances_cases faults ids w with ⟨href, h⟩ | ⟨hok, h⟩
  · rw [h]
    constructor
    · intro hsafe _ _ r hr hh i hi hri
      obtain ⟨j, hrj, hj⟩ := hsafe r hr ((mem_sirsOf hr).mpr ⟨hh, i, hi, hri⟩)
      rw [hri] at hrj
      cases hrj
      exact hj
    · intro hc r hr hid
      obtain ⟨hh, i, hi, hri⟩ := (mem_sirsOf (w := w) hr).mp hid
      exact ⟨i, hri, hc href hf r hr hh i hi hri⟩
  · rw [h]
    refine iff_of_true ?_ (fun href => absurd href hok)
    -- a successful `terminate_instances` named every instance whose request is cancelled
    intro r hr hid
    obtain ⟨_, i, hi, hri⟩ := (mem_sirsOf hr).mp hid
    exact ⟨i, hri, Or.inr (List.mem_append_left _ hi)⟩

/-- A cancel of nothing is safe. -/
theorem cancelCall_nil_safe (w : World) : CancelCall.Safe (w.cancelCall []) :=
  fun _ _ hid => absurd hid List.not_mem_nil

theorem terminateAll_good_iff (ids : List InstanceId) (w : World) :
    CancelsSafe (terminateAll faults ids w) ↔ CancelsSafe w ∧ TerminateCareful faults ids w := by
  unfold CancelsSafe
  rw [terminateAll_cancels ids w]
  by_cases hf : faults (w.calls + 1) = none
  · rw [← terminateAll_issued_safe ids w hf]
    by_cases hs : sirsOf ids (terminateInstances faults ids w).2 = []
    · simp [hf, hs, cancelCall_nil_safe]
    · rw [if_pos ⟨hf, hs⟩, List.forall_mem_append, List.forall_mem_singleton]
  · have hno : TerminateCareful faults ids w := fun _ hn => absurd hn hf
    simp [hf, hno]

/-! ## `sweep_spot_requests` -/

/-- The listed requests that show an instance: the ones `sweep_spot_requests` asks about. -/
def asked (reqs : List SpotRequest) : List SpotRequest :=
  reqs.filter (fun r => r.instanceId.isSome)

/--
No `describe_instances` is refused for an instance that is not released. The sweep asks about
the `k`-th listed request in call `k + 1` after the listing.
-/
def SweepCareful (faults : Nat → Option ClientError) (w : World) : Prop :=
  faults w.calls = none →
    ∀ (k : Nat) (r : SpotRequest) (i : InstanceId),
      (asked (w.account.requests.filter SpotRequest.holds))[k]? = some r →
      r.instanceId = some i → (faults (w.calls + 1 + k)).isSome →
      Released w.account w.named i

theorem describeInstance_cases (i : InstanceId) (w : World) :
    (∃ e, describeInstance faults i w = (.error e, w.tick) ∧
      ((faults w.calls).isSome ∨ w.account.instances i = none)) ∨
    (∃ st, describeInstance faults i w = (.ok st, w.tick) ∧ faults w.calls = none ∧
      w.account.instances i = some st) := by
  unfold describeInstance
  cases hf : faults w.calls with
  | some e => exact Or.inl ⟨e, rfl, Or.inl rfl⟩
  | none =>
    cases hi : w.account.instances i with
    | none => exact Or.inl ⟨notFound, rfl, Or.inr rfl⟩
    | some st => exact Or.inr ⟨st, rfl, rfl, rfl⟩

/--
What the loop finds: the ids whose `describe_instances` is refused or whose instance is gone.
Nothing but the call counter moves meanwhile.
-/
theorem staleRequests_spec : ∀ (reqs : List SpotRequest) (w : World),
    (staleRequests faults reqs w).2 = { w with calls := w.calls + (asked reqs).length } ∧
    ∀ x, x ∈ (staleRequests faults reqs w).1 ↔ ∃ (k : Nat) (r : SpotRequest) (i : InstanceId),
      (asked reqs)[k]? = some r ∧ r.id = x ∧ r.instanceId = some i ∧
      ((faults (w.calls + k)).isSome ∨ w.account.Gone i)
  | [], w => by simp [staleRequests, asked]
  | r :: rest, w => by
    cases hri : r.instanceId with
    | none =>
      have hasked : asked (r :: rest) = asked rest := by simp [asked, hri]
      rw [hasked, staleRequests, hri]
      exact staleRequests_spec rest w
    | some i =>
      have hasked : asked (r :: rest) = r :: asked rest := by simp [asked, hri]
      obtain ⟨hw, hmem⟩ := staleRequests_spec rest w.tick
      have hcalls : w.tick.calls + (asked rest).length = w.calls + (asked (r :: rest)).length := by
        rw [hasked, World.tick_calls, List.length_cons]
        omega
      have hrest : (staleRequests faults rest w.tick).2
          = { w with calls := w.calls + (asked (r :: rest)).length } := by
        rw [hw, hcalls]
        rfl
      -- the first request asked about is call `w.calls`, the `k + 1`-th is the rest's `k`-th
      have hsplit : ∀ x, (∃ (k : Nat) (q : SpotRequest) (j : InstanceId),
          (r :: asked rest)[k]? = some q ∧ q.id = x ∧ q.instanceId = some j ∧
          ((faults (w.calls + k)).isSome ∨ w.account.Gone j)) ↔
          (r.id = x ∧ ((faults w.calls).isSome ∨ w.account.Gone i)) ∨
            x ∈ (staleRequests faults rest w.tick).1 := by
        intro x
        rw [hmem x]
        constructor
        · rintro ⟨k, q, j, hk, hid, hj, hcase⟩
          cases k with
          | zero =>
            rw [List.getElem?_cons_zero, Option.some.injEq] at hk
            subst hk
            rw [hri, Option.some.injEq] at hj
            subst hj
            exact Or.inl ⟨hid, hcase⟩
          | succ k =>
            rw [List.getElem?_cons_succ] at hk
            refine Or.inr ⟨k, q, j, hk, hid, hj, ?_⟩
            rw [World.tick_calls, Nat.add_right_comm]
            exact hcase
        · rintro (⟨hid, hcase⟩ | ⟨k, q, j, hk, hid, hj, hcase⟩)
          · exact ⟨0, r, i, by simp, hid, hri, hcase⟩
          · refine ⟨k + 1, q, j, by simpa using hk, hid, hj, ?_⟩
            rw [World.tick_calls, Nat.add_right_comm] at hcase
            exact hcase
      rw [hasked] at hrest ⊢
      simp only [hsplit]
      rw [staleRequests, hri]
      rcases @describeInstance_cases faults i w with
        ⟨e, he, hbad⟩ | ⟨st, hst, hok, hinst⟩
      · have hcase : (faults w.calls).isSome ∨ w.account.Gone i := hbad.imp_right Or.inl
        simp only [he]
        refine ⟨hrest, fun x => ?_⟩
        rw [List.mem_cons]
        exact or_congr ⟨fun h => ⟨h.symm, hcase⟩, fun h => h.1.symm⟩ Iff.rfl
      · simp only [hst]
        by_cases hgone : st = .terminated ∨ st = .shuttingDown
        · have hcase : (faults w.calls).isSome ∨ w.account.Gone i := by
            rcases hgone with h | h <;> simp [Account.Gone, hinst, h]
          rw [if_pos hgone]
          refine ⟨hrest, fun x => ?_⟩
          rw [List.mem_cons]
          exact or_congr ⟨fun h => ⟨h.symm, hcase⟩, fun h => h.1.symm⟩ Iff.rfl
        · have hcase : ¬ ((faults w.calls).isSome ∨ w.account.Gone i) := by
            rw [not_or] at hgone
            simp [Account.Gone, hok, hinst, hgone]
          rw [if_neg hgone]
          exact ⟨hrest, fun x => ⟨Or.inr, fun h => h.resolve_left fun hr => hcase hr.2⟩⟩

/-- The sweep's own cancel is safe exactly when it was careful. -/
theorem sweep_issued_safe (w : World) (hf : faults w.calls = none) :
    CancelCall.Safe (w.cancelCall (staleRequests faults
        (w.account.requests.filter SpotRequest.holds) w.tick).1) ↔ SweepCareful faults w := by
  have hmem := (@staleRequests_spec faults
    (w.account.requests.filter SpotRequest.holds) w.tick).2
  have hlisted : ∀ {k : Nat} {r : SpotRequest},
      (asked (w.account.requests.filter SpotRequest.holds))[k]? = some r →
      r ∈ w.account.requests := by
    intro k r hk
    have := List.mem_of_getElem? hk
    simp only [asked, List.mem_filter] at this
    exact this.1.1
  constructor
  · intro hsafe _ k r i hk hri hfault
    obtain ⟨j, hrj, hj⟩ := hsafe r (hlisted hk)
      ((hmem r.id).mpr ⟨k, r, i, hk, rfl, hri, Or.inl hfault⟩)
    rw [hri, Option.some.injEq] at hrj
    rw [hrj]
    exact hj
  · intro hc r hr hid
    obtain ⟨k, r', i, hk, hid', hri, hcase⟩ := (hmem r.id).mp hid
    have heq : r' = r :=
      List.inj_on_of_nodup_map w.account.requests_nodup (hlisted hk) hr hid'
    subst heq
    refine ⟨i, hri, ?_⟩
    rcases hcase with hfault | hgone
    · exact hc hf k r' i hk hri hfault
    · exact Or.inl hgone

theorem sweep_good_iff (w : World) :
    CancelsSafe (sweepSpotRequests faults w).2 ↔ CancelsSafe w ∧ SweepCareful faults w := by
  unfold sweepSpotRequests describeSpotInstanceRequests
  cases hf : faults w.calls with
  | some e =>
    have hc : SweepCareful faults w := fun hn => by rw [hf] at hn; cases hn
    simp [CancelsSafe, hc]
  | none =>
    rw [← sweep_issued_safe w hf]
    have hw := (@staleRequests_spec faults
      (w.account.requests.filter SpotRequest.holds) w.tick).1
    by_cases hs : (staleRequests faults (w.account.requests.filter SpotRequest.holds) w.tick).1 = []
    · simp [hs, hw, CancelsSafe, cancelCall_nil_safe]
    · simp only [if_neg hs, CancelsSafe]
      rw [cancelSpotInstanceRequests_cancels, hw, List.forall_mem_append,
        List.forall_mem_singleton]
      rfl

/-! ## `launch` -/

theorem spotSubnets_cancels (subnetId : Option SubnetId) (w : World) :
    (spotSubnets faults subnetId w).2.cancels = w.cancels := by
  unfold spotSubnets
  cases subnetId with
  | none => rfl
  | some id =>
    simp only [describeSubnets]
    cases faults w.calls with
    | some e => rfl
    | none =>
      cases (w.account.subnets.filter fun s => s.id == id) with
      | nil => rfl
      | cons desc _ =>
        simp only [World.tick_calls]
        cases faults (w.calls + 1) <;> rfl

theorem runInstances_cancels (kw : RunKwargs) (w : World) :
    (runInstances faults kw w).2.cancels = w.cancels := by
  unfold runInstances
  split <;> rfl

theorem launchOnDemand_cancels (kw : RunKwargs) (zone : Zone) (w : World) :
    (launchOnDemand faults kw zone w).2.cancels = w.cancels := by
  rw [← @runInstances_cancels faults kw w]
  unfold launchOnDemand
  split <;> simp [*]

theorem launchSpot_cancels : ∀ (zones : List (Option SubnetId × Zone)) (kw : RunKwargs)
    (last : Option ClientError) (w : World),
    (launchSpot faults zones kw last w).2.cancels = w.cancels
  | [], _, _, _ => rfl
  | (subnet, zone) :: rest, kw, last, w => by
    have hrun := @runInstances_cancels faults
      (if subnet.isSome then { kw with subnetId := subnet } else kw) w
    rw [launchSpot]
    split
    · next heq => rw [← hrun, heq]
    · next heq => rw [launchSpot_cancels rest, ← hrun, heq]

/-- Only the sweep cancels, and on-demand does not sweep. -/
theorem launchIn_cancels (zones : List (Option SubnetId × Zone)) (first : Zone) (kw : RunKwargs)
    (market : Market) (w : World) :
    (launchIn faults zones first kw market w).2.cancels
      = if market = .onDemand then w.cancels else (sweepSpotRequests faults w).2.cancels := by
  unfold launchIn
  by_cases hm : market = .onDemand
  · rw [if_pos hm, if_pos hm, launchOnDemand_cancels]
  · rw [if_neg hm, if_neg hm,
      ← launchSpot_cancels zones { kw with spot := true } none (sweepSpotRequests faults w).2]
    split
    · next heq => rw [heq]
    · next heq =>
      rw [heq]
      split
      · rfl
      · rw [launchOnDemand_cancels]

/-- A `launch` sweeps unless it asks for an on-demand instance, or has no zone to launch in. -/
def LaunchSweeps (faults : Nat → Option ClientError) (kw : RunKwargs) (market : Market)
    (zone : Option Zone) (w : World) : Prop :=
  market ≠ .onDemand ∧ ∃ zones, (spotSubnets faults kw.subnetId w).1 = .ok zones ∧
    ∃ z ∈ zones, zone.all (fun pin => z.2 == pin) = true

theorem launch_good_iff (kw : RunKwargs) (market : Market) (zone : Option Zone) (w : World) :
    CancelsSafe (launch faults kw market zone w).2 ↔ CancelsSafe w ∧
      (LaunchSweeps faults kw market zone w →
        SweepCareful faults (spotSubnets faults kw.subnetId w).2) := by
  have hsub : CancelsSafe (spotSubnets faults kw.subnetId w).2 ↔ CancelsSafe w := by
    unfold CancelsSafe
    rw [spotSubnets_cancels]
  rw [← hsub]
  unfold launch LaunchSweeps
  rcases hs : spotSubnets faults kw.subnetId w with ⟨res, w₁⟩
  cases res with
  | error e => simp
  | ok all =>
    have hex : (∃ z ∈ all, zone.all (fun pin => z.2 == pin) = true) ↔
        all.filter (fun z => zone.all (fun pin => z.2 == pin)) ≠ [] := by
      simp [List.filter_eq_nil_iff]
    simp only [Except.ok.injEq, exists_eq_left', hex]
    cases all.filter (fun z => zone.all (fun pin => z.2 == pin)) with
    | nil => simp
    | cons first rest =>
      have hc := @launchIn_cancels faults (first :: rest) first.2
        (if zone.isSome then { kw with subnetId := first.1 } else kw) market w₁
      unfold CancelsSafe at *
      simp only [hc]
      by_cases hm : market = .onDemand
      · simp [hm]
      · simp only [hm, if_false, ne_eq, not_false_eq_true, reduceCtorEq, and_self, true_implies]
        exact sweep_good_iff w₁

/-! ## Any sequence of calls -/

/-- The condition one call has to meet. -/
def Op.Careful (faults : Nat → Option ClientError) (w : World) : Op → Prop
  | .launch kw market zone => LaunchSweeps faults kw market zone w →
      SweepCareful faults (spotSubnets faults kw.subnetId w).2
  | .terminate ids => TerminateCareful faults (ids.filterMap id) w
  | .sweepSpotRequests => SweepCareful faults w
  | .age _ => True

theorem apply_good_iff (op : Op) (w : World) :
    CancelsSafe (op.apply faults w) ↔ CancelsSafe w ∧ op.Careful faults w := by
  cases op with
  | launch kw market zone => exact launch_good_iff kw market zone w
  | terminate ids =>
    show CancelsSafe (terminate faults ids w) ↔ _
    by_cases hids : ids.filterMap id = []
    · have hc : TerminateCareful faults (ids.filterMap id) w := by
        rw [hids]
        exact fun _ _ _ _ _ i hi => absurd hi List.not_mem_nil
      rw [terminate, if_pos hids]
      exact ⟨fun h => ⟨h, hc⟩, fun h => h.1⟩
    · rw [terminate, if_neg hids]
      exact terminateAll_good_iff _ w
  | sweepSpotRequests => exact sweep_good_iff w
  | age i => exact ⟨fun h => ⟨h, trivial⟩, fun h => h.1⟩

/-- An account the drivers meet, before any call. -/
def start (a : Account) : World := { account := a, calls := 0, named := [], cancels := [] }

/--
**No spot request of a live instance is cancelled, exactly when every call is careful.**

For every account, every sequence of calls and every pattern of refused API calls.
-/
theorem cancels_safe_iff (faults : Nat → Option ClientError) (a : Account) (ops : List Op)
    (w : World) (h : Infra.Run (Step faults) (start a) ops w) :
    CancelsSafe w ↔
      Infra.Run (Guarded (Step faults) (fun w op => op.Careful faults w)) (start a) ops w := by
  refine Infra.Run.iff_guarded (fun c hc => absurd hc List.not_mem_nil) ?_ h
  intro w₁ op w₂ hstep
  rw [hstep]
  exact apply_good_iff op w₁

/-- One running spot instance and its active request. -/
def oneInstance : Account where
  instances := fun i => if i = 0 then some .running else none
  requests := [{ id := 0, state := .active, instanceId := some 0 }]
  subnets := []
  nextInstance := 1
  nextRequest := 1
  requests_lt := by decide
  requests_nodup := by decide

/-- A `terminate` that EC2 does not refuse is safe. -/
theorem cancels_safe_iff_unthrottled :
    CancelsSafe (terminate (fun _ => none) [some 0] (start oneInstance)) := by
  refine (cancels_safe_iff (fun _ => none) oneInstance [.terminate [some 0]] _
    (Infra.Run.single rfl)).mpr (Infra.Run.single ⟨?_, rfl⟩)
  intro hrefused
  exact absurd hrefused (by simp [TerminateRefused, start, oneInstance])

/--
A throttled `terminate_instances` is suppressed, the requests are listed and cancelled, and the
instance runs on with nothing recording it.
-/
theorem cancels_unsafe_throttled :
    ¬ ∀ (faults : Nat → Option ClientError) (a : Account) (ops : List Op) (w : World),
      Infra.Run (Step faults) (start a) ops w → CancelsSafe w := by
  intro h
  let faults : Nat → Option ClientError := fun n =>
    if n = 0 then some { code := "RequestLimitExceeded", message := "Request limit exceeded." }
    else none
  have hsafe := h faults oneInstance [.terminate [some 0]] _ (Infra.Run.single rfl)
  obtain ⟨i, hi, hrel⟩ := hsafe ((start oneInstance).cancelCall [0]) List.mem_cons_self
    { id := 0, state := .active, instanceId := some 0 } (by decide) (by decide)
  cases hi
  exact absurd hrel (by simp [Released, Account.Gone, World.cancelCall, start, oneInstance])

end Runner
