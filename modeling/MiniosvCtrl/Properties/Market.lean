import Mathlib.Data.List.Induction
import MiniosvCtrl.Runner.Launch

/-!
# Launching on the market asked for

* `tried` — the zones that were asked, one after another, and how that ended
* `launch_honoured` — every request of `launch`, its label and its zone
* `launch_eq` — the result is that of `Runner.launch`
-/

namespace Launch

open Ec2 Runner

variable (answers : Nat → Except ClientError InstanceId)

/-! ## Objects -/

namespace State

variable {s : State} {r q : Ref} {k : Kwargs} {f : Kwargs → Kwargs}

theorem get_alloc_lt (h : r < s.objects.length) : (s.alloc k).2.get r = s.get r := by
  simp [get, alloc, List.getElem?_append_left h]

theorem get_alloc_self : (s.alloc k).2.get (s.alloc k).1 = k := by
  simp [get, alloc]

theorem get_update_self (h : r < s.objects.length) : (s.update r f).get r = f (s.get r) := by
  simp [get, update, h]

theorem get_update_ne (h : q ≠ r) : (s.update r f).get q = s.get q := by
  simp [get, update, List.getElem?_set_ne (Ne.symm h)]

@[simp] theorem length_update : (s.update r f).objects.length = s.objects.length := by
  simp [update]

end State

/-! ## What the calls come to -/

/-- The candidate zones. -/
def candidates (v : Vpc) (subnetId : Option SubnetId) (zone : Option Zone) :
    List (Option SubnetId × Zone) :=
  (spotSubnets v subnetId).filter fun z => zone.all fun pin => z.2 == pin

/-- A spot request in every one of the zones, all of them refused. -/
structure EveryRefused (zones : List (Option SubnetId × Zone)) (sent : List Request) : Prop where
  subnets : sent.map (fun r => r.kwargs.subnetId) = zones.map Prod.fst
  refused : ∀ r ∈ sent, r.kwargs.spot = true ∧ r.refused = true

/-- What `launch` is to do with the market it is given: the requests it made, in order, and what it
returned or raised. -/
structure Honoured (zones : List (Option SubnetId × Zone)) (market : Market)
    (sent : List Request) (out : Except LaunchError (InstanceId × Market × Zone)) : Prop where
  once : (sent.filter fun r => !r.refused).length ≤ 1
  label : ∀ i m z, out = .ok (i, m, z) → ∃ r ∈ sent, r.reply = .ok i ∧
    (m = .spot ↔ r.kwargs.spot = true) ∧ (m = .onDemand ↔ r.kwargs.spot = false) ∧
    (r.kwargs.subnetId, z) ∈ zones
  spotOnly : market = .spot → ∀ r ∈ sent, r.kwargs.spot = true
  exit : market = .spot → ((∃ last, out = .error (.spotRefused last)) ↔ EveryRefused zones sent)
  fallback : market = .spotOrOnDemand → ∀ pre r post, sent = pre ++ r :: post →
    r.kwargs.spot = false → EveryRefused zones pre

/-- How one zone after another ends. -/
inductive Tried (zones : List (Option SubnetId × Zone)) (sent : List Request) :
    Except (Option ClientError) (InstanceId × Zone) → Prop
  | refused {last : Option ClientError} : EveryRefused zones sent → Tried zones sent (.error last)
  | launched {pre post : List (Option SubnetId × Zone)} {z : Option SubnetId × Zone}
      {refusals : List Request} {r : Request} {i : InstanceId} :
      zones = pre ++ z :: post → sent = refusals ++ [r] → EveryRefused pre refusals →
      r.kwargs.subnetId = z.1 → r.kwargs.spot = true → r.reply = .ok i →
      Tried zones sent (.ok (i, z.2))

/-- The zones name a subnet each, or there is none to name. -/
def Alike (zones : List (Option SubnetId × Zone)) (subnetId : Option SubnetId) : Prop :=
  (∀ z ∈ zones, z.1.isSome) ∨ subnetId = none ∧ ∀ z ∈ zones, z.1 = none

theorem EveryRefused.cons {zones : List (Option SubnetId × Zone)} {sent : List Request}
    {z : Option SubnetId × Zone} {r : Request} (hz : r.kwargs.subnetId = z.1)
    (hspot : r.kwargs.spot = true) (hr : r.refused = true) (h : EveryRefused zones sent) :
    EveryRefused (z :: zones) (r :: sent) where
  subnets := by rw [List.map_cons, List.map_cons, h.subnets, hz]
  refused := by
    intro x hx
    rcases List.mem_cons.mp hx with rfl | hx
    · exact ⟨hspot, hr⟩
    · exact h.refused x hx

theorem everyRefused_nil : EveryRefused [] [] := ⟨rfl, fun _ h => absurd h List.not_mem_nil⟩

/-- A refusal more, in front. -/
theorem Tried.cons {zones : List (Option SubnetId × Zone)} {sent : List Request}
    {z : Option SubnetId × Zone} {r : Request} {out : Except (Option ClientError) (InstanceId × Zone)}
    (hz : r.kwargs.subnetId = z.1) (hspot : r.kwargs.spot = true) (hr : r.refused = true)
    (h : Tried zones sent out) : Tried (z :: zones) (r :: sent) out := by
  cases h with
  | refused h => exact .refused (h.cons hz hspot hr)
  | launched hzones hsent hpre hsubnet hs hi =>
    exact .launched (by rw [hzones, List.cons_append]) (by rw [hsent, List.cons_append])
      (hpre.cons hz hspot hr) hsubnet hs hi

/-! ## The loop over the zones -/

/-- The object that the next zone's request is made of. -/
def aimed (s : State) (spot : Ref) (subnet : Option SubnetId) : State :=
  if subnet.isSome then s.update spot ({ · with subnetId := subnet }) else s

section Aimed

variable {s : State} {spot : Ref} {zones : List (Option SubnetId × Zone)}
  {z : Option SubnetId × Zone}

theorem get_aimed_ne {q : Ref} (h : q ≠ spot) (subnet : Option SubnetId) :
    (aimed s spot subnet).get q = s.get q := by
  unfold aimed
  split
  · exact State.get_update_ne h
  · rfl

@[simp] theorem length_aimed (subnet : Option SubnetId) :
    (aimed s spot subnet).objects.length = s.objects.length := by
  unfold aimed
  split <;> simp

@[simp] theorem requests_aimed (subnet : Option SubnetId) :
    (aimed s spot subnet).requests = s.requests := by
  unfold aimed
  split <;> rfl

theorem spot_aimed (hlt : spot < s.objects.length) (subnet : Option SubnetId) :
    ((aimed s spot subnet).get spot).spot = (s.get spot).spot := by
  unfold aimed
  split
  · rw [State.get_update_self hlt]
    rfl
  · rfl

theorem subnetId_aimed (hlt : spot < s.objects.length)
    (halike : Alike (z :: zones) (s.get spot).subnetId) :
    ((aimed s spot z.1).get spot).subnetId = z.1 := by
  unfold aimed
  rcases halike with hsome | ⟨hnone, hall⟩
  · rw [if_pos (hsome z List.mem_cons_self), State.get_update_self hlt]
  · have hz := hall z List.mem_cons_self
    rw [hz, if_neg (by simp), hnone]

theorem alike_aimed (hlt : spot < s.objects.length)
    (halike : Alike (z :: zones) (s.get spot).subnetId) :
    Alike zones ((aimed s spot z.1).get spot).subnetId := by
  rw [subnetId_aimed hlt halike]
  rcases halike with hsome | ⟨-, hall⟩
  · exact .inl fun y hy => hsome y (List.mem_cons_of_mem z hy)
  · exact .inr ⟨hall z List.mem_cons_self, fun y hy => hall y (List.mem_cons_of_mem z hy)⟩

end Aimed

/-- What a launch in one zone after another does. -/
structure Loop (zones : List (Option SubnetId × Zone)) (spot : Ref) (s : State)
    (out : Except (Option ClientError) (InstanceId × Zone) × State) (sent : List Request) : Prop where
  requests : out.2.requests = s.requests ++ sent
  tried : Tried zones sent out.1
  length : out.2.objects.length = s.objects.length
  others : ∀ q, q ≠ spot → out.2.get q = s.get q

theorem launchSpot_cons (subnet : Option SubnetId) (zone : Zone)
    (zones : List (Option SubnetId × Zone)) (spot : Ref) (last : Option ClientError) (s : State) :
    launchSpot answers ((subnet, zone) :: zones) spot last s =
      match runInstances answers spot (aimed s spot subnet) with
      | (.ok i, s) => (.ok (i, zone), s)
      | (.error e, s) => launchSpot answers zones spot (some e) s :=
  rfl

theorem loop (zones : List (Option SubnetId × Zone)) {spot : Ref} {s : State}
    (last : Option ClientError) (hlt : spot < s.objects.length) (hspot : (s.get spot).spot = true)
    (halike : Alike zones (s.get spot).subnetId) :
    ∃ sent, Loop zones spot s (launchSpot answers zones spot last s) sent := by
  induction zones generalizing s last with
  | nil => exact ⟨[], by simp [launchSpot], .refused everyRefused_nil, rfl, fun _ _ => rfl⟩
  | cons z zones ih =>
    obtain ⟨subnet, zone⟩ := z
    have hsubnet := subnetId_aimed hlt halike
    have hs : ((aimed s spot subnet).get spot).spot = true := (spot_aimed hlt subnet).trans hspot
    have hframe : ∀ q, q ≠ spot → (aimed s spot subnet).get q = s.get q :=
      fun q hq => get_aimed_ne hq subnet
    rw [launchSpot_cons, runInstances]
    -- a zone that launches ends the loop, one that refuses leaves the rest to it
    cases hreply : answers (aimed s spot subnet).requests.length with
    | ok i =>
      refine ⟨[⟨(aimed s spot subnet).get spot, .ok i⟩], ?_, ?_, ?_, hframe⟩
      · simp
      · exact @Tried.launched _ _ [] zones (subnet, zone) [] _ i rfl rfl everyRefused_nil hsubnet hs
          rfl
      · simp
    | error e =>
      let s' : State := { aimed s spot subnet with
        requests := (aimed s spot subnet).requests ++
          [⟨(aimed s spot subnet).get spot, .error e⟩] }
      have hlt' : spot < s'.objects.length := by simpa [s'] using hlt
      obtain ⟨sent, h⟩ := ih (s := s') (some e) hlt' hs (alike_aimed hlt halike)
      refine ⟨⟨(aimed s spot subnet).get spot, .error e⟩ :: sent, ?_, ?_, ?_, ?_⟩
      · exact h.requests.trans (by simp [s'])
      · exact h.tried.cons hsubnet hs rfl
      · exact h.length.trans (by simp [s'])
      · exact fun q hq => (h.others q hq).trans (hframe q hq)

/-! ## `launch` -/

/-- What `launch` goes on with, once it knows the zones. -/
structure Ready (zones : List (Option SubnetId × Zone)) (first : Zone) (runKwargs : Ref)
    (s : State) : Prop where
  lt : runKwargs < s.objects.length
  plain : (s.get runKwargs).marketOptions = none
  head : zones.head? = some ((s.get runKwargs).subnetId, first)
  alike : Alike zones (s.get runKwargs).subnetId

theorem spot_of_plain {k : Kwargs} (h : k.marketOptions = none) : k.spot = false := by
  simp [Kwargs.spot, h]

theorem oneTime_spot (k : Kwargs) :
    Kwargs.spot { k with marketOptions := some oneTime } = true := by
  simp [Kwargs.spot]

theorem Ready.mem {zones : List (Option SubnetId × Zone)} {first : Zone} {runKwargs : Ref}
    {s : State} (h : Ready zones first runKwargs s) :
    ((s.get runKwargs).subnetId, first) ∈ zones := List.mem_of_mem_head? h.head

/-- One request without spot options, after those that were refused. -/
theorem honoured_onDemand {zones : List (Option SubnetId × Zone)} {first : Zone}
    {market : Market} {sent : List Request} {k : Kwargs} {reply : Except ClientError InstanceId}
    (hmarket : market ≠ .spot) (hrefused : market = .spotOrOnDemand → EveryRefused zones sent)
    (hnone : market = .onDemand → sent = []) (hplain : k.spot = false)
    (hmem : (k.subnetId, first) ∈ zones) :
    Honoured zones market (sent ++ [⟨k, reply⟩])
      (match reply with
        | .ok i => .ok (i, .onDemand, first)
        | .error e => .error (.client e)) := by
  -- what was sent before are refused spot requests, if anything
  have hsent : ∀ r ∈ sent, r.kwargs.spot = true ∧ r.refused = true := by
    intro r hr
    cases market with
    | onDemand => rw [hnone rfl] at hr; cases hr
    | spot => exact absurd rfl hmarket
    | spotOrOnDemand => exact (hrefused rfl).refused r hr
  constructor
  · have hnil : sent.filter (fun r => !r.refused) = [] := by
      rw [List.filter_eq_nil_iff]
      intro r hr
      simp [(hsent r hr).2]
    rw [List.filter_append, hnil, List.nil_append]
    exact List.length_filter_le _ _
  · intro i m z hout
    cases reply with
    | error e => cases hout
    | ok j =>
      cases hout
      exact ⟨⟨k, .ok i⟩, by simp, rfl, by simp [hplain], by simp [hplain], hmem⟩
  · exact fun h => absurd h hmarket
  · exact fun h => absurd h hmarket
  · intro hfallback pre r post heq hr
    -- the only request without spot options is the last
    have hpost : post = [] := by
      cases post using List.reverseRecOn with
      | nil => rfl
      | append_singleton post x _ =>
        have hmem : r ∈ sent := by
          rw [← List.cons_append, ← List.append_assoc, List.append_singleton_inj] at heq
          rw [heq.1]
          simp
        rw [(hsent r hmem).1] at hr
        cases hr
    subst hpost
    rw [← (List.append_singleton_inj.mp heq).1]
    exact hrefused hfallback

/-- A request with spot options that launched, after those that were refused. -/
theorem honoured_launched {zones pre post : List (Option SubnetId × Zone)}
    {z : Option SubnetId × Zone} {market : Market} {refusals : List Request} {r : Request}
    {i : InstanceId} (hzones : zones = pre ++ z :: post) (hpre : EveryRefused pre refusals)
    (hsubnet : r.kwargs.subnetId = z.1) (hspot : r.kwargs.spot = true) (hreply : r.reply = .ok i) :
    Honoured zones market (refusals ++ [r]) (.ok (i, .spot, z.2)) := by
  have hall : ∀ x ∈ refusals ++ [r], x.kwargs.spot = true := by
    intro x hx
    rcases List.mem_append.mp hx with hx | hx
    · exact (hpre.refused x hx).1
    · rw [List.mem_singleton.mp hx]
      exact hspot
  have hok : r.refused = false := by simp [Request.refused, hreply, Except.isOk, Except.toBool]
  constructor
  · have hnil : refusals.filter (fun r => !r.refused) = [] := by
      rw [List.filter_eq_nil_iff]
      intro x hx
      simp [(hpre.refused x hx).2]
    rw [List.filter_append, hnil, List.nil_append]
    exact List.length_filter_le _ _
  · intro j m y hout
    cases hout
    refine ⟨r, by simp, hreply, by simp [hspot], by simp [hspot], ?_⟩
    rw [hsubnet, hzones]
    exact List.mem_append_right pre List.mem_cons_self
  · exact fun _ => hall
  · intro _
    refine ⟨fun ⟨_, h⟩ => (nomatch h), fun h => ?_⟩
    have hr := (h.refused r (by simp)).2
    rw [hok] at hr
    cases hr
  · intro _ before x after heq hx
    have hspot := hall x (by rw [heq]; simp)
    rw [hspot] at hx
    cases hx

/-- Every zone refused, and no request but those for spot was made. -/
theorem honoured_refused {zones : List (Option SubnetId × Zone)} {sent : List Request}
    {last : Option ClientError} (h : EveryRefused zones sent) :
    Honoured zones .spot sent (.error (.spotRefused last)) := by
  constructor
  · have hnil : sent.filter (fun r => !r.refused) = [] := by
      rw [List.filter_eq_nil_iff]
      intro x hx
      simp [(h.refused x hx).2]
    simp [hnil]
  · exact fun i m z hout => nomatch hout
  · exact fun _ r hr => (h.refused r hr).1
  · exact fun _ => ⟨fun _ => h, fun _ => ⟨last, rfl⟩⟩
  · exact fun h => nomatch h

theorem launchOnDemand_fst (r : Ref) (zone : Zone) (s : State) :
    (launchOnDemand answers r zone s).1 =
      match answers s.requests.length with
      | .ok i => .ok (i, .onDemand, zone)
      | .error e => .error (.client e) := by
  rw [launchOnDemand, runInstances]
  cases answers s.requests.length <;> rfl

theorem launchOnDemand_snd (r : Ref) (zone : Zone) (s : State) :
    (launchOnDemand answers r zone s).2 =
      { s with requests := s.requests ++ [⟨s.get r, answers s.requests.length⟩] } := by
  rw [launchOnDemand, runInstances]
  cases answers s.requests.length <;> rfl

/-- On the spot market, the zones are tried with an object that is new. -/
theorem launchIn_spot {zones : List (Option SubnetId × Zone)} {first : Zone} {runKwargs : Ref}
    {s : State} (h : Ready zones first runKwargs s) {market : Market}
    (hmarket : market ≠ .onDemand) :
    ∃ out u sent, u.requests = s.requests ++ sent ∧ Tried zones sent out ∧
      s.objects.length ≤ u.objects.length ∧ (∀ q < s.objects.length, u.get q = s.get q) ∧
      launchIn answers zones first runKwargs market s =
        match (out, u) with
        | (.ok (i, zone), s) => (.ok (i, .spot, zone), s)
        | (.error last, s) =>
          if market = .spot then (.error (.spotRefused last), s)
          else launchOnDemand answers runKwargs first s := by
  let k : Kwargs := { s.get runKwargs with marketOptions := some oneTime }
  let t := (s.alloc k).2
  have hself : t.get s.objects.length = k := State.get_alloc_self
  have hlength : t.objects.length = s.objects.length + 1 := by simp [t, State.alloc]
  have hspot : (t.get s.objects.length).spot = true := by
    rw [hself]
    exact oneTime_spot _
  have halike : Alike zones (t.get s.objects.length).subnetId := by
    rw [hself]
    exact h.alike
  have hlt : s.objects.length < t.objects.length := by
    rw [hlength]
    exact Nat.lt_succ_self _
  obtain ⟨sent, hloop⟩ := loop answers zones none hlt hspot halike
  refine ⟨_, _, sent, hloop.requests, hloop.tried, ?_, ?_, ?_⟩
  · rw [hloop.length, hlength]
    exact Nat.le_succ _
  · intro q hq
    rw [hloop.others q (Nat.ne_of_lt hq)]
    exact State.get_alloc_lt hq
  · rw [launchIn, if_neg hmarket]
    rfl

/-- The zones are known: every request honours the market, and no object that was there before is
changed. -/
theorem launchIn_honoured {zones : List (Option SubnetId × Zone)} {first : Zone}
    {runKwargs : Ref} {s : State} (h : Ready zones first runKwargs s) (hfresh : s.requests = [])
    (market : Market) : Honoured zones market
        (launchIn answers zones first runKwargs market s).2.requests
        (launchIn answers zones first runKwargs market s).1 ∧
      ∀ q < s.objects.length,
        (launchIn answers zones first runKwargs market s).2.get q = s.get q := by
  by_cases hmarket : market = .onDemand
  · rw [launchIn, if_pos hmarket, launchOnDemand_fst, launchOnDemand_snd, hfresh]
    subst hmarket
    exact ⟨honoured_onDemand (by decide) (fun he => nomatch he) (fun _ => rfl)
      (spot_of_plain h.plain) h.mem, fun _ _ => rfl⟩
  · obtain ⟨out, u, sent, hrequests, htried, -, hframe, hlaunch⟩ := launchIn_spot answers h hmarket
    have hsent : u.requests = sent := by rw [hrequests, hfresh, List.nil_append]
    rw [hlaunch]
    -- a zone launched it, or all refused and on-demand is the fallback, if there is one
    cases htried with
    | launched hzones hrefusals hpre hsubnet hs hi =>
      refine ⟨?_, hframe⟩
      dsimp only
      rw [hsent, hrefusals]
      exact honoured_launched hzones hpre hsubnet hs hi
    | refused hrefused =>
      dsimp only
      split
      case isTrue hm =>
        subst hm
        refine ⟨?_, hframe⟩
        rw [hsent]
        exact honoured_refused hrefused
      case isFalse hm =>
        have hkwargs : u.get runKwargs = s.get runKwargs := hframe runKwargs h.lt
        rw [launchOnDemand_fst, launchOnDemand_snd, hsent, hkwargs]
        exact ⟨honoured_onDemand hm (fun _ => hrefused) (fun he => absurd he hmarket)
          (spot_of_plain h.plain) h.mem, hframe⟩

/-! ### Every launch asks somewhere -/

theorem Tried.subnet_mem {zones : List (Option SubnetId × Zone)} {sent : List Request}
    {out : Except (Option ClientError) (InstanceId × Zone)} (h : Tried zones sent out) {r : Request}
    (hr : r ∈ sent) : r.kwargs.subnetId ∈ zones.map Prod.fst := by
  cases h with
  | refused h =>
    rw [← h.subnets]
    exact List.mem_map_of_mem hr
  | launched hzones hsent hpre hsubnet _ _ =>
    rw [hzones, List.map_append, ← hpre.subnets, List.map_cons, ← hsubnet]
    rw [hsent] at hr
    rcases List.mem_append.mp hr with hr | hr
    · exact List.mem_append_left _ (List.mem_map_of_mem hr)
    · rw [List.mem_singleton.mp hr]
      exact List.mem_append_right _ List.mem_cons_self

theorem Tried.ne_nil {zones : List (Option SubnetId × Zone)} {sent : List Request}
    {out : Except (Option ClientError) (InstanceId × Zone)} (h : Tried zones sent out)
    (hzones : zones ≠ []) : sent ≠ [] := by
  cases h with
  | refused h =>
    rintro rfl
    exact hzones (List.map_eq_nil_iff.mp h.subnets.symm)
  | launched _ hsent _ _ _ _ => simp [hsent]

/-- What a launch adds to the requests, and what it leaves as it was. -/
structure Sends (zones : List (Option SubnetId × Zone)) (s t : State) (sent : List Request) :
    Prop where
  requests : t.requests = s.requests ++ sent
  ne : sent ≠ []
  subnets : ∀ r ∈ sent, r.kwargs.subnetId ∈ zones.map Prod.fst
  length : s.objects.length ≤ t.objects.length
  others : ∀ q < s.objects.length, t.get q = s.get q

/-- The request that goes out on-demand. -/
theorem Sends.onDemand {zones : List (Option SubnetId × Zone)} {s t : State}
    {sent : List Request} {r : Ref} {reply : Except ClientError InstanceId}
    (hrequests : t.requests = s.requests ++ sent)
    (hsubnets : ∀ r ∈ sent, r.kwargs.subnetId ∈ zones.map Prod.fst)
    (hlength : s.objects.length ≤ t.objects.length)
    (hothers : ∀ q < s.objects.length, t.get q = s.get q)
    (hr : (t.get r).subnetId ∈ zones.map Prod.fst) :
    Sends zones s { t with requests := t.requests ++ [⟨t.get r, reply⟩] }
      (sent ++ [⟨t.get r, reply⟩]) where
  requests := by rw [hrequests, List.append_assoc]
  ne := by simp
  subnets := by
    intro x hx
    rcases List.mem_append.mp hx with hx | hx
    · exact hsubnets x hx
    · rw [List.mem_singleton.mp hx]
      exact hr
  length := hlength
  others := hothers

theorem launchIn_sends {zones : List (Option SubnetId × Zone)} {first : Zone}
    {runKwargs : Ref} {s : State} (h : Ready zones first runKwargs s) (market : Market) :
    ∃ sent, Sends zones s (launchIn answers zones first runKwargs market s).2 sent := by
  have hmem : (s.get runKwargs).subnetId ∈ zones.map Prod.fst := List.mem_map_of_mem h.mem
  have hzones : zones ≠ [] := List.ne_nil_of_mem h.mem
  by_cases hmarket : market = .onDemand
  · rw [launchIn, if_pos hmarket, launchOnDemand_snd]
    exact ⟨_, .onDemand (List.append_nil _).symm (fun _ hr => absurd hr List.not_mem_nil)
      (Nat.le_refl _) (fun _ _ => rfl) hmem⟩
  · obtain ⟨out, u, sent, hrequests, htried, hlength, hframe, hlaunch⟩ :=
      launchIn_spot answers h hmarket
    have hsends : Sends zones s u sent :=
      { requests := hrequests
        ne := htried.ne_nil hzones
        subnets := fun r hr => htried.subnet_mem hr
        length := hlength
        others := hframe }
    rw [hlaunch]
    rcases out with last | ⟨i, zone⟩
    · dsimp only
      split
      · exact ⟨sent, hsends⟩
      · rw [launchOnDemand_snd]
        refine ⟨_, .onDemand hrequests hsends.subnets hlength hframe ?_⟩
        rw [hframe runKwargs h.lt]
        exact hmem
    · exact ⟨sent, hsends⟩

/-! ### The zones of the VPC -/

theorem spotSubnets_eq_cons (v : Vpc) (subnetId : Option SubnetId) :
    ∃ zone rest, spotSubnets v subnetId = (subnetId, zone) :: rest := by
  cases subnetId with
  | none => exact ⟨_, _, rfl⟩
  | some id => exact ⟨_, _, rfl⟩

theorem alike_spotSubnets (v : Vpc) (subnetId : Option SubnetId) :
    Alike (spotSubnets v subnetId) subnetId := by
  cases subnetId with
  | none => exact .inr ⟨rfl, fun z hz => by rw [List.mem_singleton.mp hz]⟩
  | some id =>
    refine .inl fun z hz => ?_
    rcases List.mem_cons.mp hz with rfl | hz
    · rfl
    · obtain ⟨s, -, rfl⟩ := List.mem_map.mp hz
      rfl

theorem Alike.filter {zones rest : List (Option SubnetId × Zone)} {subnetId : Option SubnetId}
    {first : Option SubnetId × Zone} (h : Alike zones subnetId) (hsub : first :: rest ⊆ zones) :
    Alike (first :: rest) first.1 := by
  rcases h with hsome | ⟨-, hnone⟩
  · exact .inl fun z hz => hsome z (hsub hz)
  · exact .inr ⟨hnone first (hsub List.mem_cons_self), fun z hz => hnone z (hsub hz)⟩

theorem candidates_none (v : Vpc) (subnetId : Option SubnetId) :
    candidates v subnetId none = spotSubnets v subnetId := by
  simp [candidates]

theorem launch_none (v : Vpc) (r : Ref) (market : Market) (s : State) {zone : Zone}
    {rest : List (Option SubnetId × Zone)}
    (h : spotSubnets v (s.get r).subnetId = ((s.get r).subnetId, zone) :: rest) :
    launch answers v r market none s =
      launchIn answers (spotSubnets v (s.get r).subnetId) zone r market s := by
  rw [launch, h]
  rfl

theorem launch_pinned (v : Vpc) (r : Ref) (market : Market) (pin : Zone) (s : State) :
    launch answers v r market (some pin) s =
      match (spotSubnets v (s.get r).subnetId).filter fun z : Option SubnetId × Zone => z.2 == pin with
      | [] => (.error .index, s)
      | first :: rest => launchIn answers (first :: rest) first.2 s.objects.length market
          (s.alloc { s.get r with subnetId := first.1 }).2 := rfl

/-- A zone that is one of the list is still there once the list is cut down to it. -/
theorem exists_pinned {zones : List (Option SubnetId × Zone)} {pin : Zone}
    (h : pin ∈ zones.map Prod.snd) : ∃ first rest,
      zones.filter (fun z => z.2 == pin) = first :: rest := by
  rcases hzones : zones.filter (fun z => z.2 == pin) with _ | ⟨first, rest⟩
  · obtain ⟨z, hz, hzone⟩ := List.mem_map.mp h
    exact absurd (beq_iff_eq.mpr hzone) (by simpa using List.filter_eq_nil_iff.mp hzones z hz)
  · exact ⟨first, rest, hzones⟩

/-- With a zone pinned, the keywords are copied for its subnet. -/
theorem ready_pinned {v : Vpc} {subnetId : Option SubnetId} {s : State} {k : Kwargs} {pin : Zone}
    {first : Option SubnetId × Zone} {rest : List (Option SubnetId × Zone)}
    (hplain : k.marketOptions = none) (hsubnet : k.subnetId = first.1)
    (hzones : (spotSubnets v subnetId).filter (fun z => z.2 == pin) = first :: rest) :
    Ready (first :: rest) first.2 s.objects.length (s.alloc k).2 := by
  have hself : (s.alloc k).2.get s.objects.length = k := State.get_alloc_self
  refine ⟨by simp [State.alloc], ?_, ?_, ?_⟩
  · rw [hself]
    exact hplain
  · rw [hself, hsubnet]
    rfl
  · rw [hself, hsubnet]
    exact (alike_spotSubnets v subnetId).filter (hzones ▸ List.filter_subset_self _)

section Account

variable (faults : Nat → Option ClientError) {w u : World} {s : State}

/-- So many requests were refused since `w`. -/
structure Since (w u : World) (s : State) : Prop where
  calls : u.calls = w.calls + s.requests.length
  account : u.account = w.account

theorem runInstances_eq (h : Since w u s) (kw : RunKwargs) (r : Ref) :
    (Ec2.runInstances faults kw u).1 = (runInstances (replies faults w) r s).1 := by
  rw [Ec2.runInstances, runInstances, replies, h.calls, h.account]
  cases faults (w.calls + s.requests.length) <;> rfl

theorem since_refused (h : Since w u s) {e : ClientError} (kw : RunKwargs) (r : Ref)
    (he : (Ec2.runInstances faults kw u).1 = .error e) :
    Since w (Ec2.runInstances faults kw u).2 (runInstances (replies faults w) r s).2 := by
  rw [Ec2.runInstances] at he ⊢
  cases hf : faults u.calls with
  | none =>
    rw [hf] at he
    cases he
  | some e' =>
    refine ⟨?_, h.account⟩
    show u.calls + 1 = _
    rw [h.calls, runInstances, List.length_append, List.length_singleton, Nat.add_assoc]

theorem launchSpot_cons_eq (subnet : Option SubnetId) (zone : Zone)
    (zones : List (Option SubnetId × Zone)) (kw : RunKwargs) (last : Option ClientError) :
    Runner.launchSpot faults ((subnet, zone) :: zones) kw last u =
      match Ec2.runInstances faults
        (if subnet.isSome then { kw with subnetId := subnet } else kw) u with
      | (.ok i, w) => (.ok (i, zone), w)
      | (.error e, w) => Runner.launchSpot faults zones
        (if subnet.isSome then { kw with subnetId := subnet } else kw) (some e) w :=
  rfl

theorem isOk_ok {α ε : Type} {a : α} : (Except.ok a : Except ε α).isOk ≠ false := by
  simp [Except.isOk, Except.toBool]

theorem launchSpot_eq (zones : List (Option SubnetId × Zone)) (h : Since w u s) (kw : RunKwargs)
    (spot : Ref) (last : Option ClientError) :
    (Runner.launchSpot faults zones kw last u).1 =
        (launchSpot (replies faults w) zones spot last s).1 ∧
      ((Runner.launchSpot faults zones kw last u).1.isOk = false →
        Since w (Runner.launchSpot faults zones kw last u).2
          (launchSpot (replies faults w) zones spot last s).2) := by
  induction zones generalizing u s kw last with
  | nil => exact ⟨rfl, fun _ => h⟩
  | cons z zones ih =>
    obtain ⟨subnet, zone⟩ := z
    let kw' := if subnet.isSome then { kw with subnetId := subnet } else kw
    have haimed : Since w u (aimed s spot subnet) :=
      ⟨by rw [requests_aimed]; exact h.calls, h.account⟩
    have hreply := runInstances_eq faults haimed kw' spot
    rw [launchSpot_cons_eq, launchSpot_cons]
    have hsince := fun e => since_refused faults haimed (e := e) kw' spot
    rcases hu : Ec2.runInstances faults kw' u with ⟨reply, u'⟩
    rcases hs : runInstances (replies faults w) spot (aimed s spot subnet) with ⟨reply', s'⟩
    rw [hu, hs] at hreply
    simp only [hu, hs] at hsince
    obtain rfl : reply = reply' := hreply
    cases reply with
    | ok i => exact ⟨rfl, fun hok => absurd hok isOk_ok⟩
    | error e => exact ih (hsince e rfl) kw' (some e)

theorem launchOnDemand_eq (h : Since w u s) (kw : RunKwargs) (r : Ref) (zone : Zone) :
    (Runner.launchOnDemand faults kw zone u).1 =
      (launchOnDemand (replies faults w) r zone s).1 := by
  have hreply := runInstances_eq faults h kw r
  rw [Runner.launchOnDemand, launchOnDemand]
  rcases hu : Ec2.runInstances faults kw u with ⟨reply, u'⟩
  rcases hs : runInstances (replies faults w) r s with ⟨reply', s'⟩
  rw [hu, hs] at hreply
  obtain rfl : reply = reply' := hreply
  cases reply <;> rfl

/-- The zones are known, `w` is the account once the leaked requests are swept. -/
theorem launchIn_of_spot {market : Market} (h : market ≠ .onDemand)
    (zones : List (Option SubnetId × Zone)) (first : Zone) (kw : RunKwargs) :
    Runner.launchIn faults zones first kw market u =
      match Runner.launchSpot faults zones { kw with spot := true } none
        (sweepSpotRequests faults u).2 with
      | (.ok (i, zone), w) => (.ok (i, .spot, zone), w)
      | (.error last, w) => if market = .spot then (.error (.spotRefused last), w)
        else Runner.launchOnDemand faults kw first w := by
  rewrite [Runner.launchIn, if_neg h]
  rfl

theorem launchIn_of_ne {market : Market} (h : market ≠ .onDemand)
    (answers : Nat → Except ClientError InstanceId) (zones : List (Option SubnetId × Zone))
    (first : Zone) (r : Ref) (s : State) :
    launchIn answers zones first r market s =
      match launchSpot answers zones s.objects.length none
        (s.alloc { s.get r with marketOptions := some oneTime }).2 with
      | (.ok (i, zone), s) => (.ok (i, .spot, zone), s)
      | (.error last, s) => if market = .spot then (.error (.spotRefused last), s)
        else launchOnDemand answers r first s := by
  rewrite [launchIn, if_neg h]
  rfl

theorem launchIn_eq {market : Market} (zones : List (Option SubnetId × Zone)) (first : Zone)
    (kw : RunKwargs) (r : Ref) (s : State) (hs : s.requests = [])
    (hw : w = if market = .onDemand then u else (sweepSpotRequests faults u).2) :
    (Runner.launchIn faults zones first kw market u).1 =
      (launchIn (replies faults w) zones first r market s).1 := by
  have hsince : Since w w s := ⟨by rw [hs, List.length_nil, Nat.add_zero], rfl⟩
  by_cases hmarket : market = .onDemand
  · rw [if_pos hmarket] at hw
    subst hw
    rw [Runner.launchIn, launchIn, if_pos hmarket, if_pos hmarket]
    exact launchOnDemand_eq faults hsince kw r first
  · rw [if_neg hmarket] at hw
    let t := (s.alloc { s.get r with marketOptions := some oneTime }).2
    have ht : Since w w t := ⟨hsince.calls, rfl⟩
    obtain ⟨hreply, hrest⟩ := launchSpot_eq faults zones ht { kw with spot := true }
      s.objects.length none
    rw [launchIn_of_spot faults hmarket, ← hw, launchIn_of_ne hmarket]
    rcases hl : Runner.launchSpot faults zones { kw with spot := true } none w with ⟨out, u'⟩
    rcases hr : launchSpot (replies faults w) zones s.objects.length none t with ⟨out', s'⟩
    rw [hl, hr] at hreply hrest
    obtain rfl : out = out' := hreply
    rcases out with last | ⟨i, zone⟩
    · dsimp only
      split
      · rfl
      · exact launchOnDemand_eq faults (hrest rfl) kw r first
    · rfl

theorem launch_of_subnets (k : Kwargs) (market : Market) (zone : Option Zone)
    {subnets : List (Option SubnetId × Zone)}
    (h : Runner.spotSubnets faults k.subnetId w = (.ok subnets, u)) :
    Runner.launch faults k.run market zone w =
      match subnets.filter (fun z => zone.all (fun pin => z.2 == pin)) with
      | [] => (.error .index, u)
      | first :: rest =>
        Runner.launchIn faults (first :: rest) first.2
          (if zone.isSome then { k.run with subnetId := first.1 } else k.run) market u := by
  have hsubnets : Runner.spotSubnets faults k.run.subnetId w = (.ok subnets, u) := h
  rewrite [Runner.launch, hsubnets]
  rfl

/-- Given the zones that it finds, `Runner.launch` ends as `launch` does. -/
theorem launch_eq (v : Vpc) (k : Kwargs) (market : Market) (zone : Option Zone)
    (hzones : Runner.spotSubnets faults k.subnetId w = (.ok (spotSubnets v k.subnetId), u)) :
    (Runner.launch faults k.run market zone w).1 =
      (launch (replies faults (if market = .onDemand then u else (sweepSpotRequests faults u).2)) v
        0 market zone ⟨[k], []⟩).1 := by
  rw [launch_of_subnets faults k market zone hzones]
  cases zone with
  | none =>
    obtain ⟨zone₀, rest₀, hcons⟩ := spotSubnets_eq_cons v k.subnetId
    have hall : (spotSubnets v k.subnetId).filter
        (fun z => (none : Option Zone).all fun pin => z.2 == pin) = (k.subnetId, zone₀) :: rest₀ := by
      rw [← hcons]
      simp
    rw [hall, launch_none _ v 0 market ⟨[k], []⟩ hcons]
    show _ = (launchIn _ (spotSubnets v k.subnetId) zone₀ 0 market ⟨[k], []⟩).1
    rw [hcons]
    exact launchIn_eq faults _ _ _ 0 _ rfl rfl
  | some pin =>
    have hget : (State.get ⟨[k], []⟩ 0).subnetId = k.subnetId := rfl
    simp only [Option.all_some, launch_pinned, hget]
    cases (spotSubnets v k.subnetId).filter (fun z => z.2 == pin) with
    | nil => rfl
    | cons first rest => exact launchIn_eq faults _ _ _ _ _ rfl rfl

end Account

end Launch
