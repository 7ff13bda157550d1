import MiniosvCtrl.Server.NginxServer

/-!
# Whether the long-living server is on record

* `cmdStart_world`, `cmdStop_world` — what each command does to the file and asks of EC2
* `Kept` — what a command's calls may answer if no server is to be lost
* **`onRecord_iff`** — the servers that still run are on record exactly after such commands
-/

namespace NginxServer

open Infra Ec2

variable {B : Builtins} {w w' : World} {r : Replies} {e : Event} {l : List Event}

/-- A `start` launched it, and no successful `terminate_instances` has named it. -/
def Outstanding (w : World) (i : InstanceId) : Prop := i ∈ w.launched ∧ i ∉ w.named

/-- Every such server is the one in `nginx-server.json`. -/
def OnRecord (w : World) : Prop := ∀ i, Outstanding w i → ∃ s, w.record = some s ∧ s.iid = i

/-! ## What the calls of a command come to -/

namespace Replies

/-- The zone loop's launch, from its `n`-th turn on. -/
def launchedFrom (r : Replies) : Nat → List Zone → Option (InstanceId × Zone)
  | _, [] => none
  | n, _ :: rest =>
    match r.launch n with
    | .ok found => some found
    | .error e => if e.notProvided then r.launchedFrom (n + 1) rest else none

/-- What `start` launches. -/
def launched (r : Replies) : Option (InstanceId × Zone) :=
  match r.zones with
  | .ok zones => r.launchedFrom 0 zones
  | .error _ => none

/-- An error other than a `ClientError` ends `terminate`. -/
def Raises (r : Replies) : Prop :=
  r.terminateInstances = .error .botocore ∨ r.describeSpotInstanceRequests = .error .botocore ∨
    ∃ sirs, r.describeSpotInstanceRequests = .ok sirs ∧ sirs ≠ [] ∧
      r.cancelSpotInstanceRequests = .error .botocore

end Replies

/-- The instance is named if EC2 took the call. -/
def World.terminated (w : World) (r : Replies) (i : InstanceId) : World :=
  match r.terminateInstances with
  | .ok () => { w with named := i :: w.named }
  | .error _ => w

theorem launchFrom_eq (r : Replies) (n : Nat) (zones : List Zone) (w : World) :
    (∃ i zone, r.launchedFrom n zones = some (i, zone) ∧
      launchFrom r n zones w = (.ok (i, zone), { w with launched := i :: w.launched })) ∨
    (r.launchedFrom n zones = none ∧ ∃ e, launchFrom r n zones w = (.error e, w)) := by
  induction zones generalizing n with
  | nil => exact Or.inr ⟨rfl, _, rfl⟩
  | cons zone rest ih =>
    cases hlaunch : r.launch n with
    | ok found =>
      refine Or.inl ⟨found.1, found.2, ?_, ?_⟩
      · simp [Replies.launchedFrom, hlaunch]
      · simp [launchFrom, Py.tryExcept, launchIn, hlaunch]
    | error e =>
      by_cases he : e.notProvided = true
      · have hfrom : r.launchedFrom n (zone :: rest) = r.launchedFrom (n + 1) rest := by
          simp [Replies.launchedFrom, hlaunch, he]
        have hstep : launchFrom r n (zone :: rest) w = launchFrom r (n + 1) rest w := by
          simp [launchFrom, Py.tryExcept, launchIn, hlaunch, he]
        rw [hfrom, hstep]
        exact ih (n + 1)
      · refine Or.inr ⟨?_, e, ?_⟩
        · simp [Replies.launchedFrom, hlaunch, he]
        · simp [launchFrom, Py.tryExcept, launchIn, hlaunch, he]

/-- `terminate` names the instance if EC2 takes the call, whether or not another one raises. -/
theorem terminate_raises (h : r.Raises) (i : InstanceId) (w : World) :
    terminate r i w = (.error (.ec2 .botocore), w.terminated r i) := by
  obtain ⟨_, _, _, _, _, terminated, requests, cancelled⟩ := r
  rcases terminated with (_ | _) | _ <;> rcases requests with (_ | _) | (_ | ⟨sir, sirs⟩) <;>
    rcases cancelled with (_ | _) | _ <;> first | rfl | simp [Replies.Raises] at h

theorem terminate_returns (h : ¬ r.Raises) (i : InstanceId) (w : World) :
    terminate r i w = (.ok (), w.terminated r i) := by
  obtain ⟨_, _, _, _, _, terminated, requests, cancelled⟩ := r
  rcases terminated with (_ | _) | _ <;> rcases requests with (_ | _) | (_ | ⟨sir, sirs⟩) <;>
    rcases cancelled with (_ | _) | _ <;> first | rfl | simp [Replies.Raises] at h

/-- `stop` names it too, and never raises. -/
theorem stop_eq (r : Replies) (i : InstanceId) (w : World) :
    stop r i w = (.ok (), w.terminated r i) := by
  unfold stop Py.tryExcept
  by_cases h : r.Raises
  · rw [terminate_raises h]
    rfl
  · rw [terminate_returns h]

/-! ## What a command does -/

theorem cmdStop_raises {s : Record} (hs : w.record = some s) (h : r.Raises) :
    (cmdStop r w).2 = w.terminated r s.iid := by
  have hload : load w = (.ok (some s), w) := by rw [load, hs]
  rw [cmdStop, Py.bind_ok hload]
  exact congrArg Prod.snd (Py.bind_error (terminate_raises h s.iid w))

theorem cmdStop_returns {s : Record} (hs : w.record = some s) (h : ¬ r.Raises) :
    (cmdStop r w).2 = { w.terminated r s.iid with record := none } := by
  have hload : load w = (.ok (some s), w) := by rw [load, hs]
  rw [cmdStop, Py.bind_ok hload]
  exact congrArg Prod.snd (Py.bind_ok (terminate_returns h s.iid w))

theorem cmdStop_none (hs : w.record = none) : (cmdStop r w).2 = w := by
  have hload : load w = (.ok none, w) := by rw [load, hs]
  rw [cmdStop, Py.bind_ok hload]
  rfl

/-- The record of a server that `start` launched and waited for. -/
def recordOf (a : Args) (i : InstanceId) (zone : Zone) (ip : List Char) : Record :=
  { iid := i, ip := ip, zone := zone, type := a.type, size := a.size }

variable {a : Args} {i : InstanceId} {zone : Zone} {ip : List Char}

theorem start_none (h : r.launched = none) (w : World) : ∃ e, start B r w = (.error e, w) := by
  unfold Replies.launched at h
  cases hzones : r.zones with
  | error e =>
    have hlift : lift r.zones w = (.error e, w) := by rw [lift, hzones]
    exact ⟨e, by rw [start, Py.bind_error hlift]⟩
  | ok zones =>
    have hlift : lift r.zones w = (.ok zones, w) := by rw [lift, hzones]
    simp only [hzones] at h
    obtain ⟨i, zone, hsome, -⟩ | ⟨-, e, hfrom⟩ := launchFrom_eq r 0 zones w
    · rw [h] at hsome
      cases hsome
    · exact ⟨e, by rw [start, Py.bind_ok hlift, Py.bind_error hfrom]⟩

/-- What `start` does once a server was launched. -/
theorem start_some (h : r.launched = some (i, zone)) (w : World) :
    start B r w =
      (match awaitReady B r 0 0 [] with
        | some ip => return (i, zone, ip)
        | none => do
          stop r i
          Py.raise (.systemExit "nginx server never became ready") : Calling _)
        { w with launched := i :: w.launched } := by
  unfold Replies.launched at h
  cases hzones : r.zones with
  | error e =>
    simp only [hzones] at h
    cases h
  | ok zones =>
    have hlift : lift r.zones w = (.ok zones, w) := by rw [lift, hzones]
    simp only [hzones] at h
    obtain ⟨i', zone', hsome, hfrom⟩ | ⟨hnone, -⟩ := launchFrom_eq r 0 zones w
    · obtain ⟨rfl, rfl⟩ := Prod.mk.inj (Option.some_inj.mp (hsome.symm.trans h))
      exact (Py.bind_ok hlift).trans (Py.bind_ok hfrom)
    · rw [h] at hnone
      cases hnone

/-- A `start` that finds the recorded server live, or launches none. -/
theorem cmdStart_idle (h : (w.record.isSome && r.live) = true ∨ r.launched = none) :
    (cmdStart B a r w).2 = w := by
  have hload : load w = (.ok w.record, w) := rfl
  rw [cmdStart, Py.bind_ok hload]
  by_cases hlive : (w.record.isSome && r.live) = true
  · rw [if_pos hlive]
    rfl
  · obtain ⟨e, hstart⟩ := start_none (B := B) (h.resolve_left hlive) w
    rw [if_neg hlive]
    exact congrArg Prod.snd (Py.bind_error hstart)

theorem cmdStart_ready (hlive : (w.record.isSome && r.live) = false)
    (hlaunched : r.launched = some (i, zone)) (hready : awaitReady B r 0 0 [] = some ip) :
    (cmdStart B a r w).2 =
      { w with record := some (recordOf a i zone ip), launched := i :: w.launched } := by
  have hload : load w = (.ok w.record, w) := rfl
  have hstart := start_some (B := B) hlaunched w
  rw [hready] at hstart
  rw [cmdStart, Py.bind_ok hload, if_neg (by rw [hlive]; exact Bool.false_ne_true)]
  exact congrArg Prod.snd (Py.bind_ok hstart)

theorem cmdStart_unready (hlive : (w.record.isSome && r.live) = false)
    (hlaunched : r.launched = some (i, zone)) (hready : awaitReady B r 0 0 [] = none) :
    (cmdStart B a r w).2 = { w with launched := i :: w.launched }.terminated r i := by
  have hload : load w = (.ok w.record, w) := rfl
  have hstart := start_some (B := B) hlaunched w
  rw [hready] at hstart
  have hstop := stop_eq r i { w with launched := i :: w.launched }
  rw [cmdStart, Py.bind_ok hload, if_neg (by rw [hlive]; exact Bool.false_ne_true)]
  exact congrArg Prod.snd (Py.bind_error (hstart.trans (Py.bind_ok hstop)))

/-! ## One command -/

/-- What the calls of a command may answer if no server is to be lost. -/
def Kept (B : Builtins) (w : World) (e : Event) : Prop :=
  match e.command with
  | .start _ => ∀ i zone, (w.record.isSome && e.replies.live) = false →
      e.replies.launched = some (i, zone) →
      if (awaitReady B e.replies 0 0 []).isSome then
        ∀ s, w.record = some s → ¬ Outstanding w s.iid
      else e.replies.terminateInstances = .ok ()
  | .status => True
  | .stop => ∀ s, w.record = some s → Outstanding w s.iid →
      e.replies.terminateInstances = .ok () ∨ e.replies.Raises

/-- What is launched is outstanding, beside what was. -/
theorem outstanding_launched {record : Option Record} (hlaunched : i ∉ w.launched)
    (hnamed : i ∉ w.named) (j : InstanceId) :
    Outstanding { w with record := record, launched := i :: w.launched } j ↔
      j = i ∨ Outstanding w j := by
  unfold Outstanding
  rw [List.mem_cons]
  constructor
  · rintro ⟨rfl | hj, hnot⟩
    · exact Or.inl rfl
    · exact Or.inr ⟨hj, hnot⟩
  · rintro (rfl | ⟨hj, hnot⟩)
    · exact ⟨Or.inl rfl, hnamed⟩
    · exact ⟨Or.inr hj, hnot⟩

/-- What is named is outstanding no more. -/
theorem outstanding_named {record : Option Record} (j : InstanceId) :
    Outstanding { w with record := record, named := i :: w.named } j ↔ j ≠ i ∧ Outstanding w j := by
  unfold Outstanding
  rw [List.mem_cons, not_or]
  exact and_left_comm

/-- A server that is launched while another one is on record takes its place. -/
theorem onRecord_ready (hlaunched : i ∉ w.launched) (hnamed : i ∉ w.named) :
    OnRecord { w with record := some (recordOf a i zone ip), launched := i :: w.launched } ↔
      OnRecord w ∧ ∀ s, w.record = some s → ¬ Outstanding w s.iid := by
  have hout := @outstanding_launched w i (some (recordOf a i zone ip)) hlaunched hnamed
  constructor
  · intro hall
    have hnone : ∀ j, ¬ Outstanding w j := by
      intro j hj
      obtain ⟨s, hs, hiid⟩ := hall j ((hout j).mpr (Or.inr hj))
      obtain rfl := Option.some_inj.mp hs
      exact hlaunched (hiid ▸ hj.1 : (recordOf a i zone ip).iid ∈ w.launched)
    exact ⟨fun j hj => absurd hj (hnone j), fun s _ => hnone s.iid⟩
  · rintro ⟨hall, hold⟩ j hj
    rcases (hout j).mp hj with rfl | hj
    · exact ⟨_, rfl, rfl⟩
    · obtain ⟨s, hs, rfl⟩ := hall j hj
      exact absurd hj (hold s hs)

theorem onRecord_congr (hrecord : w'.record = w.record)
    (hout : ∀ j, Outstanding w' j ↔ Outstanding w j) : OnRecord w' ↔ OnRecord w := by
  unfold OnRecord
  rw [hrecord]
  exact forall_congr' fun j => imp_congr_left (hout j)

theorem terminated_ok (h : r.terminateInstances = .ok ()) (w : World) (i : InstanceId) :
    w.terminated r i = { w with named := i :: w.named } := by
  rw [World.terminated, h]

theorem terminated_error (h : r.terminateInstances ≠ .ok ()) (w : World) (i : InstanceId) :
    w.terminated r i = w := by
  cases hti : r.terminateInstances with
  | ok u => exact absurd hti h
  | error e => rw [World.terminated, hti]

/-- A server that never became ready is on no record. -/
theorem onRecord_unready (hlaunched : i ∉ w.launched) (hnamed : i ∉ w.named)
    (hrecord : ∀ s, w.record = some s → s.iid ≠ i) :
    OnRecord ({ w with launched := i :: w.launched }.terminated r i) ↔
      OnRecord w ∧ r.terminateInstances = .ok () := by
  have hout := @outstanding_launched w i w.record hlaunched hnamed
  by_cases hti : r.terminateInstances = .ok ()
  · rw [terminated_ok hti, and_iff_left hti]
    refine onRecord_congr rfl fun j => ?_
    rw [outstanding_named (w := { w with launched := i :: w.launched }) j, hout j]
    constructor
    · exact fun ⟨hne, hj⟩ => hj.resolve_left hne
    · exact fun hj => ⟨fun he => hlaunched (he ▸ hj.1), Or.inr hj⟩
  · rw [terminated_error hti]
    refine iff_of_false (fun hall => ?_) fun h => hti h.2
    obtain ⟨s, hs, hiid⟩ := hall i ((hout i).mpr (Or.inl rfl))
    exact hrecord s hs hiid

/-- A `stop` that ends early leaves the record. -/
theorem onRecord_stop_raises {s : Record} (hs : w.record = some s) :
    OnRecord (w.terminated r s.iid) ↔ OnRecord w := by
  by_cases hti : r.terminateInstances = .ok ()
  swap
  · rw [terminated_error hti]
  rw [terminated_ok hti]
  have hout := @outstanding_named w s.iid w.record
  constructor
  · intro hall j hj
    by_cases hne : j = s.iid
    · exact ⟨s, hs, hne.symm⟩
    · exact hall j ((hout j).mpr ⟨hne, hj⟩)
  · exact fun hall j hj => hall j ((hout j).mp hj).2

/-- A `stop` that ends well removes it, whether or not the instance was named. -/
theorem onRecord_stop_returns {s : Record} (hs : w.record = some s) :
    OnRecord { w.terminated r s.iid with record := none } ↔
      OnRecord w ∧ (Outstanding w s.iid → r.terminateInstances = .ok ()) := by
  by_cases hti : r.terminateInstances = .ok ()
  · rw [terminated_ok hti, and_iff_left fun _ => hti]
    have hout := @outstanding_named w s.iid none
    constructor
    · intro hall j hj
      by_cases hne : j = s.iid
      · exact ⟨s, hs, hne.symm⟩
      · obtain ⟨s', hs', -⟩ := hall j ((hout j).mpr ⟨hne, hj⟩)
        cases hs'
    · intro hall j hj
      obtain ⟨hne, hj⟩ := (hout j).mp hj
      obtain ⟨s', hs', rfl⟩ := hall j hj
      rw [hs] at hs'
      cases hs'
      exact absurd rfl hne
  · rw [terminated_error hti]
    constructor
    · intro hall
      have hnone : ∀ j, ¬ Outstanding w j := by
        intro j hj
        obtain ⟨s', hs', -⟩ := hall j hj
        cases hs'
      exact ⟨fun j hj => absurd hj (hnone j), fun hj => absurd hj (hnone _)⟩
    · rintro ⟨hall, hold⟩ j hj
      obtain ⟨s', hs', rfl⟩ := hall j hj
      rw [hs] at hs'
      cases hs'
      exact absurd (hold hj) hti

/-- What a start launches is one of the launches. -/
theorem launchedFrom_mem {n : Nat} {zones : List Zone}
    (h : r.launchedFrom n zones = some (i, zone)) :
    ∃ m, r.launch m = .ok (i, zone) := by
  induction zones generalizing n with
  | nil => cases h
  | cons z rest ih =>
    unfold Replies.launchedFrom at h
    cases hlaunch : r.launch n with
    | ok found =>
      simp only [hlaunch, Option.some.injEq] at h
      exact ⟨n, h ▸ hlaunch⟩
    | error e =>
      simp only [hlaunch] at h
      split at h
      · exact ih h
      · cases h

theorem launched_mem (h : r.launched = some (i, zone)) : ∃ m, r.launch m = .ok (i, zone) := by
  unfold Replies.launched at h
  split at h
  · exact launchedFrom_mem h
  · cases h

theorem step_onRecord (h : Step B w e w') : OnRecord w' ↔ OnRecord w ∧ Kept B w e := by
  obtain ⟨hfresh, rfl⟩ := h
  obtain ⟨command, r⟩ := e
  cases command with
  | status => exact (and_iff_left trivial).symm
  | start a =>
    show OnRecord (cmdStart B a r w).2 ↔ _
    -- a live server is left alone, and where nothing can be launched nothing changes
    by_cases hidle : (w.record.isSome && r.live) = true ∨ r.launched = none
    · rw [cmdStart_idle hidle, and_iff_left]
      intro i zone hlive hlaunched
      rcases hidle with hidle | hidle
      · rw [hlive] at hidle
        cases hidle
      · rw [show r.launched = some (i, zone) from hlaunched] at hidle
        cases hidle
    rw [not_or, Bool.not_eq_true] at hidle
    obtain ⟨hlive, hlaunched⟩ := hidle
    obtain ⟨⟨i, zone⟩, hlaunched⟩ := Option.ne_none_iff_exists'.mp hlaunched
    obtain ⟨m, hm⟩ := launched_mem hlaunched
    obtain ⟨hi, hnamed, hrecord⟩ := hfresh m i zone hm
    have hkept : Kept B w ⟨.start a, r⟩ ↔ if (awaitReady B r 0 0 []).isSome then
        ∀ s, w.record = some s → ¬ Outstanding w s.iid else r.terminateInstances = .ok () :=
      ⟨fun h => h i zone hlive hlaunched, fun h _ _ _ _ => h⟩
    rw [hkept]
    -- the new server is recorded, or terminated again
    cases hready : awaitReady B r 0 0 [] with
    | some ip =>
      rw [cmdStart_ready hlive hlaunched hready, onRecord_ready hi hnamed]
      rfl
    | none =>
      rw [cmdStart_unready hlive hlaunched hready, onRecord_unready hi hnamed hrecord]
      rfl
  | stop =>
    show OnRecord (cmdStop r w).2 ↔ _
    cases hs : w.record with
    | none =>
      rw [cmdStop_none hs, and_iff_left]
      intro s hsome
      rw [hs] at hsome
      cases hsome
    | some s =>
      have hkept : Kept B w ⟨.stop, r⟩ ↔
          (Outstanding w s.iid → r.terminateInstances = .ok () ∨ r.Raises) := by
        refine ⟨fun h => h s hs, fun h s' hs' => ?_⟩
        rw [hs] at hs'
        cases hs'
        exact h
      rw [hkept]
      -- an error that is no `ClientError` ends the command before the record is removed
      by_cases hraises : r.Raises
      · rw [cmdStop_raises hs hraises, onRecord_stop_raises hs,
          and_iff_left fun _ => Or.inr hraises]
      · rw [cmdStop_returns hs hraises, onRecord_stop_returns hs]
        simp only [or_iff_left hraises]

/-! ## Sequences of commands -/

/-- Of the servers on record there is one, and a `stop` whose call EC2 takes leaves none. -/
theorem OnRecord.single (h : OnRecord w) :
    (∀ i j, Outstanding w i → Outstanding w j → i = j) ∧
      ∀ r : Replies, r.terminateInstances = .ok () → ∀ i, ¬ Outstanding (cmdStop r w).2 i := by
  constructor
  · intro i j hi hj
    obtain ⟨s, hs, rfl⟩ := h i hi
    obtain ⟨s', hs', rfl⟩ := h j hj
    rw [hs] at hs'
    cases hs'
    rfl
  · intro r hti i hi
    cases hs : w.record with
    | none =>
      rw [cmdStop_none hs] at hi
      obtain ⟨s, hs', -⟩ := h i hi
      rw [hs] at hs'
      cases hs'
    | some s =>
      have hout : i ≠ s.iid ∧ Outstanding w i := by
        by_cases hraises : r.Raises
        · rw [cmdStop_raises hs hraises, terminated_ok hti] at hi
          exact (@outstanding_named w s.iid w.record i).mp hi
        · rw [cmdStop_returns hs hraises, terminated_ok hti] at hi
          exact (@outstanding_named w s.iid none i).mp hi
      obtain ⟨s', hs', rfl⟩ := h i hout.2
      rw [hs] at hs'
      cases hs'
      exact hout.1 rfl

/--
**The servers that still run are on record exactly if every command's calls answered as `Kept`
says; then there is at most one, and `stop` reaches it.**
-/
theorem onRecord_iff {record : Option Record} (h : Run (Step B) (World.init record) l w) :
    (OnRecord w ↔ Run (Guarded (Step B) (Kept B)) (World.init record) l w) ∧
    (OnRecord w → (∀ i j, Outstanding w i → Outstanding w j → i = j) ∧
      ∀ r : Replies, r.terminateInstances = .ok () → ∀ i, ¬ Outstanding (cmdStop r w).2 i) :=
  ⟨h.iff_guarded (fun _ hi => absurd hi.1 List.not_mem_nil) fun _ _ _ => step_onRecord,
    OnRecord.single⟩

/-- Calls that are taken but perhaps `launch` and `terminate_instances`; a server is ready at once. -/
def answering (launch : Except Raised (InstanceId × Zone))
    (terminateInstances : Except Fault Unit) : Replies :=
  { describeInstances := .ok []
    zones := .ok ["a"]
    launch := fun _ => launch
    console := fun _ => .ok (some "SERVER READY ip=10.0.0.1".toList)
    turn := fun _ => 0
    terminateInstances := terminateInstances
    describeSpotInstanceRequests := .ok []
    cancelSpotInstanceRequests := .ok () }

theorem awaitReady_answering (launch : Except Raised (InstanceId × Zone)) (ti : Except Fault Unit) :
    awaitReady .exact (answering launch ti) 0 0 [] = some "10.0.0.1".toList := by
  have hfound : (serverReady .exact).group1 ((answering launch ti).text 0 []) =
      some "10.0.0.1".toList := by
    show (serverReady .exact).group1 "SERVER READY ip=10.0.0.1".toList = _
    decide
  rw [awaitReady, dif_pos (by decide)]
  simp only [hfound]

/-- One `start`, where nothing is on record. -/
theorem run_start (a : Args) :
    Run (Step .exact) (World.init none) [⟨.start a, answering (.ok (7, "a")) (.ok ())⟩]
      { record := some (recordOf a 7 "a" "10.0.0.1".toList), launched := [7], named := [] } := by
  refine Run.single ⟨fun n i zone _ => ⟨List.not_mem_nil, List.not_mem_nil, nofun⟩, ?_⟩
  have hlaunched : (answering (.ok (7, "a")) (.ok ())).launched = some (7, "a") := rfl
  exact (cmdStart_ready (w := World.init none) rfl hlaunched (awaitReady_answering _ _)).symm

/-- After a `start` its server is on record. -/
theorem onRecord_iff_start :
    ∃ (l : List Event) (w : World), Run (Step .exact) (World.init none) l w ∧
      Outstanding w 7 ∧ OnRecord w ∧ ∀ i j, Outstanding w i → Outstanding w j → i = j := by
  have h := run_start ⟨"r6in.32xlarge", "50G"⟩
  obtain ⟨-, hsingle⟩ := onRecord_iff h
  have hrecord : OnRecord
      { record := some (recordOf ⟨"r6in.32xlarge", "50G"⟩ 7 "a" "10.0.0.1".toList),
        launched := [7], named := [] } := by
    rintro i ⟨hi, -⟩
    exact ⟨_, rfl, (List.mem_singleton.mp hi).symm⟩
  exact ⟨_, _, h, ⟨List.mem_singleton_self 7, List.not_mem_nil⟩, hrecord, (hsingle hrecord).1⟩

/-- A `stop` whose call EC2 refuses removes the record of a server that still runs. -/
theorem unrecorded_stop :
    ∃ (l : List Event) (w : World), Run (Step .exact) (World.init none) l w ∧
      Outstanding w 7 ∧ w.record = none ∧ ¬ OnRecord w := by
  have h := (run_start ⟨"r6in.32xlarge", "50G"⟩).snoc
    (a := ⟨.stop, answering (.error .index) (.error .client)⟩) ⟨nofun, rfl⟩
  refine ⟨_, _, h, ⟨List.mem_singleton_self 7, List.not_mem_nil⟩, rfl, fun hall => ?_⟩
  obtain ⟨s, hs, -⟩ := hall 7 ⟨List.mem_singleton_self 7, List.not_mem_nil⟩
  cases hs

end NginxServer
