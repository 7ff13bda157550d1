import MiniosvCtrl.Bench.Duckdb

/-!
# Whether the machine is asked to terminate

* `Makes` — the calls a computation may add to those made before
* `terminate_called_iff` — `terminate` is called for the instance exactly when EC2's answer to
  `interrupted` is none but a result or a `ClientError`
-/

namespace RunOnce

open Infra Ec2

variable {α β : Type}

/-! ## The calls of a computation -/

/-- Nothing is taken back from what was called, and what is added is in `P`. -/
def Makes (P : Call → Prop) (m : Calling α) : Prop :=
  ∀ made, ∃ l, (m made).2 = made ++ l ∧ ∀ c ∈ l, P c

namespace Makes

variable {P : Call → Prop} {m : Calling α}

theorem of_eq (h : ∀ made, (m made).2 = made) : Makes P m :=
  fun made => ⟨[], by rw [h, List.append_nil], fun _ hc => by cases hc⟩

theorem pure (a : α) : Makes P (return a : Calling α) := of_eq fun _ => rfl

theorem lift (r : Except Raised α) : Makes P (lift r) := of_eq fun _ => rfl

theorem make {c : Call} (h : P c) (reply : Except Raised α) : Makes P (make c reply) :=
  fun _ => ⟨[c], rfl, fun _ hc => List.mem_singleton.mp hc ▸ h⟩

theorem makeEc2 {c : Call} (h : P c) (reply : Reply α) : Makes P (makeEc2 c reply) := make h _

/-- One after the other. -/
theorem trans {n : Calling β} {made l : List Call} (h : (m made).2 = made ++ l)
    (hl : ∀ c ∈ l, P c) (hn : Makes P n) :
    ∃ l', (n (m made).2).2 = made ++ l' ∧ ∀ c ∈ l', P c := by
  obtain ⟨l', hl', hP⟩ := hn (m made).2
  refine ⟨l ++ l', ?_, fun c hc => (List.mem_append.mp hc).elim (hl c) (hP c)⟩
  rw [hl', h, List.append_assoc]

theorem bind {f : α → Calling β} (hm : Makes P m) (hf : ∀ a, Makes P (f a)) :
    Makes P (m >>= f) := by
  intro made
  obtain ⟨l, hl, hP⟩ := hm made
  cases hr : m made with
  | mk r made' =>
    rw [hr] at hl
    cases r with
    | ok a =>
      rw [Py.bind_ok hr]
      have hmade : (m made).2 = made ++ l := by
        rw [hr]
        exact hl
      have htrans := trans hmade hP (hf a)
      rwa [hr] at htrans
    | error e =>
      rw [Py.bind_error hr]
      exact ⟨l, hl, hP⟩

theorem tryExcept {p : Raised → Bool} {h : Calling α} (hm : Makes P m) (hh : Makes P h) :
    Makes P (Py.tryExcept m p h) := by
  intro made
  obtain ⟨l, hl, hP⟩ := hm made
  have htrans := trans hl hP hh
  unfold Py.tryExcept
  split
  · rename_i heq
    rw [heq] at hl
    exact ⟨l, hl, hP⟩
  · rename_i heq
    rw [heq] at hl htrans
    split
    · exact htrans
    · exact ⟨l, hl, hP⟩

theorem tryFinally {f : Calling β} (hm : Makes P m) (hf : Makes P f) :
    Makes P (Py.tryFinally m f) := by
  intro made
  obtain ⟨l, hl, hP⟩ := hm made
  rw [Py.tryFinally_state]
  exact trans hl hP hf

/-- What was called stays called. -/
theorem mem {c : Call} {made : List Call} (hm : Makes P m) (h : c ∈ made) : c ∈ (m made).2 := by
  obtain ⟨l, hl, -⟩ := hm made
  rw [hl]
  exact List.mem_append_left _ h

end Makes

/-! ## The parts of the run -/

section Parts

variable (d : Driver α) (r : Replies) (i : InstanceId)

/-- A call that is not `runner.terminate`. -/
def Call.Plain (c : Call) : Prop := ∀ ids, c ≠ .terminate ids

theorem makes_console (n : Nat) : Makes Call.Plain (console r i n) :=
  .tryExcept (.bind (.makeEc2 (fun _ => Call.noConfusion) _) fun _ => .pure _) (.pure _)

theorem makes_keep (n : Nat) (got text : List Char) : Makes Call.Plain (keep d r n got text) := by
  unfold keep
  split
  · exact .bind (.lift _) fun _ => .pure _
  · exact .pure _

theorem makes_poll (n now : Nat) (text : List Char) : Makes Call.Plain (poll d r i n now text) := by
  induction n, now, text using poll.induct d r with
  | case1 n now text hnow ih =>
    rw [poll, dif_pos hnow]
    refine .bind (makes_console r i n) fun got => .bind (makes_keep d r n got text) fun text => ?_
    split
    · exact .pure _
    · exact ih text
  | case2 n now text hnow =>
    rw [poll, dif_neg hnow]
    exact .pure _

/-- A result, whatever it holds, and a `ClientError` are an answer. -/
theorem interrupted_ok (h : r.describeInstances ≠ .error .botocore) (made : List Call) :
    ∃ b, interrupted r i made = (.ok b, made ++ [.describeInstances i]) := by
  unfold interrupted makeEc2
  cases hd : r.describeInstances with
  | error e =>
    cases e with
    | client => exact ⟨false, rfl⟩
    | botocore => exact absurd hd h
  | ok found =>
    match found with
    | [] => exact ⟨false, rfl⟩
    | [] :: _ => exact ⟨false, rfl⟩
    | (code :: _) :: _ => exact ⟨code == some "Server.SpotInstanceTermination", rfl⟩

theorem interrupted_error (h : r.describeInstances = .error .botocore) (made : List Call) :
    interrupted r i made = (.error (.ec2 .botocore), made ++ [.describeInstances i]) := by
  unfold interrupted makeEc2
  rw [h]
  rfl

/-- Entering `terminate` is the first thing it does. -/
theorem mem_terminate (ids : List InstanceId) (made : List Call) :
    .terminate ids ∈ (terminate r ids made).2 := by
  have hrest : Makes (fun _ => True) (do
      if ids = [] then return ()
      suppress (makeEc2 (.terminateInstances ids) r.terminateInstances)
      let sirs ← Py.tryExcept
        (makeEc2 (.describeSpotInstanceRequests ids) r.describeSpotInstanceRequests)
        (· == .ec2 .client) (return [])
      if sirs = [] then return ()
      suppress (makeEc2 (.cancelSpotInstanceRequests sirs) r.cancelSpotInstanceRequests)) := by
    split
    · exact .pure _
    · refine .bind (.tryExcept (.makeEc2 trivial _) (.pure _)) fun _ =>
        .bind (.tryExcept (.makeEc2 trivial _) (.pure _)) fun sirs => ?_
      split
      · exact .pure _
      · exact .tryExcept (.makeEc2 trivial _) (.pure _)
  exact hrest.mem (List.mem_append_right _ List.mem_cons_self)

theorem mem_takeDown (h : r.describeInstances ≠ .error .botocore) (made : List Call) :
    .terminate [i] ∈ (takeDown r i made).2 := by
  obtain ⟨reclaimed, hinterrupted⟩ := interrupted_ok r i h made
  unfold takeDown
  rw [Py.bind_ok hinterrupted]
  cases hterm : terminate r [i] (made ++ [.describeInstances i]) with
  | mk result after =>
    have hmem := mem_terminate r [i] (made ++ [.describeInstances i])
    rw [hterm] at hmem
    cases result with
    | ok u =>
      rw [Py.bind_ok hterm]
      exact hmem
    | error e =>
      rw [Py.bind_error hterm]
      exact hmem

/-- An exception of `interrupted` leaves the `finally` clause before `terminate`. -/
theorem makes_takeDown (h : r.describeInstances = .error .botocore) :
    Makes Call.Plain (takeDown r i) := by
  intro made
  unfold takeDown
  rw [Py.bind_error (interrupted_error r i h made)]
  refine ⟨[.describeInstances i], rfl, fun c hc => ?_⟩
  rw [List.mem_singleton.mp hc]
  exact fun _ => Call.noConfusion

theorem mem_afterLaunch (h : r.describeInstances ≠ .error .botocore) (made : List Call) :
    .terminate [i] ∈ (afterLaunch d r i made).2 := by
  have hmem := mem_takeDown r i h (poll d r i 0 0 [] made).2
  rw [← Py.tryFinally_state] at hmem
  unfold afterLaunch
  cases hfin : Py.tryFinally (poll d r i 0 0 []) (takeDown r i) made with
  | mk result after =>
    rw [hfin] at hmem
    cases result with
    | ok found =>
      rw [Py.bind_ok hfin]
      have hrest : Makes (fun _ => True) (do
          lift r.writeLast
          lift (d.rows found.1 found.2)) := .bind (.lift _) fun _ => .lift _
      exact hrest.mem hmem
    | error e =>
      rw [Py.bind_error hfin]
      exact hmem

theorem makes_afterLaunch (h : r.describeInstances = .error .botocore) :
    Makes Call.Plain (afterLaunch d r i) :=
  .bind (.tryFinally (makes_poll d r i 0 0 []) (makes_takeDown r i h)) fun _ =>
    .bind (.lift _) fun _ => .lift _

end Parts

/-! ## Every run -/

/-- `runner.launch` returned the id. -/
structure Launches (r : Replies) (i : InstanceId) : Prop where
  live : ∃ up, r.live = .ok up
  launch : r.launch = .ok i

theorem runOnce_eq (d : Driver α) {r : Replies} {i : InstanceId} (h : Launches r i) :
    runOnce d r [] = afterLaunch d r i [.live, .launch] := by
  obtain ⟨⟨up, hlive⟩, hlaunch⟩ := h
  unfold runOnce makeEc2
  rw [hlive, hlaunch]
  rfl

theorem not_mem_runOnce (d : Driver α) {r : Replies} {i : InstanceId} (h : Launches r i)
    (hbotocore : r.describeInstances = .error .botocore) (ids : List InstanceId) :
    .terminate ids ∉ (runOnce d r []).2 := by
  rw [runOnce_eq d h]
  intro hmem
  obtain ⟨l, hl, hplain⟩ := makes_afterLaunch d r i hbotocore [.live, .launch]
  rw [hl] at hmem
  rcases List.mem_append.mp hmem with hmem | hmem
  · simp at hmem
  · exact hplain _ hmem ids rfl

/--
**A launched machine is asked to terminate exactly when `describe_instances`, which the `finally`
clause asks first, does not fail otherwise than with a `ClientError`.** This is so for each of
the drivers, however long it polls and whatever the other calls answer.
-/
theorem terminate_called_iff (d : Driver α) (r : Replies) (i : InstanceId) (h : Launches r i) :
    .terminate [i] ∈ (runOnce d r []).2 ↔ r.describeInstances ≠ .error .botocore := by
  constructor
  · exact fun hmem hbotocore => not_mem_runOnce d h hbotocore [i] hmem
  · intro hne
    rw [runOnce_eq d h]
    exact mem_afterLaunch d r i hne _

/-! ## A login that expires -/

/-- The setting of a run of linux-s3 or duckdb-linux with its defaults. -/
def defaults (b : Runner.Bench) (reclaimed : Bool) : Runner.Setting :=
  { launched := { market := "spot", zone := "eu-north-1a", iid := "i-7", log := "run.log", reclaimed }
    server := none
    benchZone := none
    ip := ""
    cfg := b.knobs.map fun knob => (knob.name, knob.default) }

def linuxS3 : Driver (List (Runner.Record Builtins.exact)) :=
  LinuxS3.driver Builtins.exact (LinuxS3.stack Builtins.exact) 900
    (defaults (LinuxS3.bench Builtins.exact))

def duckdbLinux : Driver (List (Runner.Record Builtins.exact)) :=
  DuckdbLinux.driver Builtins.exact 300 (defaults (DuckdbLinux.bench Builtins.exact))

/-- The run completes at the first reading of its console; then `describe_instances` answers. -/
def completes (describe : Reply Reservations) : Replies :=
  { live := .ok []
    launch := .ok 7
    console := fun _ => .ok (some "COMPLETE: 0 bytes, byte-exact\n".toList)
    turn := fun _ => 1
    write := fun _ => .ok ()
    writeLast := .ok ()
    describeInstances := describe
    terminateInstances := .ok ()
    describeSpotInstanceRequests := .ok []
    cancelSpotInstanceRequests := .ok () }

theorem launches_completes (describe : Reply Reservations) : Launches (completes describe) 7 :=
  ⟨⟨[], rfl⟩, rfl⟩

theorem ok_ne_botocore : (completes (.ok [[some "Client.UserInitiatedShutdown"]])).describeInstances
    ≠ .error .botocore := nofun

theorem terminate_called_iff_completes :
    .terminate [7] ∈
        (runOnce linuxS3 (completes (.ok [[some "Client.UserInitiatedShutdown"]])) []).2 ∧
      .terminate [7] ∈
        (runOnce duckdbLinux (completes (.ok [[some "Client.UserInitiatedShutdown"]])) []).2 :=
  ⟨(terminate_called_iff linuxS3 _ 7 (launches_completes _)).mpr ok_ne_botocore,
    (terminate_called_iff duckdbLinux _ 7 (launches_completes _)).mpr ok_ne_botocore⟩

/-- The login expires between the last reading of the console and the `finally` clause. -/
theorem terminate_not_called :
    ¬ .terminate [7] ∈ (runOnce linuxS3 (completes (.error .botocore)) []).2 ∧
      ¬ .terminate [7] ∈ (runOnce duckdbLinux (completes (.error .botocore)) []).2 :=
  ⟨not_mem_runOnce linuxS3 (launches_completes _) rfl [7],
    not_mem_runOnce duckdbLinux (launches_completes _) rfl [7]⟩

end RunOnce
