import MiniosvCtrl.Queue.CleanUp

/-!
# What `sweep` takes from others

* `Owners.Spared` — kept by every call that names only what is the queue's own
* `spared_sweep` — `sweep` spares whatever it does not look for, whichever calls are refused
* `Owners.Sole`, `spared_iff_sole` — it spares all that is another's exactly when nothing it looks
  for is another's
-/

namespace CleanUp

open Infra Ec2

variable {faults : Nat → Option Fault}

/-! ## The calls -/

namespace Owners.Spared

variable {own : Owners} {a b : Account} {ids : List Id} {id : Id}

theorem refl (own : Owners) (a : Account) : own.Spared a a :=
  ⟨fun _ h _ => h, fun _ h _ => h, fun _ h _ => h⟩

theorem shutDown (h : own.Spared a b) (hids : ∀ id ∈ ids, own.instances id) :
    own.Spared a (b.shutDown ids) where
  instances := fun i hi hnot => by
    have hmem := h.instances i hi hnot
    refine List.mem_map.mpr ⟨i, hmem, if_neg fun hin => hnot (hids _ hin)⟩
  images := h.images
  snapshots := h.snapshots

theorem cancel (h : own.Spared a b) (ids : List Id) : own.Spared a (b.cancel ids) :=
  ⟨h.instances, h.images, h.snapshots⟩

theorem deregister (h : own.Spared a b) (hid : own.images id) :
    own.Spared a (b.deregister id) where
  instances := h.instances
  images := fun im him hnot => by
    refine List.mem_filter.mpr ⟨h.images im him hnot, ?_⟩
    simp only [decide_eq_true_eq]
    rintro rfl
    exact hnot hid
  snapshots := h.snapshots

theorem deleteSnapshot (h : own.Spared a b) (hid : own.snapshots id) :
    own.Spared a (b.deleteSnapshot id) where
  instances := h.instances
  images := h.images
  snapshots := fun s hs hnot => by
    refine List.mem_filter.mpr ⟨h.snapshots s hs hnot, ?_⟩
    simp only [decide_eq_true_eq]
    rintro rfl
    exact hnot hid

end Owners.Spared

section Calls

variable {P : Account → Prop} {w : World}

/-- What both the change and its refusal keep holds after the call. -/
theorem change_of {f : Account → Account} (h : P w.account) (hf : P (f w.account)) :
    P (change faults f w).2.account := by
  unfold change
  split
  · exact h
  · exact hf

@[simp] theorem account_ask {α : Type} (f : Account → α) (w : World) :
    (ask faults f w).2.account = w.account := by
  unfold ask
  split <;> rfl

theorem ask_eq {α : Type} {f : Account → α} {x : α} {w' : World}
    (h : ask faults f w = (.ok x, w')) : x = f w.account ∧ w'.account = w.account := by
  unfold ask at h
  split at h
  · cases h
  · cases h
    exact ⟨rfl, rfl⟩

@[simp] theorem world_suppressed (r : Except Fault Unit × World) : (suppressed r).2 = r.2 := by
  unfold suppressed
  split <;> rfl

end Calls

section Spared

variable {own : Owners} {a : Account}

@[simp] theorem account_spotRequests (ids : List Id) (w : World) :
    (spotRequests faults ids w).2.account = w.account := by
  unfold spotRequests
  split
  · rename_i w' heq
    rw [← account_ask _ w, heq]
  · exact account_ask _ w

variable (faults) in
/-- `terminate` shuts its instances down and cancels requests, at most. -/
theorem terminate_of (P : Account → Prop) {ids : List Id} {w : World} (h : P w.account)
    (hshut : ∀ b, P b → P (b.shutDown ids)) (hcancel : ∀ b sirs, P b → P (b.cancel sirs)) :
    P (terminate faults ids w).2.account := by
  have hdown : P (suppressed (change faults (·.shutDown ids) w)).2.account := by
    rw [world_suppressed]
    exact change_of h (hshut _ h)
  unfold terminate
  split
  · rename_i w₁ heq
    rw [heq] at hdown
    exact hdown
  · rename_i w₁ heq
    rw [heq] at hdown
    have hspot : P (spotRequests faults ids w₁).2.account := by
      rw [account_spotRequests]
      exact hdown
    split
    · rename_i w₂ heq₂
      rw [heq₂] at hspot
      exact hspot
    · rename_i sirs w₂ heq₂
      rw [heq₂] at hspot
      split
      · exact hspot
      · rw [world_suppressed]
        exact change_of hspot (hcancel _ sirs hspot)

variable (faults) in
theorem spared_deleteAll {l : List Id} {w : World} (h : own.Spared a w.account)
    (hl : ∀ s ∈ l, own.snapshots s) : own.Spared a (deleteAll faults l w).2.account := by
  induction l generalizing w with
  | nil => exact h
  | cons snap rest ih =>
    have hsnap : own.Spared a (suppressed (change faults (·.deleteSnapshot snap) w)).2.account := by
      rw [world_suppressed]
      exact change_of h (h.deleteSnapshot (hl _ List.mem_cons_self))
    unfold deleteAll
    split
    · rename_i w₁ heq
      rw [heq] at hsnap
      exact hsnap
    · rename_i w₁ heq
      rw [heq] at hsnap
      exact ih hsnap fun s hs => hl s (List.mem_cons_of_mem _ hs)

theorem spared_deregisterAll {since : Int} {l : List Image} {w : World}
    (h : own.Spared a w.account)
    (hl : ∀ im ∈ l, since ≤ im.creationDate →
      own.images im.id ∧ ∀ s ∈ im.snapshots, own.snapshots s) :
    own.Spared a (deregisterAll faults since l w).2.account := by
  induction l generalizing w with
  | nil => exact h
  | cons im rest ih =>
    have hrest : ∀ im ∈ rest, since ≤ im.creationDate →
        own.images im.id ∧ ∀ s ∈ im.snapshots, own.snapshots s :=
      fun im him => hl im (List.mem_cons_of_mem _ him)
    unfold deregisterAll
    split
    · exact ih h hrest
    · rename_i hdate
      obtain ⟨him, hsnaps⟩ := hl im List.mem_cons_self (by omega)
      have hder : own.Spared a (change faults (·.deregister im.id) w).2.account :=
        change_of h (h.deregister him)
      split
      · rename_i w₁ heq
        rw [heq] at hder
        exact hder
      · rename_i w₁ heq
        rw [heq] at hder
        have hdel := spared_deleteAll faults hder hsnaps
        split
        · rename_i w₂ heq₂
          rw [heq₂] at hdel
          exact hdel
        · rename_i w₂ heq₂
          rw [heq₂] at hdel
          exact ih hdel hrest

end Spared

/-! ## The sweep -/

/-- The log files name the instance. -/
def Named (since : Int) (files : List LogFile) (id : Id) : Prop :=
  ∃ mine, launched since files = some mine ∧ id ∈ mine

/-- What a sweep looks for is the queue's own. -/
structure Owners.Sole (own : Owners) (since : Int) (files : List LogFile) (a : Account) :
    Prop where
  instances : ∀ i ∈ a.instances, ourInstance since i = true → Named since files i.id →
    own.instances i.id
  images : launched since files ≠ none → ∀ im ∈ a.images, deployed im = true →
    since ≤ im.creationDate → own.images im.id
  snapshots : launched since files ≠ none → ∀ im ∈ a.images, deployed im = true →
    since ≤ im.creationDate → ∀ s ∈ im.snapshots, s ∈ a.snapshots → own.snapshots s

/-- What is not there is nobody's to lose. -/
def Owners.orAbsent (own : Owners) (a : Account) : Owners :=
  { own with snapshots := fun s => s ∈ a.snapshots → own.snapshots s }

theorem Owners.Spared.of_orAbsent {own : Owners} {a b : Account}
    (h : (own.orAbsent a).Spared a b) : own.Spared a b :=
  ⟨h.instances, h.images, fun s hs hnot => h.snapshots s hs fun himp => hnot (himp hs)⟩

section Sweep

variable {own : Owners} {a : Account} {since : Int} {files : List LogFile}

variable (faults) in
/-- The instances' part: others keep theirs, and the images are as they were. -/
theorem spared_sweepInstances {w : World} (hsole : own.Sole since files w.account) :
    own.Spared w.account (sweepInstances faults since files w).2.account ∧
      (sweepInstances faults since files w).2.account.images = w.account.images ∧
      ((sweepInstances faults since files w).1 = .ok (some ()) → launched since files ≠ none) := by
  -- nothing is touched but in the last branch, where instances are ours and in the logs
  unfold sweepInstances
  split
  · rename_i e w₁ heq
    have hacc : w₁.account = w.account := by
      rw [← account_ask _ w, heq]
    rw [hacc]
    exact ⟨.refl own _, rfl, fun h => by cases h⟩
  · rename_i up w₁ heq
    obtain ⟨rfl, hacc⟩ := ask_eq heq
    split
    · rw [hacc]
      exact ⟨.refl own _, rfl, fun h => by cases h⟩
    · rename_i mine hmine
      have hsome : launched since files ≠ none := by
        rw [hmine]
        exact Option.some_ne_none _
      dsimp only
      split
      · rw [hacc]
        exact ⟨.refl own _, rfl, fun _ => hsome⟩
      · have hids : ∀ id ∈ ((w.account.instances.filter (ourInstance since)).map
            Instance.id).filter (· ∈ mine), own.instances id := by
          intro id hid
          obtain ⟨hmem, hlog⟩ := List.mem_filter.mp hid
          obtain ⟨i, hi, rfl⟩ := List.mem_map.mp hmem
          obtain ⟨hi, hour⟩ := List.mem_filter.mp hi
          exact hsole.instances i hi hour ⟨mine, hmine, by simpa using hlog⟩
        have hbefore : own.Spared w.account w₁.account ∧ w₁.account.images = w.account.images :=
          ⟨hacc ▸ .refl own _, by rw [hacc]⟩
        have hterm := terminate_of faults
          (fun b => own.Spared w.account b ∧ b.images = w.account.images) hbefore
          (fun b hb => ⟨hb.1.shutDown hids, hb.2⟩) (fun b sirs hb => ⟨hb.1.cancel sirs, hb.2⟩)
        split
        · rename_i e w₂ heq₂
          rw [heq₂] at hterm
          exact ⟨hterm.1, hterm.2, fun h => by cases h⟩
        · rename_i w₂ heq₂
          rw [heq₂] at hterm
          exact ⟨hterm.1, hterm.2, fun _ => hsome⟩

/-- The images' part, on the account as the sweep found it but for the instances. -/
theorem spared_sweepImages {w : World} (h : own.Spared a w.account)
    (himages : w.account.images = a.images) (hsole : own.Sole since files a)
    (hlogs : launched since files ≠ none) :
    own.Spared a (sweepImages faults since w).account := by
  unfold sweepImages
  split
  · rename_i e w₁ heq
    have hacc : w₁.account = w.account := by
      rw [← account_ask _ w, heq]
    rw [hacc]
    exact h
  · rename_i imgs w₁ heq
    obtain ⟨rfl, hacc⟩ := ask_eq heq
    have hfrom : (own.orAbsent a).Spared a w₁.account := by
      rw [hacc]
      exact ⟨h.instances, h.images, fun s hs hnot =>
        h.snapshots s hs fun hown => hnot fun _ => hown⟩
    refine (spared_deregisterAll hfrom fun im him hdate => ?_).of_orAbsent
    obtain ⟨him, hdep⟩ := List.mem_filter.mp him
    rw [himages] at him
    exact ⟨hsole.images hlogs im him hdep hdate,
      fun s hs hmem => hsole.snapshots hlogs im him hdep hdate s hs hmem⟩

/-- **Whatever calls are refused, a sweep spares what it does not look for.** -/
theorem spared_sweep {started : Int} {w : World}
    (hsole : own.Sole (started - 60) files w.account) :
    own.Spared w.account (sweep faults started files w).account := by
  obtain ⟨hspared, himages, hlogs⟩ := spared_sweepInstances faults hsole
  unfold sweep
  dsimp only
  split
  · rename_i w₁ heq
    rw [heq] at hspared himages hlogs
    exact spared_sweepImages hspared himages hsole (hlogs rfl)
  · rename_i r w₁ _ heq
    rw [heq] at hspared
    exact hspared

end Sweep

/-! ## A sweep no call of which is refused -/

section Unrefused

/-- Every call is answered. -/
def answered : Nat → Option Fault := fun _ => none

theorem change_answered (f : Account → Account) (w : World) :
    change answered f w = (.ok (), { w.tick with account := f w.account }) := rfl

theorem ask_answered {α : Type} (f : Account → α) (w : World) :
    ask answered f w = (.ok (f w.account), w.tick) := rfl

theorem suppressed_ok (w : World) : suppressed (.ok (), w) = (.ok (), w) := rfl

theorem deleteAll_answered (l : List Id) (w : World) :
    (deleteAll answered l w).1 = .ok () ∧
      (deleteAll answered l w).2.account.instances = w.account.instances ∧
      (deleteAll answered l w).2.account.images = w.account.images ∧
      ∀ s ∈ (deleteAll answered l w).2.account.snapshots, s ∈ w.account.snapshots ∧ s ∉ l := by
  induction l generalizing w with
  | nil => exact ⟨rfl, rfl, rfl, fun s hs => ⟨hs, List.not_mem_nil⟩⟩
  | cons snap rest ih =>
    rw [deleteAll, change_answered, suppressed_ok]
    obtain ⟨hok, hinst, himg, hsnap⟩ :=
      ih { w.tick with account := w.account.deleteSnapshot snap }
    refine ⟨hok, hinst, himg, fun s hs => ?_⟩
    obtain ⟨hmem, hrest⟩ := hsnap s hs
    obtain ⟨hmem, hne⟩ := List.mem_filter.mp hmem
    refine ⟨hmem, fun hin => ?_⟩
    rcases List.mem_cons.mp hin with rfl | hin
    · simp at hne
    · exact hrest hin

theorem deregisterAll_cons {since : Int} {im : Image} (h : ¬ im.creationDate < since)
    (rest : List Image) (w : World) :
    deregisterAll answered since (im :: rest) w = deregisterAll answered since rest
      (deleteAll answered im.snapshots
        { w.tick with account := w.account.deregister im.id }).2 := by
  have hok := (deleteAll_answered im.snapshots
    { w.tick with account := w.account.deregister im.id }).1
  rw [deregisterAll, if_neg h, change_answered]
  dsimp only
  split
  · rename_i heq
    rw [heq] at hok
    cases hok
  · rename_i heq
    rw [heq]

/-- No image of the list that is recent enough is left, nor a snapshot of one. -/
theorem deregisterAll_answered (since : Int) (l : List Image) (w : World) :
    (deregisterAll answered since l w).2.account.instances = w.account.instances ∧
      (∀ x ∈ (deregisterAll answered since l w).2.account.images, x ∈ w.account.images ∧
        ∀ im ∈ l, since ≤ im.creationDate → x.id ≠ im.id) ∧
      ∀ s ∈ (deregisterAll answered since l w).2.account.snapshots, s ∈ w.account.snapshots ∧
        ∀ im ∈ l, since ≤ im.creationDate → s ∉ im.snapshots := by
  induction l generalizing w with
  | nil => exact ⟨rfl, fun x hx => ⟨hx, nofun⟩, fun s hs => ⟨hs, nofun⟩⟩
  | cons im rest ih =>
    by_cases hdate : im.creationDate < since
    · rw [deregisterAll, if_pos hdate]
      obtain ⟨hinst, himgs, hsnaps⟩ := ih w
      refine ⟨hinst, fun x hx => ⟨(himgs x hx).1, fun im' him' hrecent => ?_⟩,
        fun s hs => ⟨(hsnaps s hs).1, fun im' him' hrecent => ?_⟩⟩
      · rcases List.mem_cons.mp him' with rfl | him'
        · omega
        · exact (himgs x hx).2 im' him' hrecent
      · rcases List.mem_cons.mp him' with rfl | him'
        · omega
        · exact (hsnaps s hs).2 im' him' hrecent
    · rw [deregisterAll_cons hdate]
      obtain ⟨-, hinst₁, himgs₁, hsnaps₁⟩ := deleteAll_answered im.snapshots
        { w.tick with account := w.account.deregister im.id }
      obtain ⟨hinst, himgs, hsnaps⟩ := ih (deleteAll answered im.snapshots
        { w.tick with account := w.account.deregister im.id }).2
      refine ⟨hinst.trans hinst₁, fun x hx => ?_, fun s hs => ?_⟩
      · obtain ⟨hmem, hrest⟩ := himgs x hx
        rw [himgs₁] at hmem
        obtain ⟨hmem, hne⟩ := List.mem_filter.mp hmem
        refine ⟨hmem, fun im' him' hrecent => ?_⟩
        rcases List.mem_cons.mp him' with rfl | him'
        · simpa using hne
        · exact hrest im' him' hrecent
      · obtain ⟨hmem, hrest⟩ := hsnaps s hs
        obtain ⟨hmem, hnot⟩ := hsnaps₁ s hmem
        refine ⟨hmem, fun im' him' hrecent => ?_⟩
        rcases List.mem_cons.mp him' with rfl | him'
        · exact hnot
        · exact hrest im' him' hrecent

theorem terminate_answered (ids : List Id) (w : World) :
    (terminate answered ids w).1 = .ok () ∧
      (terminate answered ids w).2.account.instances = (w.account.shutDown ids).instances ∧
      (terminate answered ids w).2.account.images = w.account.images ∧
      (terminate answered ids w).2.account.snapshots = w.account.snapshots := by
  unfold terminate
  rw [change_answered, suppressed_ok]
  dsimp only [spotRequests]
  rw [ask_answered]
  dsimp only
  split
  · exact ⟨rfl, rfl, rfl, rfl⟩
  · rw [change_answered, suppressed_ok]
    exact ⟨rfl, rfl, rfl, rfl⟩

/-- The instances' part, if the logs can be read. -/
theorem sweepInstances_answered {since : Int} {files : List LogFile} {mine : List Id}
    (hmine : launched since files = some mine) (w : World) :
    (sweepInstances answered since files w).1 = .ok (some ()) ∧
      (sweepInstances answered since files w).2.account.instances =
        (w.account.shutDown (((w.account.instances.filter (ourInstance since)).map
          Instance.id).filter (· ∈ mine))).instances ∧
      (sweepInstances answered since files w).2.account.images = w.account.images ∧
      (sweepInstances answered since files w).2.account.snapshots = w.account.snapshots := by
  unfold sweepInstances
  rw [ask_answered]
  dsimp only
  rw [hmine]
  dsimp only
  split
  · rename_i hnil
    rw [hnil]
    refine ⟨rfl, ?_, rfl, rfl⟩
    simp [World.tick, Account.shutDown]
  · have hterm := terminate_answered (((w.account.instances.filter (ourInstance since)).map
      Instance.id).filter (· ∈ mine)) w.tick
    split
    · rename_i heq
      rw [heq] at hterm
      cases hterm.1
    · rename_i heq
      rw [heq] at hterm
      exact ⟨rfl, hterm.2⟩

/-- An instance that was up is not as it was. -/
theorem not_mem_shutDown {a : Account} {since : Int} {i : Instance} {ids : List Id}
    (hour : ourInstance since i = true) (hid : i.id ∈ ids) :
    i ∉ (a.shutDown ids).instances := by
  intro hmem
  obtain ⟨j, -, hj⟩ := List.mem_map.mp hmem
  have hup : i.state = .pending ∨ i.state = .running := by
    simp only [ourInstance, Bool.and_eq_true, Bool.or_eq_true, beq_iff_eq] at hour
    exact hour.1.2
  split at hj
  · subst hj
    revert hup
    cases j.state <;> simp [InstanceState.shut]
  · rename_i hnot
    exact hnot (hj ▸ hid)

/-- So nothing of what the sweep looked for is as it was. -/
theorem sole_of_spared {own : Owners} {started : Int} {files : List LogFile} {w : World}
    (h : own.Spared w.account (sweep answered started files w).account) :
    own.Sole (started - 60) files w.account := by
  cases hmine : launched (started - 60) files with
  | none =>
    refine ⟨?_, fun hne => absurd hmine hne, fun hne => absurd hmine hne⟩
    rintro i hi hour ⟨mine, hsome, -⟩
    rw [hmine] at hsome
    cases hsome
  | some mine =>
    obtain ⟨hok, hinst, himgs, hsnaps⟩ := sweepInstances_answered hmine w
    -- every call is answered, so the sweep goes on to the images
    have hsweep : sweep answered started files w =
        sweepImages answered (started - 60)
          (sweepInstances answered (started - 60) files w).2 := by
      unfold sweep
      dsimp only
      split
      · rename_i heq
        rw [heq]
      · rename_i hne heq
        rw [heq] at hok
        exact absurd hok (hne ·)
    have hdereg := deregisterAll_answered (started - 60)
      ((sweepInstances answered (started - 60) files w).2.account.images.filter deployed)
      (sweepInstances answered (started - 60) files w).2.tick
    rw [hsweep, sweepImages, ask_answered] at h
    dsimp only at h
    obtain ⟨hinst₂, himgs₂, hsnaps₂⟩ := hdereg
    refine ⟨fun i hi hour hnamed => ?_, fun _ im him hdep hdate => ?_,
      fun _ im him hdep hdate s hs hmem => ?_⟩
    · by_contra hnot
      -- it would be left, but what was named is not
      have hleft := h.instances i hi hnot
      rw [hinst₂] at hleft
      change i ∈ (sweepInstances answered (started - 60) files w).2.account.instances at hleft
      rw [hinst] at hleft
      refine not_mem_shutDown hour (List.mem_filter.mpr ⟨List.mem_map_of_mem
        (List.mem_filter.mpr ⟨hi, hour⟩), ?_⟩) hleft
      obtain ⟨mine', hmine', hlog⟩ := hnamed
      rw [hmine, Option.some_inj] at hmine'
      simpa [hmine'] using hlog
    · by_contra hnot
      refine (himgs₂ im (h.images im him hnot)).2 im ?_ hdate rfl
      rw [himgs]
      exact List.mem_filter.mpr ⟨him, hdep⟩
    · by_contra hnot
      refine (hsnaps₂ s (h.snapshots s hmem hnot)).2 im ?_ hdate hs
      rw [himgs]
      exact List.mem_filter.mpr ⟨him, hdep⟩

end Unrefused

/--
**A sweep spares all that is another's, whatever calls are refused, exactly when nothing it
looks for is another's.**
-/
theorem spared_iff_sole (own : Owners) (started : Int) (files : List LogFile) (w : World) :
    (∀ faults, own.Spared w.account (sweep faults started files w).account) ↔
      own.Sole (started - 60) files w.account :=
  ⟨fun h => sole_of_spared (h answered), fun h _ => spared_sweep h⟩

/-! ## Another checkout deploys -/

/-- The image a driver in another checkout has just made, while this queue ends. -/
def othersImage : Image :=
  { id := "ami-2", name := "miniosv-loader-1760000100", self := true, creationDate := 1760000100
    snapshots := ["snap-2"] }

/-- No run of this queue has made anything. -/
def nothing : Owners :=
  { instances := fun _ => False, images := fun _ => False, snapshots := fun _ => False }

theorem othersImage_deregistered : ¬ ∀ (own : Owners) (started : Int) (files : List LogFile)
    (w : World) (faults : Nat → Option Fault),
    own.Spared w.account (sweep faults started files w).account := by
  intro h
  have hspared := h nothing 1760000000 []
    ⟨{ instances := [], requests := [], images := [othersImage], snapshots := ["snap-2"] }, 0⟩
    answered
  have hleft := hspared.images othersImage (by decide) id
  exact absurd hleft (by decide)

end CleanUp
