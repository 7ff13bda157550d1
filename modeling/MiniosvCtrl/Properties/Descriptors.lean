import MiniosvCtrl.Infra.Lists
import MiniosvCtrl.LinuxPerfevent.PerfEvent

/-!
# Every counter that is opened is closed once

Whatever machine it is, whichever opens fail, and whichever descriptors the kernel gives:

* `construct_owns` — a `PerfEvent` holds the descriptors of its events, and nothing else
* `region_owns` — during a region it holds those of the two counters that are read
* `regions_leave` — after a run the process has open what it had before
-/

namespace PerfEvent

open Infra

variable {k : Kernel} {m : Machine} {p : Process} {base : List Nat}

/-- What the process holds beside `base`. -/
abbrev Holds (base : List Nat) (fds : List Int) (p : Process) : Prop := p.fds.Owns base fds

/-- The descriptors among what the opens returned. -/
def granted (events : List Event) : List Int :=
  (events.map Event.fd).filter fun fd => decide (0 ≤ fd)

/-! ## The constructor -/

theorem openAll_holds (cs : List Counter) {fds : List Int} (h : Holds base fds p) :
    Holds base (fds ++ granted (openAll k p cs).2) (openAll k p cs).1 ∧
      (openAll k p cs).2.map Event.toCounter = cs := by
  induction cs generalizing p fds with
  | nil => exact ⟨by simpa [openAll, granted] using h, rfl⟩
  | cons c cs ih =>
    cases hg : k.grant p.calls p.fds.isOpen c with
    | some fd =>
      have hstep : Holds base (fds ++ [(fd : Int)]) ⟨p.calls + 1, p.fds.grant fd⟩ :=
        h.grant (k.fresh _ _ _ _ hg)
      obtain ⟨hrest, hnames⟩ := ih hstep
      simp only [openAll, perfEventOpen, hg, List.map_cons, hnames]
      refine ⟨?_, trivial⟩
      rw [granted, List.map_cons, List.filter_cons_of_pos (by simp)]
      rwa [List.append_assoc] at hrest
    | none =>
      have hstep : Holds base fds ⟨p.calls + 1, p.fds⟩ := h
      obtain ⟨hrest, hnames⟩ := ih hstep
      simp only [openAll, perfEventOpen, hg, List.map_cons, hnames]
      refine ⟨?_, trivial⟩
      rw [granted, List.map_cons, List.filter_cons_of_neg (by simp)]
      exact hrest

/-- What a constructor leaves: all that was registered is open, or nothing is. -/
theorem construct_owns (h : Holds base [] p) :
    Holds base (Counters.construct k m p).2.fds (Counters.construct k m p).1 ∧
      ((Counters.construct k m p).2.events.map Event.toCounter = counters m ∧
          (Counters.construct k m p).2.error = none ∨
        (Counters.construct k m p).2.events = [] ∧
          ∃ c ∈ counters m,
            (Counters.construct k m p).2.error = some ("Error opening counter " ++ c.name)) := by
  obtain ⟨hopen, hnames⟩ := openAll_holds (k := k) (counters m) h
  rw [List.nil_append] at hopen
  unfold Counters.construct
  simp only
  split
  case h_1 e he =>
    refine ⟨hopen.closeAll, Or.inr ⟨rfl, e.toCounter, ?_, rfl⟩⟩
    rw [← hnames]
    exact List.mem_map_of_mem (List.mem_of_find?_eq_some he)
  case h_2 hnone =>
    refine ⟨?_, Or.inl ⟨hnames, rfl⟩⟩
    -- no open failed, so every event has a descriptor
    have hall : granted (openAll k p (counters m)).2 =
        (openAll k p (counters m)).2.map Event.fd := by
      refine List.filter_eq_self.mpr fun fd hfd => ?_
      obtain ⟨e, he, rfl⟩ := List.mem_map.mp hfd
      have := List.find?_eq_none.mp hnone e he
      simpa using this
    rw [hall] at hopen
    exact hopen

/-! ## The counters that are read -/

/-- The names of the counters that are not of every machine. -/
def Uncore (c : Counter) : Prop :=
  ∃ c₀ ∈ ['L', 'D', 'U'], ∃ rest, c.name.toList = c₀ :: rest

theorem uncore_l3 (type cpuMask : Int) : ∀ c ∈ l3Counters type cpuMask, Uncore c := by
  intro c hc
  simp only [l3Counters, List.mem_cons, List.not_mem_nil, or_false] at hc
  rcases hc with rfl | rfl | rfl
  · exact ⟨'L', by decide, _, by simp only [String.toList_append]; rfl⟩
  · exact ⟨'D', by decide, _, by simp only [String.toList_append]; rfl⟩
  · exact ⟨'D', by decide, _, by simp only [String.toList_append]; rfl⟩

theorem uncore_umc (i : Nat) (type cpuMask : Int) : ∀ c ∈ umcCounters i type cpuMask, Uncore c := by
  intro c hc
  simp only [umcCounters, List.mem_cons, List.not_mem_nil, or_false] at hc
  rcases hc with rfl | rfl
  · exact ⟨'U', by decide, _, by simp only [String.toList_append]; rfl⟩
  · exact ⟨'U', by decide, _, by simp only [String.toList_append]; rfl⟩

theorem uncore_unit {files : List Char × List Char} {f : Int → Int → List Counter}
    {cs : List Counter} (hf : ∀ type cpuMask, ∀ c ∈ f type cpuMask, Uncore c)
    (h : unit files f = some cs) : ∀ c ∈ cs, Uncore c := by
  unfold unit at h
  split at h
  case h_1 type _ =>
    obtain rfl := Option.some.inj h
    intro c hc
    obtain ⟨cpuMask, -, hc⟩ := List.mem_flatMap.mp hc
    exact hf type cpuMask c hc
  case h_2 => cases h

theorem uncore_umcUnits (i : Nat) (umc : List (List Char × List Char)) :
    ∀ c ∈ umcUnits i umc, Uncore c := by
  induction umc generalizing i with
  | nil => exact fun c hc => absurd hc List.not_mem_nil
  | cons files umc ih =>
    intro c hc
    unfold umcUnits at hc
    split at hc
    case h_1 cs hcs =>
      rcases List.mem_append.mp hc with hc | hc
      · exact uncore_unit (uncore_umc i) hcs c hc
      · exact ih (i + 1) c hc
    case h_2 => exact absurd hc List.not_mem_nil

theorem Uncore.name_ne {c : Counter} (h : Uncore c) {name : String}
    (hname : name ∈ Counters.keep) : c.name ≠ name := by
  obtain ⟨c₀, hc₀, rest, hrest⟩ := h
  rintro rfl
  simp only [Counters.keep, List.mem_cons, List.not_mem_nil, or_false] at hname
  rcases hname with hname | hname
  · rw [hname] at hrest
    obtain rfl : 'i' = c₀ := (List.cons.inj hrest).1
    exact absurd hc₀ (by decide)
  · rw [hname] at hrest
    obtain rfl : 'b' = c₀ := (List.cons.inj hrest).1
    exact absurd hc₀ (by decide)

/-- **Of what is registered, two counters have the names that are kept.** -/
theorem filter_counters {name : String} (hname : name ∈ Counters.keep) :
    (counters m).filter (·.name = name) = defaults.filter (·.name = name) := by
  have hnone : ∀ cs : List Counter, (∀ c ∈ cs, Uncore c) → cs.filter (·.name = name) = [] :=
    fun cs hcs => List.filter_eq_nil_iff.mpr fun c hc =>
      by simpa using (hcs c hc).name_ne hname
  have hl3 : ∀ c ∈ (unit m.l3 l3Counters).getD [], Uncore c := by
    cases h : unit m.l3 l3Counters with
    | none => exact fun c hc => absurd hc List.not_mem_nil
    | some cs => exact uncore_unit uncore_l3 h
  rw [counters, List.filter_append, List.filter_append, hnone _ hl3,
    hnone _ (uncore_umcUnits 0 m.umc), List.append_nil, List.append_nil]

/-! ## What is closed, and when -/

/-- What `prune` keeps, and what it closes, are the events it was given. -/
theorem prune_perm {e : Counters} (hfds : ∀ ev ∈ e.events, 0 ≤ ev.fd) :
    (e.events.filter (fun ev => !e.kept.any (·.name = ev.name) && ev.fd != -1) ++ e.kept).Perm
      e.events := by
  have hkept : e.kept.Perm (e.events.filter fun ev => decide (ev.name ∈ Counters.keep)) := by
    have hflat : e.kept = Counters.keep.flatMap fun name =>
        (e.events.filter fun ev => decide (ev.name ∈ Counters.keep)).filter (·.name = name) := by
      refine List.flatMap_congr fun name hname => ?_
      rw [List.filter_filter]
      refine List.filter_congr fun ev _ => ?_
      by_cases hev : ev.name = name
      · simp [hev, hname]
      · simp [hev]
    rw [hflat]
    exact flatMap_filter_perm (fun ev : Event => ev.name) (by decide)
      fun ev hev => of_decide_eq_true (List.mem_filter.mp hev).2
  have hgone : e.events.filter (fun ev => !e.kept.any (·.name = ev.name) && ev.fd != -1) =
      e.events.filter fun ev => !decide (ev.name ∈ Counters.keep) := by
    refine List.filter_congr fun ev hev => ?_
    have hopen : (ev.fd != -1) = true := bne_iff_ne.mpr (by have := hfds ev hev; omega)
    have hany : e.kept.any (·.name = ev.name) = decide (ev.name ∈ Counters.keep) := by
      rw [Bool.eq_iff_iff, List.any_eq_true, decide_eq_true_eq]
      constructor
      · rintro ⟨x, hx, hname⟩
        have hmem := of_decide_eq_true (List.mem_filter.mp (hkept.mem_iff.mp hx)).2
        rwa [of_decide_eq_true hname] at hmem
      · intro hmem
        exact ⟨ev, hkept.mem_iff.mpr (List.mem_filter.mpr ⟨hev, decide_eq_true hmem⟩),
          decide_eq_true rfl⟩
    rw [hopen, hany, Bool.and_true]
  rw [hgone]
  exact (hkept.append_left _).trans
    (List.perm_append_comm.trans (List.filter_append_perm _ e.events))

theorem prune_holds {e : Counters} (h : Holds base e.fds p) :
    Holds base (e.prune p).2.fds (e.prune p).1 := by
  have hfds : ∀ ev ∈ e.events, 0 ≤ ev.fd := fun ev hev =>
    h.nonneg ev.fd (List.mem_map_of_mem hev)
  have hperm := ((prune_perm hfds).map Event.fd).symm
  rw [List.map_append] at hperm
  exact Fds.Owns.closeAll_append (h.of_perm hperm)

theorem events_kept (m : Machine) (e : Counters)
    (h : e.events.map Event.toCounter = counters m) :
    e.kept.map (·.name) = Counters.keep := by
  have hname : ∀ name ∈ Counters.keep,
      (e.events.filter (·.name = name)).map Event.toCounter =
        defaults.filter (·.name = name) := fun name hname => by
    rw [← filter_counters (m := m) hname, ← h, List.filter_map]
    rfl
  have hkept : e.kept.map Event.toCounter =
      Counters.keep.flatMap fun name => defaults.filter (·.name = name) := by
    rw [Counters.kept, List.map_flatMap]
    exact List.flatMap_congr hname
  calc e.kept.map (·.name)
      = (e.kept.map Event.toCounter).map Counter.name := by rw [List.map_map]; rfl
    _ = Counters.keep := by rw [hkept]; rfl

/--
**During a region the process holds the descriptors of the counters that are read.** These are
`instr` and `br-miss`, in this order, or none, when an open failed.
-/
theorem region_owns (h : Holds base [] p) :
    Holds base (region k m p).2.fds (region k m p).1 ∧
      ((region k m p).2.events.map (·.name) = ["instr", "br-miss"] ∧
          (region k m p).2.error = none ∨
        (region k m p).2.events = [] ∧ (region k m p).2.error ≠ none) := by
  obtain ⟨hopen, hnames⟩ := construct_owns (k := k) (m := m) h
  refine ⟨prune_holds hopen, ?_⟩
  rcases hnames with ⟨hnames, herror⟩ | ⟨hnone, c, -, herror⟩
  · exact Or.inl ⟨events_kept m _ hnames, herror⟩
  · refine Or.inr ⟨?_, ?_⟩
    · show (Counters.construct k m p).2.kept = []
      simp [Counters.kept, hnone]
    · show (Counters.construct k m p).2.error ≠ none
      rw [herror]
      exact Option.some_ne_none _

theorem holds_regions (n : Nat) (h : Holds base [] p) : Holds base [] (regions k m p n) := by
  induction n generalizing p with
  | zero => exact h
  | succ n ih =>
    have hregion := (region_owns (k := k) (m := m) h).1
    exact ih hregion.closeAll

/--
**However many regions are run, the process ends with what it had open.** No descriptor is closed
twice, and none that is not a counter's.
-/
theorem regions_leave (k : Kernel) (m : Machine) (p : Process) (n : Nat)
    (hnodup : p.fds.isOpen.Nodup) (hbad : p.fds.bad = []) :
    (regions k m p n).fds.isOpen.Perm p.fds.isOpen ∧ (regions k m p n).fds.bad = [] ∧
      ∀ i < n,
        (region k m (regions k m p i)).1.fds.isOpen.Perm
          ((region k m (regions k m p i)).2.fds.map Int.toNat ++ p.fds.isOpen) ∧
        ((region k m (regions k m p i)).2.events.map (·.name) = ["instr", "br-miss"] ∨
          (region k m (regions k m p i)).2.events = [] ∧
            (region k m (regions k m p i)).2.error ≠ none) := by
  have hstart : Holds p.fds.isOpen [] p := Fds.Owns.start hnodup hbad
  have hend := holds_regions (k := k) (m := m) n hstart
  refine ⟨hend.perm, hend.bad, fun i _ => ?_⟩
  obtain ⟨hregion, hnames⟩ := region_owns (k := k) (m := m) (holds_regions i hstart)
  exact ⟨hregion.perm, hnames.imp_left And.left⟩

theorem le_foldr_max {l : List Nat} {n : Nat} (h : n ∈ l) : n ≤ l.foldr Nat.max 0 := by
  induction l with
  | nil => cases h
  | cons m l ih =>
    rcases List.mem_cons.mp h with rfl | h
    · exact Nat.le_max_left ..
    · exact Nat.le_trans (ih h) (Nat.le_max_right ..)

/-- A kernel that gives ten descriptors. -/
def tenOnly : Kernel where
  grant n isOpen _ := if n < 10 then some (isOpen.foldr Nat.max 0 + 1) else none
  fresh := by
    intro n isOpen c fd h hmem
    split at h
    · have hle := le_foldr_max hmem
      have hfd := Option.some.inj h
      omega
    · cases h

/-- Three descriptors are open, and there are no uncore units. -/
def fresh : Process := ⟨0, ⟨[0, 1, 2], []⟩⟩

def plainMachine : Machine := ⟨([], []), []⟩

/-- The second region has no counters. -/
theorem regions_leave_ten :
    (regions tenOnly plainMachine fresh 2).fds.isOpen.Perm [0, 1, 2] ∧
      (regions tenOnly plainMachine fresh 2).fds.bad = [] ∧
      ∀ i < 2,
        (region tenOnly plainMachine (regions tenOnly plainMachine fresh i)).1.fds.isOpen.Perm
          ((region tenOnly plainMachine (regions tenOnly plainMachine fresh i)).2.fds.map
            Int.toNat ++ [0, 1, 2]) ∧
        ((region tenOnly plainMachine (regions tenOnly plainMachine fresh i)).2.events.map
            (·.name) = ["instr", "br-miss"] ∨
          (region tenOnly plainMachine (regions tenOnly plainMachine fresh i)).2.events = [] ∧
            (region tenOnly plainMachine (regions tenOnly plainMachine fresh i)).2.error ≠
              none) :=
  regions_leave tenOnly plainMachine fresh 2 (by decide) rfl

end PerfEvent
