import Mathlib.Data.Fintype.Card
import Mathlib.Data.List.FinRange
import MiniosvCtrl.Infra.Lists
import MiniosvCtrl.LinuxS3.Pool

/-!
# Blocks and barriers over whole runs

* `PoolInv` — the pool hands out `0, 1, 2, …`, and past the last block every thread at most once
* `SlotInv` — what a thread drew is what it finished and the block it holds
* `BarrierInv` — a barrier's counters are the arrivals it received
* `finished_of_stuck` — threads that cannot step have left
* **`blocks_and_barriers`** — every block once, every barrier one arrival from each of its
  threads, and one outcome for each block
-/

namespace LinuxS3

open Infra

variable {c : Config} {s t : State c} {ev : Event c} {l : List (Event c)}

/-! ## Small lemmas about the state -/

@[simp] theorem State.tick_phase (now : Nat) : (s.tick now).phase = s.phase := rfl
@[simp] theorem State.tick_outs (now : Nat) : (s.tick now).outs = s.outs := rfl
@[simp] theorem State.tick_barriers (now : Nat) : (s.tick now).barriers = s.barriers := rfl
@[simp] theorem State.tick_nextBlock (now : Nat) : (s.tick now).nextBlock = s.nextBlock := rfl

@[simp] theorem State.setPhase_outs (i : Slot c) (ph : Phase) :
    (s.setPhase i ph).outs = s.outs := rfl
@[simp] theorem State.setPhase_barriers (i : Slot c) (ph : Phase) :
    (s.setPhase i ph).barriers = s.barriers := rfl
@[simp] theorem State.setPhase_nextBlock (i : Slot c) (ph : Phase) :
    (s.setPhase i ph).nextBlock = s.nextBlock := rfl

@[simp] theorem State.setPhase_self (i : Slot c) (ph : Phase) :
    (s.setPhase i ph).phase i = ph := Function.update_self ..

theorem State.setPhase_other {i j : Slot c} (ph : Phase) (h : j ≠ i) :
    (s.setPhase i ph).phase j = s.phase j := Function.update_of_ne h ..

@[simp] theorem State.setBarrier_phase (w : Fin c.workers.toNat) (b : Barrier) :
    (s.setBarrier w b).phase = s.phase := rfl
@[simp] theorem State.setBarrier_outs (w : Fin c.workers.toNat) (b : Barrier) :
    (s.setBarrier w b).outs = s.outs := rfl
@[simp] theorem State.setBarrier_nextBlock (w : Fin c.workers.toNat) (b : Barrier) :
    (s.setBarrier w b).nextBlock = s.nextBlock := rfl

@[simp] theorem State.push_phase (i : Slot c) (out : Outcome) : (s.push i out).phase = s.phase :=
  rfl
@[simp] theorem State.push_barriers (i : Slot c) (out : Outcome) :
    (s.push i out).barriers = s.barriers := rfl
@[simp] theorem State.push_nextBlock (i : Slot c) (out : Outcome) :
    (s.push i out).nextBlock = s.nextBlock := rfl

/-- A step changes nothing of the other threads. -/
theorem Step.other (h : Step s ev t) {j : Slot c} (hj : j ≠ ev.slot) :
    t.phase j = s.phase j ∧ t.outs j = s.outs j := by
  cases h <;> simp_all [State.setPhase, State.tick, State.setBarrier, State.push]

theorem slot_card (c : Config) :
    Fintype.card (Slot c) = c.workers.toNat * c.connsPerWorker.toNat := by
  rw [Fintype.card_prod, Fintype.card_fin, Fintype.card_fin]

theorem workers_pos (c : Config) : 0 < c.workers.toNat := by
  rw [Nat.pos_iff_ne_zero]
  exact fun h0 => c.workers_ne (UInt64.toNat_inj.mp h0)

theorem connsPerWorker_pos (c : Config) : 0 < c.connsPerWorker.toNat := by
  rw [Nat.pos_iff_ne_zero]
  exact fun h0 => c.connsPerWorker_ne (UInt64.toNat_inj.mp h0)

/-! ## The pool -/

/-- The thread has found the pool empty. -/
def Phase.ended : Phase → Prop
  | .emptied | .idling _ | .arriving none | .waiting none _ | .left => True
  | _ => False

structure PoolInv (l : List (Event c)) (s : State c) : Prop where
  next : s.nextBlock = UInt64.ofNat ((drawn l).length + (emptyHanded l).length)
  drawn_eq : (drawn l).map (fun d => d.2.toNat) = List.range (drawn l).length
  drawn_le : (drawn l).length ≤ c.totalBlocks.toNat
  all_drawn : emptyHanded l ≠ [] → (drawn l).length = c.totalBlocks.toNat
  once : (emptyHanded l).Nodup
  mem : ∀ i, i ∈ emptyHanded l ↔ (s.phase i).ended

/-- The fetches of a run do not go round: past the last block there is room for every thread. -/
def Config.Fits (c : Config) : Prop :=
  c.workers.toNat * c.blocksPerWorker.toNat + c.workers.toNat * c.connsPerWorker.toNat ≤ 2 ^ 64

theorem Config.Fits.totalBlocks (h : c.Fits) :
    c.totalBlocks.toNat = c.workers.toNat * c.blocksPerWorker.toNat := by
  unfold Config.totalBlocks
  have hpos := Nat.mul_pos (workers_pos c) (connsPerWorker_pos c)
  unfold Config.Fits at h
  rw [UInt64.toNat_mul, Nat.mod_eq_of_lt (by omega)]

/-- A thread that has not found the pool empty leaves room for one more fetch. -/
theorem PoolInv.room (hinv : PoolInv l s) (hfit : c.Fits) {i : Slot c} (hi : ¬ (s.phase i).ended) :
    s.nextBlock.toNat = (drawn l).length + (emptyHanded l).length := by
  have hnot : i ∉ emptyHanded l := fun hmem => hi ((hinv.mem i).mp hmem)
  have hcard : (i :: emptyHanded l).length ≤ Fintype.card (Slot c) :=
    (List.nodup_cons.mpr ⟨hnot, hinv.once⟩).length_le_card
  have hle := hinv.drawn_le
  rw [hfit.totalBlocks] at hle
  rw [slot_card, List.length_cons] at hcard
  unfold Config.Fits at hfit
  rw [hinv.next, UInt64.toNat_ofNat', Nat.mod_eq_of_lt (by omega)]

theorem poolInv_init : PoolInv [] (State.init c) := by
  refine ⟨rfl, rfl, Nat.zero_le _, fun h => absurd rfl h, List.nodup_nil, fun i => ?_⟩
  simp [emptyHanded, State.init, Phase.ended]

/-- A step that fetches nothing and stays on its side of the pool keeps the invariant. -/
theorem PoolInv.of_quiet (hinv : PoolInv l s) (hd : drawn (l ++ [ev]) = drawn l)
    (he : emptyHanded (l ++ [ev]) = emptyHanded l) (hn : t.nextBlock = s.nextBlock)
    (hm : ∀ i, (t.phase i).ended ↔ (s.phase i).ended) : PoolInv (l ++ [ev]) t := by
  refine ⟨?_, ?_, ?_, ?_, ?_, fun i => ?_⟩
  · rw [hd, he, hn]; exact hinv.next
  · rw [hd]; exact hinv.drawn_eq
  · rw [hd]; exact hinv.drawn_le
  · rw [hd, he]; exact hinv.all_drawn
  · rw [he]; exact hinv.once
  · rw [he, hm]; exact hinv.mem i

/-- Whether each thread is past the loop changes only if the stepping thread's phase does. -/
theorem Step.ended_iff (h : Step s ev t)
    (hown : (t.phase ev.slot).ended ↔ (s.phase ev.slot).ended) (i : Slot c) :
    (t.phase i).ended ↔ (s.phase i).ended := by
  by_cases hi : i = ev.slot
  · rw [hi]; exact hown
  · rw [(h.other hi).1]

/-- Only a thread that finds the pool empty goes past the loop. -/
theorem Step.ended_own (h : Step s ev t) (hdraw : ∀ b, ev.act = .fetch b → b < c.totalBlocks) :
    (t.phase ev.slot).ended ↔ (s.phase ev.slot).ended := by
  cases h with
  | draw hclock hph hlt =>
    simp only [State.tick_phase, State.setPhase_self, hph]
    split <;> exact Iff.rfl
  | drain hclock hph hle => exact absurd (hdraw _ rfl) (UInt64.not_lt.mpr hle)
  | look hclock hph => simp [hph, Phase.ended]
  | publish hclock hph =>
    simp only [State.tick_phase, State.setPhase_self, hph]
    split <;> exact Iff.rfl
  | @arriveWait i now g blk b hclock hph hwait => cases blk <;> simp [hph, Phase.ended]
  | @arriveLead i now blk b hclock hph hwait =>
    cases blk <;> simp [hph, Phase.ended, Phase.leads]
  | @wake i now g blk hclock hph hgen => cases blk <;> simp [hph, Phase.ended, Phase.passed]
  | start hclock hph => simp [hph, Phase.ended]
  | finish hclock hph => simp [hph, Phase.ended]

theorem step_poolInv (hfit : c.Fits) (hinv : PoolInv l s) (h : Step s ev t) :
    PoolInv (l ++ [ev]) t := by
  have hended := h.ended_iff
  have hown := h.ended_own
  cases h with
  | @draw i now hclock hph hlt =>
    have hnext := hinv.room hfit (i := i) (by rw [hph]; exact id)
    have hltN : s.nextBlock.toNat < c.totalBlocks.toNat := UInt64.lt_iff_toNat_lt.mp hlt
    -- there is a block to draw, so nobody has been told that there is none
    have hempty : emptyHanded l = [] := by
      by_contra hne
      have := hinv.all_drawn hne
      omega
    have hd : drawn (l ++ [⟨i, .fetch s.nextBlock, now⟩]) = drawn l ++ [(i, s.nextBlock)] := by
      simp [drawn, hlt]
    have he : emptyHanded (l ++ [⟨i, .fetch s.nextBlock, now⟩]) = emptyHanded l := by
      simp [emptyHanded, hlt]
    have hs := hinv.next
    rw [hempty, List.length_nil, Nat.add_zero] at hnext hs
    refine ⟨?_, ?_, ?_, ?_, ?_, fun j => ?_⟩
    · show s.nextBlock + 1 = _
      rw [hd, he, hempty, List.length_append, List.length_singleton, List.length_nil,
        Nat.add_zero, UInt64.ofNat_add, ← hs]
      rfl
    · rw [hd, List.map_append, hinv.drawn_eq, List.length_append, List.length_singleton,
        List.range_succ, List.map_singleton, hnext]
    · rw [hd, List.length_append, List.length_singleton]
      omega
    · rw [he, hempty]
      exact fun hne => absurd rfl hne
    · rw [he]; exact hinv.once
    · rw [he, hinv.mem]
      refine (hended (hown fun b hb => ?_) j).symm
      cases hb
      exact hlt
  | @drain i now hclock hph hle =>
    have hnot : ¬ (s.phase i).ended := by rw [hph]; exact id
    have hnext := hinv.room hfit hnot
    have hleN : c.totalBlocks.toNat ≤ s.nextBlock.toNat := UInt64.le_iff_toNat_le.mp hle
    have hnlt : ¬ s.nextBlock < c.totalBlocks := UInt64.not_lt.mpr hle
    have hd : drawn (l ++ [⟨i, .fetch s.nextBlock, now⟩]) = drawn l := by
      simp [drawn, hnlt]
    have he : emptyHanded (l ++ [⟨i, .fetch s.nextBlock, now⟩]) = emptyHanded l ++ [i] := by
      simp [emptyHanded, hnlt]
    -- the counter passes the last block only when every block was drawn
    have hall : (drawn l).length = c.totalBlocks.toNat := by
      by_cases hempty : emptyHanded l = []
      · rw [hempty, List.length_nil] at hnext
        have := hinv.drawn_le
        omega
      · exact hinv.all_drawn hempty
    refine ⟨?_, ?_, ?_, ?_, ?_, fun j => ?_⟩
    · show s.nextBlock + 1 = _
      rw [hd, he, List.length_append, List.length_singleton, ← Nat.add_assoc,
        UInt64.ofNat_add, ← hinv.next]
      rfl
    · rw [hd]; exact hinv.drawn_eq
    · rw [hd]; exact hinv.drawn_le
    · rw [hd]; exact fun _ => hall
    · rw [he, List.nodup_append]
      refine ⟨hinv.once, List.nodup_singleton i, ?_⟩
      rintro a ha b hb rfl
      rw [List.mem_singleton] at hb
      subst hb
      exact hnot ((hinv.mem a).mp ha)
    · rw [he, List.mem_append, List.mem_singleton, hinv.mem, State.tick_phase]
      by_cases hj : j = i
      · rw [hj, State.setPhase_self]
        exact ⟨fun _ => trivial, fun _ => Or.inr rfl⟩
      · rw [State.setPhase_other _ hj]
        exact ⟨fun hor => hor.resolve_right hj, Or.inl⟩
  | _ =>
    exact hinv.of_quiet (by simp [drawn]) (by simp [emptyHanded]) rfl
      (hended (hown fun b hb => by cases hb))

/-! ## One thread -/

/-- The block a thread drew and has not finished. -/
def Phase.holding : Phase → List UInt64
  | .arriving (some b) | .waiting (some b) _ | .leading b | .running b => [b]
  | _ => []

def drawnBy (i : Slot c) (l : List (Event c)) : List UInt64 :=
  ((drawn l).filter fun d => d.1 = i).map Prod.snd

def endingsOf (i : Slot c) (l : List (Event c)) : List (Ending c) :=
  (endings l).filter fun e => e.slot = i

/-- The block a step draws. -/
def Event.draws (ev : Event c) : List UInt64 :=
  match ev.act with
  | .fetch b => if b < c.totalBlocks then [b] else []
  | _ => []

def Event.ends (ev : Event c) : List (Ending c) :=
  match ev.act with
  | .finish b e => [⟨ev.slot, b, ev.now, e⟩]
  | _ => []

theorem drawn_snoc : drawn (l ++ [ev]) = drawn l ++ ev.draws.map (Prod.mk ev.slot) := by
  obtain ⟨i, act, now⟩ := ev
  cases act with
  | fetch b =>
    by_cases hb : b < c.totalBlocks
    · simp [drawn, Event.draws, hb]
    · simp [drawn, Event.draws, hb]
  | _ => simp [drawn, Event.draws]

theorem endings_snoc : endings (l ++ [ev]) = endings l ++ ev.ends := by
  obtain ⟨i, act, now⟩ := ev
  cases act <;> simp [endings, Event.ends]

theorem drawnBy_self : drawnBy ev.slot (l ++ [ev]) = drawnBy ev.slot l ++ ev.draws := by
  rw [drawnBy, drawn_snoc, List.filter_append, List.map_append, ← drawnBy]
  simp [List.filter_map, Function.comp_def]

theorem drawnBy_other {i : Slot c} (h : i ≠ ev.slot) : drawnBy i (l ++ [ev]) = drawnBy i l := by
  have hne : ev.slot ≠ i := fun he => h he.symm
  rw [drawnBy, drawn_snoc, List.filter_append, List.map_append, ← drawnBy]
  simp [List.filter_map, Function.comp_def, hne]

theorem Event.ends_slot {e : Ending c} (h : e ∈ ev.ends) : e.slot = ev.slot := by
  obtain ⟨i, act, now⟩ := ev
  cases act <;> simp_all [Event.ends]

theorem endingsOf_self : endingsOf ev.slot (l ++ [ev]) = endingsOf ev.slot l ++ ev.ends := by
  rw [endingsOf, endings_snoc, List.filter_append, ← endingsOf]
  congr 1
  rw [List.filter_eq_self]
  exact fun e he => decide_eq_true (Event.ends_slot he)

theorem endingsOf_other {i : Slot c} (h : i ≠ ev.slot) :
    endingsOf i (l ++ [ev]) = endingsOf i l := by
  rw [endingsOf, endings_snoc, List.filter_append, ← endingsOf]
  have hnil : ev.ends.filter (fun e => decide (e.slot = i)) = [] := by
    rw [List.filter_eq_nil_iff]
    intro e he
    rw [Event.ends_slot he]
    exact decide_eq_true_iff.not.mpr fun he => h he.symm
  rw [hnil, List.append_nil]

/-- How many of a thread's steps are not accounted for by two for each outcome. -/
def Phase.spent (fresh : Bool) : Phase → Nat
  | .fetching => if fresh then 0 else 2
  | .arriving (some _) => 1
  | .waiting (some _) _ => 2
  | .leading _ => 2
  | .running _ => 3
  | .emptied => 3
  | .idling _ => 4
  | .arriving none => 5
  | .waiting none _ => 6
  | .left => 7

structure SlotInv (l : List (Event c)) (s : State c) (i : Slot c) : Prop where
  held : drawnBy i l = (endingsOf i l).map Ending.block ++ (s.phase i).holding
  outs : s.outs i = (endingsOf i l).map Ending.outcome
  fresh : ∀ blk, s.phase i = .arriving blk → s.outs i = []
  steps : (l.filter fun ev => ev.slot = i).length ≤
    2 * (s.outs i).length + (s.phase i).spent (s.outs i).isEmpty

theorem slotInv_init (i : Slot c) : SlotInv [] (State.init c) i :=
  ⟨rfl, rfl, fun _ _ => rfl, Nat.zero_le _⟩

/-- What a step draws is what it finishes and what the thread holds afterwards. -/
theorem Step.holding (h : Step s ev t) :
    (s.phase ev.slot).holding ++ ev.draws =
      ev.ends.map Ending.block ++ (t.phase ev.slot).holding := by
  cases h with
  | draw hclock hph hlt =>
    simp only [hph, Event.draws, if_pos hlt, State.tick_phase, State.setPhase_self]
    split <;> rfl
  | drain hclock hph hle =>
    simp [hph, Event.draws, Event.ends, Phase.holding, UInt64.not_lt.mpr hle]
  | look hclock hph => simp [hph, Event.draws, Event.ends, Phase.holding]
  | publish hclock hph =>
    simp only [hph, State.tick_phase, State.setPhase_self]
    split <;> rfl
  | @arriveWait i now g blk b hclock hph hwait =>
    cases blk <;> simp [hph, Event.draws, Event.ends, Phase.holding]
  | @arriveLead i now blk b hclock hph hwait =>
    cases blk <;> simp [hph, Event.draws, Event.ends, Phase.holding, Phase.leads]
  | @wake i now g blk hclock hph hgen =>
    cases blk <;> simp [hph, Event.draws, Event.ends, Phase.holding, Phase.passed]
  | start hclock hph => simp [hph, Event.draws, Event.ends, Phase.holding]
  | finish hclock hph => simp [hph, Event.draws, Event.ends, Phase.holding]

theorem Step.outs (h : Step s ev t) :
    t.outs ev.slot = s.outs ev.slot ++ ev.ends.map Ending.outcome := by
  cases h <;> simp [Event.ends, State.push, Ending.outcome]

/-- Only a thread without an outcome goes to the barrier. -/
theorem Step.fresh (h : Step s ev t) {blk : Option UInt64}
    (hph' : t.phase ev.slot = .arriving blk) : t.outs ev.slot = [] := by
  cases h with
  | draw hclock hph hlt =>
    rw [State.tick_phase, State.setPhase_self] at hph'
    split at hph'
    · next hempty => exact List.isEmpty_iff.mp hempty
    · cases hph'
  | publish hclock hph =>
    rw [State.tick_phase, State.setPhase_self] at hph'
    split at hph'
    · next hempty => exact List.isEmpty_iff.mp hempty
    · cases hph'
  | @arriveLead i now blk b hclock hph hwait =>
    rw [State.tick_phase, State.setPhase_self] at hph'
    cases blk <;> cases hph'
  | @wake i now g blk hclock hph hgen =>
    rw [State.tick_phase, State.setPhase_self] at hph'
    cases blk <;> cases hph'
  | _ =>
    rw [State.tick_phase, State.setPhase_self] at hph'
    cases hph'

/-- Every step is paid for by an outcome or by the thread's progress. -/
theorem Step.spent (h : Step s ev t) (hfresh : ∀ blk, s.phase ev.slot = .arriving blk →
      s.outs ev.slot = []) :
    2 * (s.outs ev.slot).length + (s.phase ev.slot).spent (s.outs ev.slot).isEmpty + 1 ≤
      2 * (t.outs ev.slot).length + (t.phase ev.slot).spent (t.outs ev.slot).isEmpty := by
  cases h with
  | draw hclock hph hlt =>
    cases (s.outs _).isEmpty <;> simp [hph, Phase.spent]
  | drain hclock hph hle =>
    cases (s.outs _).isEmpty <;> simp [hph, Phase.spent]
  | look hclock hph => simp [hph, Phase.spent]
  | publish hclock hph =>
    cases (s.outs _).isEmpty <;> simp [hph, Phase.spent]
  | @arriveWait i now g blk b hclock hph hwait =>
    cases blk <;> simp [hph, Phase.spent]
  | @arriveLead i now blk b hclock hph hwait =>
    cases blk <;> simp [hph, Phase.spent, Phase.leads]
  | @wake i now g blk hclock hph hgen =>
    cases blk <;> simp [hph, Phase.spent, Phase.passed]
  | start hclock hph => simp [hph, Phase.spent]
  | @finish i now b e hclock hph =>
    simp [hph, Phase.spent, State.push]
    omega

theorem step_slotInv {i : Slot c} (hinv : SlotInv l s i) (h : Step s ev t) :
    SlotInv (l ++ [ev]) t i := by
  by_cases hi : i = ev.slot
  · subst hi
    refine ⟨?_, ?_, fun blk => h.fresh, ?_⟩
    · rw [drawnBy_self, endingsOf_self, hinv.held, List.append_assoc, h.holding,
        List.map_append, List.append_assoc]
    · rw [endingsOf_self, h.outs, hinv.outs, List.map_append]
    · have hspent := h.spent hinv.fresh
      have hsteps := hinv.steps
      have hlen : ((l ++ [ev]).filter fun e => e.slot = ev.slot).length =
          (l.filter fun e => e.slot = ev.slot).length + 1 := by
        rw [List.filter_append, List.length_append]
        simp
      omega
  · obtain ⟨hphase, houts⟩ := h.other hi
    refine ⟨?_, ?_, ?_, ?_⟩
    · rw [drawnBy_other hi, endingsOf_other hi, hphase]; exact hinv.held
    · rw [endingsOf_other hi, houts]; exact hinv.outs
    · rw [hphase, houts]; exact hinv.fresh
    · have hne : ev.slot ≠ i := fun he => hi he.symm
      rw [hphase, houts, List.filter_append, List.filter_singleton]
      simpa [hne] using hinv.steps

/-! ## The barriers -/

/-- The thread has arrived at its worker's barrier. -/
def Arrived (s : State c) (i : Slot c) : Prop :=
  match s.phase i with
  | .fetching | .emptied | .idling _ => s.outs i ≠ []
  | .arriving _ => False
  | _ => True

structure BarrierInv (l : List (Event c)) (s : State c) : Prop where
  mem : ∀ w k, k ∈ received w l ↔ Arrived s (w, k)
  once : ∀ w, (received w l).Nodup
  count : ∀ w, (s.barriers w).count + c.connsPerWorker.toNat * (s.barriers w).generation =
    (received w l).length
  lt : ∀ w, (s.barriers w).count < c.connsPerWorker.toNat
  gen : ∀ i blk g, s.phase i = .waiting blk g → g = 0

theorem barrierInv_init : BarrierInv [] (State.init c) := by
  refine ⟨fun w k => ?_, fun w => List.nodup_nil, fun w => rfl, fun w => connsPerWorker_pos c, ?_⟩
  · simp [received, Arrived, State.init]
  · intro i blk g h
    cases h

/-- A step other than an arrival keeps who has arrived. -/
theorem Step.arrived_iff (h : Step s ev t) (hact : ev.act ≠ .arrive) (i : Slot c) :
    Arrived t i ↔ Arrived s i := by
  by_cases hi : i = ev.slot
  · subst hi
    cases h with
    | @draw i now hclock hph hlt =>
      by_cases hempty : s.outs i = [] <;> simp [Arrived, hph, hempty]
    | drain hclock hph hle => simp [Arrived, hph]
    | look hclock hph => simp [Arrived, hph]
    | @publish i now t hclock hph =>
      by_cases hempty : s.outs i = [] <;> simp [Arrived, hph, hempty]
    | arriveWait => exact absurd rfl hact
    | arriveLead => exact absurd rfl hact
    | @wake i now g blk hclock hph hgen => cases blk <;> simp [Arrived, hph, Phase.passed]
    | start hclock hph => simp [Arrived, hph]
    | finish hclock hph => simp [Arrived, hph, State.push]
  · unfold Arrived
    rw [(h.other hi).1, (h.other hi).2]

theorem received_quiet (hact : ev.act ≠ .arrive) (w : Fin c.workers.toNat) :
    received w (l ++ [ev]) = received w l := by
  obtain ⟨i, act, now⟩ := ev
  cases act with
  | arrive => exact absurd rfl hact
  | _ => simp [received]

theorem received_arrive (i : Slot c) (now : Nat) (w : Fin c.workers.toNat) :
    received w (l ++ [⟨i, .arrive, now⟩]) = received w l ++ if i.1 = w then [i.2] else [] := by
  by_cases hw : i.1 = w <;> simp [received, hw]

theorem Step.barriers_eq (h : Step s ev t) (hact : ev.act ≠ .arrive) :
    t.barriers = s.barriers := by
  cases h with
  | arriveWait => exact absurd rfl hact
  | arriveLead => exact absurd rfl hact
  | _ => rfl

/-- Only an arrival makes a thread wait. -/
theorem Step.waiting_of (h : Step s ev t) (hact : ev.act ≠ .arrive) {i : Slot c}
    {blk : Option UInt64} {g : Nat} (hph' : t.phase i = .waiting blk g) :
    s.phase i = .waiting blk g := by
  by_cases hi : i = ev.slot
  · subst hi
    cases h with
    | arriveWait => exact absurd rfl hact
    | arriveLead => exact absurd rfl hact
    | draw hclock hph hlt =>
      rw [State.tick_phase, State.setPhase_self] at hph'
      split at hph' <;> cases hph'
    | publish hclock hph =>
      rw [State.tick_phase, State.setPhase_self] at hph'
      split at hph' <;> cases hph'
    | @wake i now g blk hclock hph hgen =>
      rw [State.tick_phase, State.setPhase_self] at hph'
      cases blk <;> cases hph'
    | _ =>
      rw [State.tick_phase, State.setPhase_self] at hph'
      cases hph'
  · rw [← (h.other hi).1]; exact hph'

/-- Before its last arrival a barrier is in its first generation. -/
theorem BarrierInv.generation_eq_zero (hinv : BarrierInv l s) {i : Slot c} (hi : ¬ Arrived s i) :
    (s.barriers i.1).generation = 0 ∧ (s.barriers i.1).count = (received i.1 l).length ∧
      (received i.1 l).length < c.connsPerWorker.toNat := by
  have hnot : i.2 ∉ received i.1 l := fun hmem => hi ((hinv.mem i.1 i.2).mp hmem)
  have hcard : (i.2 :: received i.1 l).length ≤ Fintype.card (Fin c.connsPerWorker.toNat) :=
    (List.nodup_cons.mpr ⟨hnot, hinv.once i.1⟩).length_le_card
  rw [Fintype.card_fin, List.length_cons] at hcard
  have hcount := hinv.count i.1
  cases hg : (s.barriers i.1).generation with
  | zero =>
    rw [hg] at hcount
    exact ⟨rfl, by omega, by omega⟩
  | succ g =>
    exfalso
    rw [hg, Nat.mul_succ] at hcount
    omega

/-- What an arrival does to its barrier, whichever way `wait` goes on. -/
theorem BarrierInv.arrive (hinv : BarrierInv l s) {i : Slot c} {now : Nat} {b : Barrier}
    {ph : Phase} {blk : Option UInt64} (hph : s.phase i = .arriving blk)
    (harr : Arrived (((s.setBarrier i.1 b).setPhase i ph).tick now) i)
    (hcount : b.count + c.connsPerWorker.toNat * b.generation = (received i.1 l).length + 1)
    (hlt : b.count < c.connsPerWorker.toNat) (hgen : ∀ blk' g, ph = .waiting blk' g → g = 0) :
    BarrierInv (l ++ [⟨i, .arrive, now⟩]) (((s.setBarrier i.1 b).setPhase i ph).tick now) := by
  have hnot : ¬ Arrived s i := by simp [Arrived, hph]
  -- nobody else arrives or leaves by it
  have hother : ∀ j, j ≠ i → (Arrived (((s.setBarrier i.1 b).setPhase i ph).tick now) j ↔
      Arrived s j) := by
    intro j hj
    simp [Arrived, State.setPhase_other _ hj]
  have hb : ∀ w, w ≠ i.1 → (((s.setBarrier i.1 b).setPhase i ph).tick now).barriers w =
      s.barriers w := fun w hw => Function.update_of_ne hw ..
  have hbi : (((s.setBarrier i.1 b).setPhase i ph).tick now).barriers i.1 = b :=
    Function.update_self ..
  refine ⟨fun w k => ?_, fun w => ?_, fun w => ?_, fun w => ?_, fun j blk' g hj => ?_⟩
  · rw [received_arrive, List.mem_append, hinv.mem]
    -- who has arrived is who had, and this thread
    by_cases hk : (w, k) = i
    · subst hk
      exact ⟨fun _ => harr, fun _ => Or.inr (by simp)⟩
    · rw [hother _ hk]
      refine ⟨fun hor => hor.resolve_right fun hmem => ?_, Or.inl⟩
      split at hmem
      · next hw =>
        rw [List.mem_singleton] at hmem
        exact hk (Prod.ext hw.symm hmem)
      · cases hmem
  · rw [received_arrive]
    split
    · next hw =>
      subst hw
      rw [List.nodup_append]
      refine ⟨hinv.once _, List.nodup_singleton _, ?_⟩
      rintro a ha a' ha' rfl
      rw [List.mem_singleton] at ha'
      subst ha'
      exact hnot ((hinv.mem _ _).mp ha)
    · rw [List.append_nil]; exact hinv.once w
  · rw [received_arrive]
    by_cases hw : w = i.1
    · subst hw
      rw [hbi, if_pos rfl, List.length_append, List.length_singleton, hcount]
    · rw [hb w hw, if_neg fun he => hw he.symm, List.append_nil]
      exact hinv.count w
  · by_cases hw : w = i.1
    · subst hw
      rw [hbi]; exact hlt
    · rw [hb w hw]; exact hinv.lt w
  · by_cases hji : j = i
    · subst hji
      rw [State.tick_phase, State.setPhase_self] at hj
      exact hgen blk' g hj
    · rw [State.tick_phase, State.setPhase_other _ hji, State.setBarrier_phase] at hj
      exact hinv.gen j blk' g hj

theorem step_barrierInv (hinv : BarrierInv l s) (h : Step s ev t) :
    BarrierInv (l ++ [ev]) t := by
  by_cases hact : ev.act = .arrive
  · cases h with
    | @arriveWait i now g blk b hclock hph hwait =>
      obtain ⟨hg, hcount, hlt⟩ :=
        hinv.generation_eq_zero (i := i) (by simp [Arrived, hph])
      unfold Barrier.wait at hwait
      split at hwait
      -- one that has room counts up, and nobody is let through
      · next hroom =>
        cases hwait
        refine hinv.arrive hph (by simp [Arrived]) ?_ hroom ?_
        · rw [hg, hcount]; rfl
        · intro blk' g' he
          cases he
          exact hg
      · cases hwait
    | @arriveLead i now blk b hclock hph hwait =>
      obtain ⟨hg, hcount, hlt⟩ :=
        hinv.generation_eq_zero (i := i) (by simp [Arrived, hph])
      unfold Barrier.wait at hwait
      split at hwait
      · cases hwait
      -- the last one in opens the barrier: the count starts again in the next generation
      · next hfull =>
        cases hwait
        refine hinv.arrive hph (by cases blk <;> simp [Arrived, Phase.leads]) ?_
          (connsPerWorker_pos c) ?_
        · show 0 + c.connsPerWorker.toNat * ((s.barriers i.1).generation + 1) = _
          rw [hg]
          omega
        · intro blk' g' he
          cases blk <;> cases he
    | _ => cases hact
  · refine ⟨fun w k => ?_, fun w => ?_, fun w => ?_, fun w => ?_, fun i blk g hph => ?_⟩
    · rw [received_quiet hact, h.arrived_iff hact]; exact hinv.mem w k
    · rw [received_quiet hact]; exact hinv.once w
    · rw [received_quiet hact, h.barriers_eq hact]; exact hinv.count w
    · rw [h.barriers_eq hact]; exact hinv.lt w
    · exact hinv.gen i blk g (h.waiting_of hact hph)

/-! ## Whole runs -/

theorem run_poolInv (hfit : c.Fits) (h : Run Step (State.init c) l s) : PoolInv l s := by
  induction h with
  | nil => exact poolInv_init
  | snoc _ hstep ih => exact step_poolInv hfit ih hstep

theorem run_slotInv (h : Run Step (State.init c) l s) (i : Slot c) : SlotInv l s i := by
  induction h with
  | nil => exact slotInv_init i
  | snoc _ hstep ih => exact step_slotInv ih hstep

theorem run_barrierInv (h : Run Step (State.init c) l s) : BarrierInv l s := by
  induction h with
  | nil => exact barrierInv_init
  | snoc _ hstep ih => exact step_barrierInv ih hstep

/-- A thread that has not left can step, unless it waits at its barrier. -/
theorem exists_step (s : State c) (i : Slot c) (hleft : s.phase i ≠ .left)
    (hwait : ∀ blk g, s.phase i = .waiting blk g → (s.barriers i.1).generation ≠ g) :
    ∃ ev t, Step s ev t := by
  have hclock := Nat.le_refl s.clock
  cases hph : s.phase i with
  | fetching =>
    by_cases hlt : s.nextBlock < c.totalBlocks
    · exact ⟨_, _, Step.draw hclock hph hlt⟩
    · exact ⟨_, _, Step.drain hclock hph (UInt64.not_lt.mp hlt)⟩
  | arriving blk =>
    obtain ⟨b, out, hb⟩ : ∃ b out, (s.barriers i.1).wait c.connsPerWorker.toNat = (b, out) :=
      ⟨_, _, rfl⟩
    cases out with
    | some g => exact ⟨_, _, Step.arriveWait hclock hph hb⟩
    | none => exact ⟨_, _, Step.arriveLead hclock hph hb⟩
  | waiting blk g => exact ⟨_, _, Step.wake hclock hph (hwait blk g hph)⟩
  | leading b => exact ⟨_, _, Step.start hclock hph⟩
  | running b => exact ⟨_, _, Step.finish (e := .tlsFailed) hclock hph⟩
  | emptied => exact ⟨_, _, Step.look hclock hph⟩
  | idling now => exact ⟨_, _, Step.publish hclock hph⟩
  | left => exact absurd hph hleft

/-- A barrier that has not opened still owes a step to a thread that has not arrived. -/
theorem BarrierInv.finished_of_stuck (hinv : BarrierInv l s) (hstuck : ∀ ev t, ¬ Step s ev t) :
    Finished s := by
  intro i
  by_contra hleft
  obtain ⟨blk, g, hph, hgen⟩ : ∃ blk g, s.phase i = .waiting blk g ∧
      (s.barriers i.1).generation = g := by
    by_contra hno
    push Not at hno
    obtain ⟨ev, t, hstep⟩ := exists_step s i hleft hno
    exact hstuck ev t hstep
  have hg := hinv.gen i blk g hph
  have hcount := hinv.count i.1
  have hlt := hinv.lt i.1
  rw [hgen, hg, Nat.mul_zero, Nat.add_zero] at hcount
  -- someone of this worker has not arrived, and that thread can step
  obtain ⟨k, hk⟩ : ∃ k, k ∉ received i.1 l := by
    by_contra hall
    push Not at hall
    have hfull : (List.finRange c.connsPerWorker.toNat).length ≤ (received i.1 l).length :=
      ((List.nodup_finRange _).subperm fun k _ => hall k).length_le
    rw [List.length_finRange] at hfull
    omega
  have hnot : ¬ Arrived s (i.1, k) := fun harr => hk ((hinv.mem i.1 k).mpr harr)
  obtain ⟨ev, t, hstep⟩ := exists_step s (i.1, k) (fun hl => hnot (by simp [Arrived, hl]))
    fun blk' g' hw => absurd (by simp [Arrived, hw]) hnot
  exact hstuck ev t hstep

theorem mem_slots (i : Slot c) : i ∈ slots c :=
  List.mem_flatMap.mpr ⟨i.1, List.mem_finRange _, List.mem_map.mpr ⟨i.2, List.mem_finRange _, rfl⟩⟩

theorem slots_nodup (c : Config) : (slots c).Nodup := by
  rw [slots, List.nodup_flatMap]
  refine ⟨fun w _ => (List.nodup_finRange _).map fun a b he => (Prod.mk.inj he).2, ?_⟩
  refine (List.nodup_finRange _).imp fun {w w'} hne x hx hx' => ?_
  obtain ⟨k, _, rfl⟩ := List.mem_map.mp hx
  obtain ⟨k', _, he⟩ := List.mem_map.mp hx'
  exact hne (Prod.mk.inj he).1.symm

theorem slots_length (c : Config) :
    (slots c).length = c.workers.toNat * c.connsPerWorker.toNat := by
  simp [slots, List.length_flatMap]

/-- What all threads together drew. -/
theorem drawn_perm (l : List (Event c)) :
    ((slots c).flatMap fun i => drawnBy i l).Perm ((drawn l).map Prod.snd) := by
  have h := (flatMap_filter_perm Prod.fst (slots_nodup c) (l := drawn l) fun d _ =>
    mem_slots d.1).map Prod.snd
  rw [List.map_flatMap] at h
  exact h

theorem endings_perm (l : List (Event c)) :
    ((slots c).flatMap fun i => endingsOf i l).Perm (endings l) :=
  flatMap_filter_perm Ending.slot (slots_nodup c) fun e _ => mem_slots e.slot

/-- `main` collects the outcomes of the connections that ended. -/
theorem collected_perm (h : Run Step (State.init c) l s) :
    (collected s).Perm ((endings l).map Ending.outcome) := by
  have houts : s.outs = fun i => (endingsOf i l).map Ending.outcome :=
    funext fun i => (run_slotInv h i).outs
  rw [collected, houts, ← List.map_flatMap]
  exact (endings_perm l).map _

/-- Once all threads have left, every block that was drawn was finished. -/
theorem endings_block_perm (h : Run Step (State.init c) l s) (hfin : Finished s) :
    ((endings l).map Ending.block).Perm ((drawn l).map Prod.snd) := by
  have hheld : (fun i => drawnBy i l) = fun i => (endingsOf i l).map Ending.block := by
    funext i
    have hi := (run_slotInv h i).held
    rw [hfin i] at hi
    simpa [Phase.holding] using hi
  refine List.Perm.trans ?_ (drawn_perm l)
  rw [hheld, ← List.map_flatMap]
  exact ((endings_perm l).map _).symm

theorem endings_length_le (h : Run Step (State.init c) l s) :
    (endings l).length ≤ (drawn l).length := by
  have hle := length_flatMap_le (a := 1) (b := 0) (slots c)
    (f := fun i => endingsOf i l) (g := fun i => drawnBy i l) fun i _ => by
      rw [(run_slotInv h i).held, List.length_append, List.length_map]
      omega
  rw [(endings_perm l).length_eq, (drawn_perm l).length_eq, List.length_map] at hle
  omega

/-- A run is no longer than its outcomes and its threads allow. -/
theorem run_length_le (h : Run Step (State.init c) l s) :
    l.length ≤ 2 * (endings l).length + 7 * (c.workers.toNat * c.connsPerWorker.toNat) := by
  have hperm := flatMap_filter_perm Event.slot (slots_nodup c) (l := l) fun ev _ =>
    mem_slots ev.slot
  have hle := length_flatMap_le (a := 2) (b := 7) (slots c)
    (f := fun i => l.filter fun ev => ev.slot = i) (g := fun i => endingsOf i l) fun i _ => by
      have hi := run_slotInv h i
      have hsteps := hi.steps
      have hspent : (s.phase i).spent (s.outs i).isEmpty ≤ 7 := by
        unfold Phase.spent
        split <;> first | omega | (split <;> omega)
      rw [hi.outs, List.length_map] at hsteps
      rw [hi.outs] at hspent
      omega
  rw [hperm.length_eq, (endings_perm l).length_eq, slots_length] at hle
  exact hle

/-- Once all threads have left, all blocks were drawn. -/
theorem drawn_length_of_finished (hfit : c.Fits) (h : Run Step (State.init c) l s)
    (hfin : Finished s) :
    (drawn l).length = c.workers.toNat * c.blocksPerWorker.toNat := by
  have hpool := run_poolInv hfit h
  rw [← hfit.totalBlocks]
  refine hpool.all_drawn fun hempty => ?_
  have i : Slot c := ⟨⟨0, workers_pos c⟩, ⟨0, connsPerWorker_pos c⟩⟩
  have hmem := (hpool.mem i).mpr (by rw [hfin i]; trivial)
  rw [hempty] at hmem
  exact List.not_mem_nil hmem

/-- **Every block is drawn once, and every barrier meets each of its threads once.** -/
theorem blocks_and_barriers (hfit : c.Fits) (h : Run Step (State.init c) l s) :
    (drawn l).map (fun d => d.2.toNat) = List.range (drawn l).length ∧
    (drawn l).length ≤ c.workers.toNat * c.blocksPerWorker.toNat ∧
    (∀ w, (received w l).Nodup) ∧
    l.length ≤ 2 * (c.workers.toNat * c.blocksPerWorker.toNat) +
      7 * (c.workers.toNat * c.connsPerWorker.toNat) ∧
    ((∀ ev t, ¬ Step s ev t) → Finished s) ∧
    (Finished s →
      (drawn l).map (fun d => d.2.toNat) =
        List.range (c.workers.toNat * c.blocksPerWorker.toNat) ∧
      (∀ w, (received w l).Perm (List.finRange c.connsPerWorker.toNat)) ∧
      (collected s).length = c.workers.toNat * c.blocksPerWorker.toNat) := by
  have hpool := run_poolInv hfit h
  have hbar := run_barrierInv h
  have hle := hpool.drawn_le
  rw [hfit.totalBlocks] at hle
  refine ⟨hpool.drawn_eq, hle, hbar.once, ?_, hbar.finished_of_stuck, fun hfin => ?_⟩
  · have h₁ := run_length_le h
    have h₂ := endings_length_le h
    omega
  · have hall := drawn_length_of_finished hfit h hfin
    refine ⟨hall ▸ hpool.drawn_eq, fun w => ?_, ?_⟩
    · rw [List.perm_ext_iff_of_nodup (hbar.once w) (List.nodup_finRange _)]
      intro k
      rw [hbar.mem]
      simp [Arrived, hfin (w, k), List.mem_finRange]
    · rw [(collected_perm h).length_eq, List.length_map,
        ← List.length_map Ending.block, (endings_block_perm h hfin).length_eq, List.length_map,
        hall]

/-- One worker with one connection and one block. -/
def oneBlock : Config :=
  { workers := 1, connsPerWorker := 1, blocksPerWorker := 1, objectSize := 1, blockSize := 1,
    stub := false, plain := true, workers_ne := one_ne, connsPerWorker_ne := one_ne,
    blocksPerWorker_ne := one_ne, objectSize_ne := one_ne, blockSize_ne := one_ne }

theorem run_oneBlock :
    ∃ (l : List (Event oneBlock)) (s : State oneBlock),
      Run Step (State.init oneBlock) l s ∧ Finished s := by
  let i : Slot oneBlock := (⟨0, by decide⟩, ⟨0, by decide⟩)
  have h₁ := Run.nil.snoc (Step.draw (s := State.init oneBlock) (i := i)
    (Nat.le_refl 0) rfl (by decide))
  have h₂ := h₁.snoc (Step.arriveLead (i := i) (Nat.le_refl 0) rfl rfl)
  have h₃ := h₂.snoc (Step.start (i := i) (b := 0) (Nat.le_refl 0) rfl)
  have h₄ := h₃.snoc (Step.finish (i := i) (b := 0) (e := .pumped 1 true)
    (Nat.le_refl 0) rfl)
  have h₅ := h₄.snoc (Step.drain (i := i) (Nat.le_refl 0) rfl (by decide))
  have h₆ := h₅.snoc (Step.look (i := i) (Nat.le_refl 0) rfl)
  have h₇ := h₆.snoc (Step.publish (i := i) (t := 0) (Nat.le_refl 0) rfl)
  refine ⟨_, _, h₇, fun j => ?_⟩
  obtain ⟨⟨w, hw⟩, ⟨k, hk⟩⟩ := j
  have hw1 : w < 1 := hw
  have hk1 : k < 1 := hk
  obtain rfl : w = 0 := by omega
  obtain rfl : k = 0 := by omega
  rfl

/-- The run of a single block. -/
theorem blocks_and_barriers_oneBlock :
    ∃ (l : List (Event oneBlock)) (s : State oneBlock),
      Run Step (State.init oneBlock) l s ∧ Finished s ∧
      (drawn l).map (fun d => d.2.toNat) = [0] ∧ (collected s).length = 1 := by
  obtain ⟨l, s, h, hfin⟩ := run_oneBlock
  obtain ⟨-, -, -, -, -, hall⟩ := blocks_and_barriers (by unfold Config.Fits; decide) h
  obtain ⟨hdrawn, -, hcollected⟩ := hall hfin
  exact ⟨l, s, h, hfin, hdrawn, hcollected⟩

/-- Two workers whose blocks number `2 ^ 64`. -/
def wrapped : Config :=
  { workers := 2, connsPerWorker := 1, blocksPerWorker := 9223372036854775808, objectSize := 1,
    blockSize := 1, stub := false, plain := true, workers_ne := two_ne,
    connsPerWorker_ne := one_ne, blocksPerWorker_ne := by decide, objectSize_ne := one_ne,
    blockSize_ne := one_ne }

/-- `total_blocks` wraps to 0, and the threads find the pool empty. -/
theorem run_wrapped :
    ∃ (l : List (Event wrapped)) (s : State wrapped),
      Run Step (State.init wrapped) l s ∧ Finished s ∧ drawn l = [] ∧ collected s = [] := by
  let i : Slot wrapped := (⟨0, by decide⟩, ⟨0, by decide⟩)
  let j : Slot wrapped := (⟨1, by decide⟩, ⟨0, by decide⟩)
  have h₁ := Run.nil.snoc (Step.drain (s := State.init wrapped) (i := i)
    (Nat.le_refl 0) rfl (by decide))
  have h₂ := h₁.snoc (Step.look (i := i) (Nat.le_refl 0) rfl)
  have h₃ := h₂.snoc (Step.publish (i := i) (t := 0) (Nat.le_refl 0) rfl)
  have h₄ := h₃.snoc (Step.arriveLead (i := i) (Nat.le_refl 0) rfl rfl)
  have h₅ := h₄.snoc (Step.drain (i := j) (Nat.le_refl 0) rfl (by decide))
  have h₆ := h₅.snoc (Step.look (i := j) (Nat.le_refl 0) rfl)
  have h₇ := h₆.snoc (Step.publish (i := j) (t := 0) (Nat.le_refl 0) rfl)
  have h₈ := h₇.snoc (Step.arriveLead (i := j) (Nat.le_refl 0) rfl rfl)
  refine ⟨_, _, h₈, fun k => ?_, by decide, by decide⟩
  obtain ⟨⟨w, hw⟩, ⟨m, hm⟩⟩ := k
  have hw2 : w < 2 := hw
  have hm1 : m < 1 := hm
  obtain rfl : m = 0 := by omega
  rcases (show w = 0 ∨ w = 1 by omega) with rfl | rfl
  · rfl
  · rfl

/-- The run is over before a block is drawn. -/
theorem no_block_drawn_wrapped :
    ∃ (l : List (Event wrapped)) (s : State wrapped),
      Run Step (State.init wrapped) l s ∧ Finished s ∧ drawn l = [] ∧
      (collected s).length ≠ wrapped.workers.toNat * wrapped.blocksPerWorker.toNat := by
  obtain ⟨l, s, h, hfin, hdrawn, hcollected⟩ := run_wrapped
  refine ⟨l, s, h, hfin, hdrawn, ?_⟩
  rw [hcollected]
  decide

/-- The first `n` threads may all fetch before any other step is taken. -/
theorem exists_run_fetches (c : Config) {n : Nat} (hn : n ≤ (slots c).length) :
    ∃ (l : List (Event c)) (s : State c), Run Step (State.init c) l s ∧
      s.nextBlock = UInt64.ofNat n ∧ s.clock = 0 ∧
      (∀ i ∈ (slots c).drop n, s.phase i = .fetching) ∧
      (drawn l).map Prod.snd =
        ((List.range n).map UInt64.ofNat).filter fun b => b < c.totalBlocks := by
  induction n with
  | zero => exact ⟨[], State.init c, Run.nil, rfl, rfl, fun _ _ => rfl, rfl⟩
  | succ n ih =>
    obtain ⟨l, s, hrun, hnext, hclock, hfetching, hdrawn⟩ := ih (Nat.le_of_succ_le hn)
    have hcons := List.drop_eq_getElem_cons hn
    generalize (slots c)[n] = i at hcons
    have hi : s.phase i = .fetching := hfetching i (hcons ▸ List.mem_cons_self)
    have hnodup := (slots_nodup c).sublist (List.drop_sublist n (slots c))
    rw [hcons, List.nodup_cons] at hnodup
    -- the threads are distinct, so this one's step leaves the others where they are
    have hstay : ∀ ph, ∀ j ∈ (slots c).drop (n + 1), (s.setPhase i ph).phase j = .fetching := by
      intro ph j hj
      have hne : j ≠ i := by
        rintro rfl
        exact hnodup.1 hj
      rw [State.setPhase_other _ hne]
      exact hfetching j (hcons ▸ List.mem_cons_of_mem i hj)
    have hadd : s.nextBlock + 1 = UInt64.ofNat (n + 1) := by
      rw [hnext, UInt64.ofNat_add]
      rfl
    have hsnoc : (drawn (l ++ [⟨i, .fetch s.nextBlock, 0⟩])).map Prod.snd =
        ((List.range (n + 1)).map UInt64.ofNat).filter fun b => b < c.totalBlocks := by
      rw [drawn_snoc, List.map_append, hdrawn, List.range_succ, List.map_append,
        List.filter_append, hnext]
      by_cases hlt : UInt64.ofNat n < c.totalBlocks <;> simp [Event.draws, hlt]
    by_cases hlt : s.nextBlock < c.totalBlocks
    · exact ⟨_, _, hrun.snoc (Step.draw hclock.le hi hlt), hadd, rfl, hstay _, hsnoc⟩
    · exact ⟨_, _, hrun.snoc (Step.drain hclock.le hi (UInt64.not_lt.mp hlt)), hadd,
        rfl, hstay _, hsnoc⟩

/-- With more than `2 ^ 64` fetches to come, block 0 may be drawn twice. -/
theorem exists_drawn_twice (c : Config) (hpos : 0 < c.totalBlocks) (h : 2 ^ 64 < (slots c).length) :
    ∃ (l : List (Event c)) (s : State c), Run Step (State.init c) l s ∧
      ¬ ((drawn l).map Prod.snd).Nodup := by
  obtain ⟨l, s, hrun, -, -, -, hdrawn⟩ := exists_run_fetches c (n := 2 ^ 64 + 1) h
  refine ⟨l, s, hrun, fun hnodup => ?_⟩
  have hsub : [0, 2 ^ 64].Sublist (List.range (2 ^ 64 + 1)) := by
    rw [List.range_succ]
    exact (List.singleton_sublist.mpr (List.mem_range.mpr (by omega))).append (List.Sublist.refl _)
  have hzero : ((([0, 2 ^ 64] : List Nat).map UInt64.ofNat).filter fun b => b < c.totalBlocks) =
      [0, 0] := by
    simp [hpos]
  have hsub' := (hsub.map UInt64.ofNat).filter fun b => b < c.totalBlocks
  rw [← hdrawn, hzero] at hsub'
  exact absurd (hnodup.sublist hsub') (by decide)

end LinuxS3
