import Mathlib.Data.List.Infix
import MiniosvCtrl.Properties.Market
import MiniosvCtrl.Server.Zones

/-!
# Which zones the HTTP server is tried in

`BENCH_ZONES` is split for the zones that come first, and searched as a text for those that do not
follow: a zone that the text holds but the list does not is tried nowhere, one that the list repeats
is tried again.

* `perm_byHand` — when the zones are the VPC's
* `launchServer_sends` — the loop asks in every zone it is given before it gives up
* `triesEvery_iff`
-/

namespace HttpServer

open Ec2 Runner Launch

/-! ## Texts in texts -/

theorem infix_intercalate (sep : List Char) {m : List Char} {l : List (List Char)} (h : m ∈ l) :
    m <:+: sep.intercalate l := by
  induction l with
  | nil => cases h
  | cons x l ih =>
    cases l with
    | nil =>
      obtain rfl := List.mem_singleton.mp h
      simp
    | cons y l =>
      rw [List.intercalate_cons_cons]
      rcases List.mem_cons.mp h with rfl | h
      · exact (List.prefix_append m _).isInfix.trans (List.prefix_append _ _).isInfix
      · exact (ih h).trans (List.suffix_append _ _).isInfix

theorem isIn_iff {z order : String} : isIn z order = true ↔ z.toList <:+: order.toList := by
  simp only [isIn, List.any_eq_true, List.mem_tails, List.isPrefixOf_iff_prefix]
  exact ⟨fun ⟨t, hs, hp⟩ => hp.isInfix.trans hs.isInfix,
    fun h => (List.infix_iff_prefix_suffix.mp h).imp fun t ht => ⟨ht.2, ht.1⟩⟩

theorem isIn_of_mem_split {order z : String} (h : z ∈ split order) : isIn z order = true := by
  obtain ⟨m, hm, rfl⟩ := List.mem_map.mp h
  rw [isIn_iff, String.toList_ofList]
  have hinfix := infix_intercalate [','] hm
  rwa [List.intercalate_splitOn] at hinfix

theorem infix_of_strip (t : String) : (strip t).toList <:+: t.toList := by
  rw [strip, String.toList_ofList]
  have hfront : t.toList.dropWhile isSpace <:+ t.toList := List.dropWhile_suffix _
  have hback := List.dropWhile_suffix isSpace (l := (t.toList.dropWhile isSpace).reverse)
  have hprefix := List.reverse_prefix.mpr hback
  rw [List.reverse_reverse] at hprefix
  exact hprefix.isInfix.trans hfront.isInfix

/-! ## The order -/

/-- The entries of `BENCH_ZONES`. -/
def entries : Option String → List String
  | none => []
  | some order => if order = "" then [] else split order

/-- An entry names a zone, whatever blanks are around it. -/
def Entry (e : String) (z : Zone) : Prop := e = z ∨ strip e = z

/-- A permutation of the VPC's zones: those that are named first and in the order given, the others
behind. -/
structure Ranked (names : List Zone) (order : Option String) (ranked : List Zone) : Prop where
  perm : ranked.Perm names
  first : ∃ named rest, ranked = named ++ rest ∧
    (∃ given, given.Sublist (entries order) ∧ List.Forall₂ Entry given named) ∧
    ∀ z ∈ rest, ∀ e ∈ entries order, ¬ Entry e z

/-- Every zone that the text of the list holds is an entry of it, as often as the VPC has it. -/
def Listed (names : List Zone) (order : Option String) : Prop :=
  ∀ text, order = some text → text ≠ "" →
    ∀ z ∈ names, isIn z text = true → (split text).count z = names.count z

theorem count_byHand {order : String} {names : List Zone} {z : Zone} (hz : z ∈ names) :
    (byHand order names).count z =
      (split order).count z + if isIn z order = true then 0 else names.count z := by
  rw [byHand, List.count_append, List.count_filter (by simpa using hz)]
  congr 1
  split
  case isTrue h => exact List.count_eq_zero.mpr fun hmem => by simp [h] at hmem
  case isFalse h => exact List.count_filter (by simpa using h)

/-- The list by hand is one of the VPC's zones, each as often as it should be. -/
theorem perm_byHand (order : String) (names : List Zone) : (byHand order names).Perm names ↔
    ∀ z ∈ names, isIn z order = true → (split order).count z = names.count z := by
  rw [List.perm_iff_count]
  constructor
  · intro h z hz hin
    have hcount := h z
    rwa [count_byHand hz, if_pos hin, Nat.add_zero] at hcount
  · intro h z
    by_cases hz : z ∈ names
    · rw [count_byHand hz]
      split
      case isTrue hin => rw [h z hz hin, Nat.add_zero]
      case isFalse hin =>
        have hnot : z ∉ split order := fun hmem => hin (isIn_of_mem_split hmem)
        rw [List.count_eq_zero.mpr hnot, Nat.zero_add]
    · have hnot : z ∉ byHand order names := by simp [byHand, hz]
      rw [List.count_eq_zero.mpr hnot, List.count_eq_zero.mpr hz]

theorem not_entry_of_not_isIn {order e : String} {z : Zone} (h : isIn z order = false)
    (he : e ∈ split order) : ¬ Entry e z := by
  have hin := isIn_of_mem_split he
  rintro (rfl | rfl)
  · rw [h] at hin
    cases hin
  · have hz := isIn_iff.mpr ((infix_of_strip e).trans (isIn_iff.mp hin))
    rw [h] at hz
    cases hz

theorem ranked_of_perm {names ranked : List Zone} (h : ranked.Perm names) :
    Ranked names none ranked :=
  ⟨h, [], ranked, rfl, ⟨[], List.nil_sublist _, .nil⟩, fun _ _ _ he => absurd he List.not_mem_nil⟩

theorem spotRankedZones_none (names : List Zone) (placement : Except ClientError Placement) :
    (spotRankedZones names none placement).Perm names := by
  cases placement with
  | ok p => exact List.mergeSort_perm _ _
  | error e => exact List.Perm.refl _

theorem spotRankedZones_iff (names : List Zone) (order : Option String)
    (placement : Except ClientError Placement) :
    Ranked names order (spotRankedZones names order placement) ↔ Listed names order := by
  have hscore := spotRankedZones_none names placement
  cases order with
  | none => exact ⟨fun _ _ h => absurd h (by simp), fun _ => ranked_of_perm hscore⟩
  | some order =>
    -- an empty order is none
    by_cases he : order = ""
    · subst he
      refine ⟨fun _ text h hne => absurd (Option.some_inj.mp h).symm hne, fun _ => ?_⟩
      obtain ⟨hperm, hfirst⟩ := ranked_of_perm hscore
      exact ⟨hperm, hfirst⟩
    · have hunfold : spotRankedZones names (some order) placement = byHand order names := if_neg he
      have hentries : entries (some order) = split order := if_neg he
      rw [hunfold]
      constructor
      · rintro h text ht -
        cases ht
        exact (perm_byHand order names).mp h.perm
      · intro h
        refine ⟨(perm_byHand order names).mpr (h order rfl he), _, _, rfl, ?_, ?_⟩
        · refine ⟨(split order).filter fun z => decide (z ∈ names), ?_, ?_⟩
          · rw [hentries]
            exact List.filter_sublist
          · exact List.forall₂_same.mpr fun z _ => .inl rfl
        · intro z hz e hmem
          rw [hentries] at hmem
          have hnot := (List.mem_filter.mp hz).2
          exact not_entry_of_not_isIn (by simpa using hnot) hmem

/-! ## The loop -/

section Loop

variable (answers : Nat → Except ClientError InstanceId) (v : Vpc) (market : Market)

/-- A launch that is pinned to a zone of the VPC asks for an instance there. -/
theorem launch_sends {kwargs : Ref} {subnetId : SubnetId} {zone : Zone} {s : State}
    (hlt : kwargs < s.objects.length) (hplain : (s.get kwargs).marketOptions = none)
    (hsubnet : (s.get kwargs).subnetId = some subnetId) (hzone : zone ∈ zoneNames v subnetId) :
    (∃ sent, (launch answers v kwargs market (some zone) s).2.requests = s.requests ++ sent ∧
      ∃ r ∈ sent, (r.kwargs.subnetId, zone) ∈ spotSubnets v (some subnetId)) ∧
    kwargs < (launch answers v kwargs market (some zone) s).2.objects.length ∧
    (launch answers v kwargs market (some zone) s).2.get kwargs = s.get kwargs := by
  rw [launch_pinned, hsubnet]
  obtain ⟨first, rest, hzones⟩ := exists_pinned hzone
  rw [hzones]
  let k : Kwargs := { s.get kwargs with subnetId := first.1 }
  have hready : Ready (first :: rest) first.2 s.objects.length (s.alloc k).2 :=
    ready_pinned hplain rfl hzones
  obtain ⟨sent, hsends⟩ := launchIn_sends answers hready market
  have hlt' : kwargs < (s.alloc k).2.objects.length := by
    have hlength : (s.alloc k).2.objects.length = s.objects.length + 1 := by simp [State.alloc]
    rw [hlength]
    exact Nat.lt_succ_of_lt hlt
  refine ⟨⟨sent, hsends.requests, ?_⟩, Nat.lt_of_lt_of_le hlt' hsends.length, ?_⟩
  · obtain ⟨r, hr⟩ := List.exists_mem_of_ne_nil sent hsends.ne
    obtain ⟨z, hz, he⟩ := List.mem_map.mp (hsends.subnets r hr)
    rw [← hzones] at hz
    obtain ⟨hmem, hpin⟩ := List.mem_filter.mp hz
    refine ⟨r, hr, ?_⟩
    rw [← he, ← beq_iff_eq.mp hpin]
    exact hmem
  · rw [hsends.others kwargs hlt']
    exact State.get_alloc_lt hlt

/-- The loop gives up only once it has asked in every zone it was given. -/
theorem launchServer_sends {kwargs : Ref} {subnetId : SubnetId} {zones : List Zone} {s : State}
    (hlt : kwargs < s.objects.length) (hplain : (s.get kwargs).marketOptions = none)
    (hsubnet : (s.get kwargs).subnetId = some subnetId)
    (hzones : ∀ z ∈ zones, z ∈ zoneNames v subnetId)
    (h : (launchServer answers v kwargs market zones s).1 = .error .noZone) :
    ∃ sent, (launchServer answers v kwargs market zones s).2.requests = s.requests ++ sent ∧
      ∀ z ∈ zones, ∃ r ∈ sent, (r.kwargs.subnetId, z) ∈ spotSubnets v (some subnetId) := by
  induction zones generalizing s with
  | nil => exact ⟨[], (List.append_nil _).symm, fun _ hz => absurd hz List.not_mem_nil⟩
  | cons zone zones ih =>
    obtain ⟨⟨sent, hrequests, r, hr, hin⟩, hlt', hget⟩ := launch_sends answers v market hlt hplain
      hsubnet (hzones zone List.mem_cons_self)
    rw [← hget] at hplain hsubnet
    have hrest := @ih (launch answers v kwargs market (some zone) s).2 hlt' hplain hsubnet
      fun z hz => hzones z (List.mem_cons_of_mem zone hz)
    -- it did not stop in this zone, so the rest of the loop has the same outcome
    have hnext : launchServer answers v kwargs market (zone :: zones) s =
        launchServer answers v kwargs market zones
          (launch answers v kwargs market (some zone) s).2 := by
      rw [launchServer] at h ⊢
      rcases hl : launch answers v kwargs market (some zone) s with ⟨out, t⟩
      rw [hl] at h
      rcases out with e | out
      · cases e with
        | index => cases h
        | client e => rfl
        | spotRefused last => rfl
      · cases h
    rw [hnext] at h ⊢
    obtain ⟨sent', hrequests', hall⟩ := hrest h
    refine ⟨sent ++ sent', ?_, ?_⟩
    · rw [hrequests', hrequests, List.append_assoc]
    · intro z hz
      rcases List.mem_cons.mp hz with rfl | hz
      · exact ⟨r, List.mem_append_left _ hr, hin⟩
      · obtain ⟨x, hx, hxin⟩ := hall z hz
        exact ⟨x, List.mem_append_right _ hx, hxin⟩

end Loop

/-! ## `start` -/

/-- The zones are ranked as they should be, and `start` gives up only once it has asked in each. -/
structure TriesEvery (v : Vpc) (subnetId : SubnetId) (order : Option String)
    (placement : Except ClientError Placement) : Prop where
  ranked : Ranked (zoneNames v subnetId) order
    (spotRankedZones (zoneNames v subnetId) order placement)
  asked : ∀ answers others market,
    (start answers v subnetId others market order placement).1 = .error .noZone →
    ∀ z ∈ zoneNames v subnetId,
      ∃ r ∈ (start answers v subnetId others market order placement).2.requests,
        (r.kwargs.subnetId, z) ∈ spotSubnets v (some subnetId)

/-- **Every zone of the VPC is tried, in the order asked for, exactly when each that the text of
`BENCH_ZONES` holds is an entry of it, once for each time the VPC has it.** -/
theorem triesEvery_iff (v : Vpc) (subnetId : SubnetId) (order : Option String)
    (placement : Except ClientError Placement) :
    TriesEvery v subnetId order placement ↔ Listed (zoneNames v subnetId) order := by
  rw [← spotRankedZones_iff _ order placement]
  refine ⟨fun h => h.ranked, fun h => ⟨h, fun answers others market hout z hz => ?_⟩⟩
  obtain ⟨sent, hrequests, hall⟩ := launchServer_sends answers v market
    (Nat.zero_lt_one : 0 < [serverKwargs subnetId others].length) rfl rfl
    (fun z hz => h.perm.mem_iff.mp hz) hout
  rw [start, hrequests]
  obtain ⟨r, hr, hin⟩ := hall z (h.perm.mem_iff.mpr hz)
  exact ⟨r, List.mem_append_right _ hr, hin⟩

theorem zone_mem (v : Vpc) (subnetId : SubnetId) : v.desc.zone ∈ zoneNames v subnetId := by
  simp [zoneNames, Launch.spotSubnets]

def twoZones : Vpc :=
  { desc := ⟨"subnet-a", "vpc-1", "eu-north-1a", true⟩
    others := [⟨"subnet-b", "vpc-1", "eu-north-1b", true⟩] }

/-- A blank behind the last entry: that zone is never tried. -/
theorem triesEvery_blank :
    ¬ TriesEvery twoZones "subnet-a" (some "eu-north-1b,eu-north-1a ") (.ok ⟨[], []⟩) := by
  rw [triesEvery_iff]
  intro h
  have hin : isIn "eu-north-1a" "eu-north-1b,eu-north-1a " = true :=
    isIn_iff.mpr ⟨"eu-north-1b,".toList, " ".toList, by decide⟩
  have hsplit : split "eu-north-1b,eu-north-1a " = ["eu-north-1b", "eu-north-1a "] := by
    decide
  have hmem : "eu-north-1a" ∈ zoneNames twoZones "subnet-a" := zone_mem twoZones "subnet-a"
  have hcount := h _ rfl (by simp) "eu-north-1a" hmem hin
  have hpos := List.count_pos_iff.mpr hmem
  rw [← hcount, hsplit] at hpos
  exact absurd (List.count_pos_iff.mp hpos) (by simp)

end HttpServer
