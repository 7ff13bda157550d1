import MiniosvCtrl.Guest.Script
import MiniosvCtrl.Infra.Lists

/-!
# A configuration on its way to the guest

* `configOf_guestScript` — what the guest's `CONFIG` is
* `get_of_mem`, `get_of_not_mem` — and one value of it
* `config_received` — a value arrives as it was if every character has one unit, and as
  another one otherwise
* `encode_sent` — which no program can be started with
-/

namespace Prelude

open Infra Literal

variable {conf : List (String × String)} {prelude body program : List Char} {s t : String}

/-- `CONFIG`, as it arrives. -/
def arrived (conf : List (String × String)) : Config := conf.map fun e => (sent e.1, sent e.2)

/-! ## Texts -/

theorem text_inj (h : text s = text t) : s = t := by
  have hchars := congrArg chars h
  simp only [text, chars_map, Option.some.injEq] at hchars
  exact String.toList_inj.mp hchars

theorem sent_eq_iff : sent s = text s ↔ OneUnit s.toList := units_eq_iff

/-! ## The second line -/

theorem firstLine_append {l : List Char} (h : '\n' ∉ l) (r : List Char) :
    firstLine (l ++ '\n' :: r) = (l, r) := by
  have hall : ∀ c ∈ l, (c != '\n') = true := fun c hc => by
    rw [bne_iff_ne]
    rintro rfl
    exact h hc
  rw [firstLine, List.takeWhile_append_of_pos hall, List.dropWhile_append_of_pos hall]
  simp

/-- The first two lines of a program. -/
theorem configOf_append {comment d : List Char} (hcomment : '\n' ∉ comment)
    (hhash : "#".toList <+: comment) (hd : '\n' ∉ d) (rest : List Char) :
    configOf (comment ++ '\n' :: ("CONFIG = ".toList ++ d ++ '\n' :: rest)) = dict d := by
  have hline : '\n' ∉ "CONFIG = ".toList ++ d := by
    rw [List.mem_append]
    exact not_or.mpr ⟨by decide, hd⟩
  rw [configOf, firstLine_append hcomment]
  dsimp only
  rw [firstLine_append hline, if_pos ⟨hhash, List.prefix_append _ _⟩]
  rfl

theorem configOf_guestScript (h : guestScript conf prelude body = some program) :
    configOf program = some (arrived conf) := by
  obtain ⟨rest, -, h⟩ := Option.bind_eq_some_iff.mp h
  rw [← Option.some.inj h, configOf_append (by decide) (by decide) (newline_not_mem_dumpsDict _),
    dict_dumpsDict, List.map_map]
  rfl

/-! ## Values -/

section

variable (hkeys : (conf.map Prod.fst).Nodup) (hunits : ∀ e ∈ conf, OneUnit e.1.toList)
  {key value : String}
include hunits

theorem keys_arrived : (arrived conf).map Prod.fst = (conf.map Prod.fst).map text := by
  rw [arrived, List.map_map, List.map_map]
  exact List.map_congr_left fun e he => sent_eq_iff.mpr (hunits e he)

theorem get_of_not_mem (h : key ∉ conf.map Prod.fst) : (arrived conf).get key = none := by
  have hnot : ∀ e ∈ (arrived conf).reverse, ¬decide (e.1 = text key) = true := by
    intro e he heq
    have hmem : text key ∈ (conf.map Prod.fst).map text := by
      rw [← keys_arrived hunits, ← of_decide_eq_true heq]
      exact List.mem_map_of_mem (List.mem_reverse.mp he)
    obtain ⟨k, hk, hsame⟩ := List.mem_map.mp hmem
    exact h (text_inj hsame ▸ hk)
  rw [Config.get, List.find?_eq_none.mpr hnot]
  rfl

include hkeys

theorem get_of_mem (h : (key, value) ∈ conf) : (arrived conf).get key = some (sent value) := by
  have hnodup : ((arrived conf).reverse.map Prod.fst).Nodup := by
    rw [List.map_reverse, List.nodup_reverse, keys_arrived hunits]
    exact hkeys.map fun _ _ => text_inj
  have hmem : (text key, sent value) ∈ (arrived conf).reverse := by
    rw [List.mem_reverse, ← sent_eq_iff.mpr (hunits _ h)]
    exact List.mem_map_of_mem h
  have hfilter := filter_key_eq_singleton hnodup hmem
  rw [Config.get, ← List.head?_filter, hfilter]
  rfl

end

/--
**A value of the configuration is what `cfg` has of it in the guest, if every character of it has
one unit, and is never the same otherwise; what is not in the configuration is the guest's own.**
-/
theorem config_received (h : guestScript conf prelude body = some program)
    (hkeys : (conf.map Prod.fst).Nodup) (hunits : ∀ e ∈ conf, OneUnit e.1.toList) :
    ∃ c, configOf program = some c ∧ ∀ environ key default,
      (∀ value, (key, value) ∈ conf →
        (cfg c environ key default = text value ↔ OneUnit value.toList)) ∧
      (key ∉ conf.map Prod.fst →
        cfg c environ key default = text ((environ key).getD default)) := by
  refine ⟨_, configOf_guestScript h, fun environ key default => ⟨?_, fun hkey => ?_⟩⟩
  · intro value hmem
    rw [cfg, get_of_mem hkeys hunits hmem]
    exact sent_eq_iff
  · rw [cfg, get_of_not_mem hunits hkey]

/-- A run of one mode, and a name with a character that has two units. -/
def twoValues : List (String × String) := [("MODE", "stock"), ("RUN_ID", "𝔲-8")]

def twoProgram : List Char := (guestScript twoValues [] []).getD []

theorem guestScript_two : guestScript twoValues [] [] = some twoProgram := rfl

/-- The mode arrives, and the name does not. -/
theorem config_received_two :
    ∃ c, configOf twoProgram = some c ∧ ∀ environ key default,
      (∀ value, (key, value) ∈ twoValues →
        (cfg c environ key default = text value ↔ OneUnit value.toList)) ∧
      (key ∉ twoValues.map Prod.fst →
        cfg c environ key default = text ((environ key).getD default)) :=
  config_received guestScript_two (by decide) (by decide)

/-! ## What is started -/

/-- **Nothing is started with a value that changed on its way.** -/
theorem encode_sent (s : String) :
    encode (sent s) = if OneUnit s.toList ∧ '\x00' ∉ s.toList then some s else none := by
  rw [encode, sent, chars_units]
  by_cases hunits : OneUnit s.toList
  · have hzero : 0 ∈ units s.toList ↔ '\x00' ∈ s.toList := by
      rw [units_eq_iff.mpr hunits, List.mem_map]
      constructor
      · rintro ⟨c, hc, h⟩
        have hnul : c = '\x00' := Char.toNat_inj.mp h
        rwa [← hnul]
      · exact fun h => ⟨_, h, rfl⟩
    by_cases hnul : '\x00' ∈ s.toList
    · rw [if_pos (hzero.mpr hnul), if_neg (not_and_not_right.mpr fun _ => hnul)]
    · rw [if_neg (mt hzero.mp hnul), if_pos hunits, if_pos ⟨hunits, hnul⟩, Option.map_some,
        String.ofList_toList]
  · rw [if_neg hunits, Option.map_none, ite_self, if_neg fun h => hunits h.1]

end Prelude
