import MiniosvCtrl.Bench.Duckdb
import MiniosvCtrl.Infra.Lines

/-!
# The queries of a boot, line by line

The drivers cut a console where the matches of a pattern begin. In terms of lines: a query's block
is the line that begins it and the lines up to the next such line, and duckdb-linux joins a block
to the one before it if it begins with the same line.

* `headOf` — the query that a line begins
* `Block`, `cut` — the blocks of a text
* `joined` — without the echoes
* `heads_eq`, `unechoed_begins`, `slices_begins` — what the drivers compute is that
* `lines_texts` — the lines of the texts that the rows are parsed from
* `Arm.queries`, `Arm.blocks_cases` — for either arm
-/

namespace Tpch

open Infra Infra.Regex Runner

variable (B : Builtins)

/-! ## Lines that begin a query -/

/-- The digits of the query that the line begins. -/
def headOf (l : List Char) : Option (List Char) :=
  (lineGroups (head B) l).map fun g => g.head?.getD []

/-- A line that begins a query, and the lines after it. -/
structure Block where
  head : List Char
  number : List Char
  body : List (List Char)
  begins : headOf B head = some number

variable {B}

def Block.lines (b : Block B) : List (List Char) := b.head :: b.body

/-- The lines of several. -/
def flat (bs : List (Block B)) : List (List Char) := bs.flatMap Block.lines

@[simp] theorem flat_nil : flat ([] : List (Block B)) = [] := rfl

@[simp] theorem flat_cons (b : Block B) (bs : List (Block B)) :
    flat (b :: bs) = b.lines ++ flat bs :=
  rfl

/-- A block with further lines. -/
def Block.extend (b : Block B) (ls : List (List Char)) : Block B :=
  { b with body := b.body ++ ls }

theorem Block.lines_extend (b : Block B) (ls : List (List Char)) :
    (b.extend ls).lines = b.lines ++ ls :=
  rfl

variable (B)

/-- The lines before the first query, and the blocks. -/
def cut : List (List Char) → List (List Char) × List (Block B)
  | [] => ([], [])
  | l :: ls =>
    match h : headOf B l with
    | some number => ([], ⟨l, number, (cut ls).1, h⟩ :: (cut ls).2)
    | none => (l :: (cut ls).1, (cut ls).2)

variable {B}

theorem cut_none {l : List Char} (h : headOf B l = none) (ls : List (List Char)) :
    cut B (l :: ls) = (l :: (cut B ls).1, (cut B ls).2) := by
  rw [cut]
  split
  · rename_i hsome
    rw [h] at hsome
    cases hsome
  · rfl

theorem cut_some {l number : List Char} (h : headOf B l = some number) (ls : List (List Char)) :
    cut B (l :: ls) = ([], ⟨l, number, (cut B ls).1, h⟩ :: (cut B ls).2) := by
  rw [cut]
  split
  · rename_i hsome
    obtain rfl := Option.some_inj.mp (h.symm.trans hsome)
    rfl
  · rename_i hnone
    rw [h] at hnone
    cases hnone

theorem cut_lines (ls : List (List Char)) : (cut B ls).1 ++ flat (cut B ls).2 = ls := by
  induction ls with
  | nil => rfl
  | cons l ls ih =>
    cases h : headOf B l with
    | none => rw [cut_none h, List.cons_append, ih]
    | some number =>
      rw [cut_some h, List.nil_append, flat_cons]
      exact congrArg (l :: ·) ih

/-- No line but the first of a block begins a query. -/
theorem cut_body (ls : List (List Char)) : (∀ l ∈ (cut B ls).1, headOf B l = none) ∧
    ∀ b ∈ (cut B ls).2, ∀ l ∈ b.body, headOf B l = none := by
  induction ls with
  | nil => exact ⟨fun _ h => absurd h List.not_mem_nil, fun _ h => absurd h List.not_mem_nil⟩
  | cons l ls ih =>
    cases h : headOf B l with
    | none =>
      rw [cut_none h]
      exact ⟨List.forall_mem_cons.mpr ⟨h, ih.1⟩, ih.2⟩
    | some number =>
      rw [cut_some h]
      exact ⟨fun _ h => absurd h List.not_mem_nil, List.forall_mem_cons.mpr ⟨ih.1, ih.2⟩⟩

/-! ## Echoes -/

/-- A block that begins as the one before it does belongs to it. -/
def joined : List (Block B) → List (Block B)
  | [] => []
  | [b] => [b]
  | b :: b' :: bs =>
    if b'.head = b.head then joined (b.extend b'.lines :: bs) else b :: joined (b' :: bs)
termination_by bs => bs.length

theorem flat_joined (bs : List (Block B)) : flat (joined bs) = flat bs := by
  induction bs using joined.induct with
  | case1 => rw [joined]
  | case2 b => rw [joined]
  | case3 b b' bs h ih =>
    rw [joined, if_pos h, ih, flat_cons, flat_cons, flat_cons, Block.lines_extend,
      List.append_assoc]
  | case4 b b' bs h ih => rw [joined, if_neg h, flat_cons, flat_cons, ih]

/-- Every line of a block that begins a query is the line that the block begins with. -/
def Block.Single (b : Block B) : Prop := ∀ l ∈ b.body, headOf B l = none ∨ l = b.head

theorem joined_single {bs : List (Block B)} (h : ∀ b ∈ bs, b.Single) :
    ∀ b ∈ joined bs, b.Single := by
  induction bs using joined.induct with
  | case1 => rwa [joined]
  | case2 b => rwa [joined]
  | case3 b b' bs heq ih =>
    rw [joined, if_pos heq]
    rw [List.forall_mem_cons, List.forall_mem_cons] at h
    refine ih (List.forall_mem_cons.mpr ⟨fun l hl => ?_, h.2.2⟩)
    rcases List.mem_append.mp hl with hl | hl
    · exact h.1 l hl
    · rcases List.mem_cons.mp hl with rfl | hl
      · exact .inr heq
      · exact (h.2.1 l hl).imp_right fun he => he.trans heq
  | case4 b b' bs _ ih =>
    rw [joined, if_neg (by assumption)]
    rw [List.forall_mem_cons] at h
    exact List.forall_mem_cons.mpr ⟨h.1, ih h.2⟩

theorem cut_single (ls : List (List Char)) : ∀ b ∈ (cut B ls).2, b.Single :=
  fun b hb l hl => .inl ((cut_body ls).2 b hb l hl)

/-! ## What the drivers compute -/

/-- Where the blocks begin, with the queries. -/
def begins : List (Block B) → List (List Char × List Char)
  | [] => []
  | b :: bs => (unlined (flat (b :: bs)), b.number) :: begins bs

theorem length_begins (bs : List (Block B)) : (begins bs).length = bs.length := by
  induction bs with
  | nil => rfl
  | cons b bs ih => rw [begins, List.length_cons, List.length_cons, ih]

theorem getElem?_begins (bs : List (Block B)) (n : Nat) :
    ((begins bs)[n]?).map Prod.snd = (bs[n]?).map Block.number := by
  induction bs generalizing n with
  | nil => rfl
  | cons b bs ih =>
    cases n with
    | zero => rfl
    | succ n => exact ih n

theorem all_begins (p : List Char → Bool) (bs : List (Block B)) :
    (begins bs).all (fun h => p h.2) = bs.all fun b => p b.number := by
  induction bs with
  | nil => rfl
  | cons b bs ih => rw [begins, List.all_cons, List.all_cons, ih]

theorem digit_line : B.digit '\n' = false := B.digit_ascii (by decide)

theorem head_lineBound : (head B).LineBound :=
  ⟨trivial, (by decide : '\n' ∉ "Q".toList), ⟨digit_line, digit_line⟩,
    (by decide : '\n' ∉ ": ".toList)⟩

theorem head_anchored : (head B).Anchored := trivial

theorem lineStarts_head (ls : List (List Char)) :
    (lineStarts (head B) ls).map (fun f => (f.1, f.2.head?.getD [])) = begins (cut B ls).2 := by
  induction ls with
  | nil => rfl
  | cons l ls ih =>
    rw [lineStarts]
    cases hg : lineGroups (head B) l with
    | none =>
      have hnone : headOf B l = none := by rw [headOf, hg]; rfl
      rw [cut_none hnone]
      exact ih
    | some g =>
      have hsome : headOf B l = some (g.head?.getD []) := by rw [headOf, hg]; rfl
      rw [cut_some hsome, begins, flat_cons, List.map_cons, ih]
      show (unlined (l :: ls), _) :: _ = (unlined (l :: ((cut B ls).1 ++ _)), _) :: _
      rw [cut_lines]

/-- **A query begins where a block does.** -/
theorem heads_eq (text : List Char) : heads B text = begins (cut B (lines text)).2 := by
  rw [← lineStarts_head, ← starts_line head_lineBound head_anchored rfl, List.map_map]
  rfl

theorem headLine_unlined {l : List Char} (hl : '\n' ∉ l) (ls : List (List Char))
    (n : List Char) : DuckdbLinux.headLine (unlined (l :: ls), n) = l := by
  have hall : ∀ c ∈ l, (c != '\n') = true := by
    intro c hc
    rw [bne_iff_ne]
    exact fun h => hl (h ▸ hc)
  have htake : ∀ t : List Char, t.takeWhile (· != '\n') = [] →
      (l ++ t).takeWhile (· != '\n') = l := by
    intro t ht
    rw [List.takeWhile_append_of_pos hall, ht, List.append_nil]
  cases ls with
  | nil =>
    show (unlined [l]).takeWhile (· != '\n') = l
    have hnil := htake [] rfl
    rw [List.append_nil] at hnil
    rwa [unlined_singleton]
  | cons m ls =>
    show (unlined (l :: m :: ls)).takeWhile (· != '\n') = l
    rw [unlined_cons_cons]
    exact htake _ rfl

/-- **An echo begins no block of its own.** -/
theorem unechoed_begins {bs : List (Block B)} (h : ∀ b ∈ bs, '\n' ∉ b.head) :
    DuckdbLinux.unechoed (begins bs) = begins (joined bs) := by
  induction bs using joined.induct with
  | case1 => simp [joined, begins, DuckdbLinux.unechoed]
  | case2 b => simp [joined, begins, DuckdbLinux.unechoed]
  | case3 b b' bs heq ih =>
    rw [List.forall_mem_cons, List.forall_mem_cons] at h
    rw [joined, if_pos heq, ← ih (List.forall_mem_cons.mpr ⟨h.1, h.2.2⟩), begins, begins,
      DuckdbLinux.unechoed]
    have hline : DuckdbLinux.headLine (unlined (flat (b' :: bs)), b'.number) =
        DuckdbLinux.headLine (unlined (flat (b :: b' :: bs)), b.number) := by
      rw [flat_cons, flat_cons, Block.lines, Block.lines, List.cons_append, List.cons_append,
        headLine_unlined h.2.1, headLine_unlined h.1, heq]
    rw [if_pos hline, begins]
    have hflat : flat (b.extend b'.lines :: bs) = flat (b :: b' :: bs) := by
      rw [flat_cons, flat_cons, flat_cons, Block.lines_extend, List.append_assoc]
    rw [hflat]
    rfl
  | case4 b b' bs hne ih =>
    rw [List.forall_mem_cons] at h
    have hline : ¬ DuckdbLinux.headLine (unlined (flat (b' :: bs)), b'.number) =
        DuckdbLinux.headLine (unlined (flat (b :: b' :: bs)), b.number) := by
      rw [flat_cons, flat_cons, Block.lines, Block.lines, List.cons_append, List.cons_append,
        headLine_unlined (List.forall_mem_cons.mp h.2).1, headLine_unlined h.1]
      exact hne
    rw [joined, if_neg hne, begins, begins, DuckdbLinux.unechoed, if_neg hline]
    show _ = (unlined (flat (b :: joined (b' :: bs))), b.number) :: begins (joined (b' :: bs))
    rw [← ih h.2, flat_cons b (joined _), flat_joined]
    rfl

/-- The texts of blocks: all but the last end with their lines' break. -/
def texts : List (Block B) → List (List Char)
  | [] => []
  | [b] => [unlined b.lines]
  | b :: b' :: bs => unlined (b.lines ++ [[]]) :: texts (b' :: bs)

theorem unlined_append (xs : List (List Char)) {ys : List (List Char)} (h : ys ≠ []) :
    unlined (xs ++ ys) = unlined (xs ++ [[]]) ++ unlined ys := by
  have hcons : ∀ (l : List Char) (ls : List (List Char)), ls ≠ [] →
      unlined (l :: ls) = l ++ '\n' :: unlined ls := by
    intro l ls hls
    cases ls with
    | nil => exact absurd rfl hls
    | cons m ls => exact unlined_cons_cons l m ls
  induction xs with
  | nil => rfl
  | cons x xs ih =>
    rw [List.cons_append, List.cons_append, hcons x (xs ++ ys) (by simp [h]),
      hcons x (xs ++ [[]]) (by simp), ih, List.append_assoc, List.cons_append]

/-- **A slice is the text of a block.** -/
theorem slices_begins (bs : List (Block B)) : slices ((begins bs).map Prod.fst) = texts bs := by
  induction bs using texts.induct with
  | case1 => rfl
  | case2 b =>
    rw [begins, flat_cons, flat_nil, List.append_nil]
    rfl
  | case3 b b' bs ih =>
    rw [begins, List.map_cons, begins, List.map_cons, slices, texts, ← ih, begins, List.map_cons]
    have hne : flat (b' :: bs) ≠ [] := List.cons_ne_nil _ _
    rw [flat_cons b, unlined_append b.lines hne, List.length_append, Nat.add_sub_cancel,
      List.take_left]

theorem length_texts (bs : List (Block B)) : (texts bs).length = bs.length := by
  induction bs using texts.induct with
  | case1 => rfl
  | case2 b => rfl
  | case3 b b' bs ih => rw [texts, List.length_cons, List.length_cons, ih]

theorem lines_unlined {ls : List (List Char)} (hne : ls ≠ []) (h : ∀ l ∈ ls, '\n' ∉ l) :
    lines (unlined ls) = ls :=
  List.splitOn_intercalate '\n' h hne

/-- The lines of a block's text are the block's, and one that is empty. -/
theorem lines_texts {bs : List (Block B)} (h : ∀ l ∈ flat bs, '\n' ∉ l) {n : Nat}
    {t : List Char} (ht : (texts bs)[n]? = some t) :
    ∃ b, bs[n]? = some b ∧ (lines t = b.lines ∨ lines t = b.lines ++ [[]]) := by
  induction bs using texts.induct generalizing n with
  | case1 => cases ht
  | case2 b =>
    cases n with
    | zero =>
      obtain rfl := Option.some_inj.mp ht
      rw [flat_cons, flat_nil, List.append_nil] at h
      exact ⟨b, rfl, .inl (lines_unlined (List.cons_ne_nil _ _) h)⟩
    | succ n => cases ht
  | case3 b b' bs ih =>
    rw [flat_cons] at h
    cases n with
    | zero =>
      obtain rfl := Option.some_inj.mp ht
      refine ⟨b, rfl, .inr (lines_unlined (by simp) fun l hl => ?_)⟩
      rcases List.mem_append.mp hl with hl | hl
      · exact h l (List.mem_append_left _ hl)
      · rw [List.mem_singleton.mp hl]
        exact List.not_mem_nil
    | succ n => exact ih (fun l hl => h l (List.mem_append_right _ hl)) ht

/-! ## The two arms -/

inductive Arm
  | duckdbTpch
  | duckdbLinux

def Arm.stack (B : Builtins) : Arm → Stack B
  | duckdbTpch => DuckdbTpch.stack B
  | duckdbLinux => DuckdbLinux.stack B

/-- Where its driver sees a query begin. -/
def Arm.heads (B : Builtins) : Arm → List Char → List (List Char × List Char)
  | duckdbTpch => Tpch.heads B
  | duckdbLinux => DuckdbLinux.heads B

/-- The queries of a console, as its driver sees them. -/
def Arm.queries (B : Builtins) (arm : Arm) (text : List Char) : List (Block B) :=
  match arm with
  | duckdbTpch => (cut B (lines text)).2
  | duckdbLinux => joined (cut B (lines text)).2

variable {arm : Arm} {text t : List Char} {ts : List (List Char)}

theorem mem_lines_of_flat {l : List Char} (h : l ∈ flat (cut B (lines text)).2) :
    l ∈ lines text := by
  rw [← cut_lines (B := B) (lines text)]
  exact List.mem_append_right _ h

theorem Arm.flat_queries (arm : Arm) (text : List Char) :
    flat (arm.queries B text) = flat (cut B (lines text)).2 := by
  cases arm with
  | duckdbTpch => rfl
  | duckdbLinux => exact flat_joined _

theorem mem_flat {b : Block B} {bs : List (Block B)} (hb : b ∈ bs) {l : List Char}
    (hl : l ∈ b.lines) : l ∈ flat bs :=
  List.mem_flatMap.mpr ⟨b, hb, hl⟩

theorem Arm.not_mem_line {l : List Char} (h : l ∈ flat (arm.queries B text)) : '\n' ∉ l :=
  not_mem_of_mem_lines (mem_lines_of_flat (arm.flat_queries text ▸ h))

theorem Arm.queries_single (arm : Arm) (text : List Char) :
    ∀ b ∈ arm.queries B text, b.Single := by
  cases arm with
  | duckdbTpch => exact cut_single _
  | duckdbLinux => exact joined_single (cut_single _)

theorem Arm.heads_eq (arm : Arm) (text : List Char) :
    arm.heads B text = begins (arm.queries B text) := by
  cases arm with
  | duckdbTpch => exact Tpch.heads_eq text
  | duckdbLinux =>
    show DuckdbLinux.unechoed (Tpch.heads B text) = _
    rw [Tpch.heads_eq]
    refine unechoed_begins fun b hb => ?_
    exact not_mem_of_mem_lines (mem_lines_of_flat (mem_flat hb List.mem_cons_self))

/-- A run of one query is parsed as it is, the others block by block. -/
theorem Arm.blocks_cases (h : (arm.stack B).blocks text = some ts) :
    ((arm.queries B text).length ≤ 1 ∧ ts = [text]) ∨
      (1 < (arm.queries B text).length ∧ ts = texts (arm.queries B text) ∧
        ∀ b ∈ arm.queries B text, (B.int b.number).isSome) := by
  have hblocks : Tpch.blocks B (arm.heads B text) text = some ts := by
    cases arm with
    | duckdbTpch =>
      have h : (if _ then none else Tpch.blocks B _ text) = some ts := h
      split at h
      · cases h
      · exact h
    | duckdbLinux =>
      have h : (if _ then Tpch.blocks B _ text else none) = some ts := h
      split at h
      · exact h
      · cases h
  rw [arm.heads_eq, blocks, length_begins] at hblocks
  split at hblocks
  · rename_i hle
    exact .inl ⟨hle, (Option.some_inj.mp hblocks).symm⟩
  · rename_i hlt
    rw [slices_begins, all_begins fun n => (B.int n).isSome] at hblocks
    split at hblocks
    · rename_i hall
      exact .inr ⟨Nat.lt_of_not_le hlt, (Option.some_inj.mp hblocks).symm, List.all_eq_true.mp hall⟩
    · cases hblocks

/-- No row is parsed from a line that is not on the console. -/
theorem Arm.mem_lines_of_block (h : (arm.stack B).blocks text = some ts) (ht : t ∈ ts) :
    ∀ l ∈ lines t, l = [] ∨ l ∈ lines text := by
  intro l hl
  rcases Arm.blocks_cases h with ⟨-, rfl⟩ | ⟨-, rfl, -⟩
  · rw [List.mem_singleton.mp ht] at hl
    exact .inr hl
  · obtain ⟨n, hn⟩ := List.mem_iff_getElem?.mp ht
    obtain ⟨b, hb, hlines⟩ := lines_texts (fun _ => Arm.not_mem_line) hn
    have hsub : ∀ l ∈ b.lines, l ∈ lines text := fun l hl =>
      mem_lines_of_flat (arm.flat_queries text ▸ mem_flat (List.mem_of_getElem? hb) hl)
    rcases hlines with hlines | hlines
    · exact .inr (hsub l (hlines ▸ hl))
    · rcases List.mem_append.mp (hlines ▸ hl) with hl | hl
      · exact .inr (hsub l hl)
      · exact .inl (List.mem_singleton.mp hl)

end Tpch
