import MiniosvCtrl.LinuxSample.Sampler

/-!
# Counting the sample ring

While the ring has kept all records, the count is exact. Once records were overwritten the reader
starts a ring's length before the head, which may be inside a record. What stands there is read as
headers until the reader happens on the start of a record.

* `Record`, `Holds` — the records, and the ring that they were written into
* `loop_records` — from the start of a record on the count is exact
* `Strays` — what the reader passes before
* `counted_iff`
-/

namespace Sampler

open Infra

/-! ## Records -/

/-- A record as it is written. -/
structure Record where
  type : UInt32
  misc : UInt16
  size : UInt16
  /-- What follows the header. -/
  body : List UInt8
  length_body : body.length + 8 = size.toNat
  aligned : 8 ∣ size.toNat

namespace Record

def header (r : Record) : Header := ⟨r.type.toNat, r.misc.toNat, r.size.toNat⟩

def bytes (r : Record) : List UInt8 :=
  littleEndian 4 r.type.toNat ++ littleEndian 2 r.misc.toNat ++ littleEndian 2 r.size.toNat ++
    r.body

theorem length_bytes (r : Record) : r.bytes.length = r.size.toNat := by
  have hbody := r.length_body
  simp only [bytes, List.length_append, length_littleEndian]
  omega

/-- The header is in the first eight bytes. -/
theorem header_bytes (r : Record) :
    ofLittleEndian ((r.bytes.take 8).take 4) = r.type.toNat ∧
      ofLittleEndian (((r.bytes.take 8).drop 4).take 2) = r.misc.toNat ∧
      ofLittleEndian ((r.bytes.take 8).drop 6) = r.size.toNat := by
  have htype : r.type.toNat < 256 ^ 4 := r.type.toNat_lt
  have hmisc : r.misc.toNat < 256 ^ 2 := r.misc.toNat_lt
  have hsize : r.size.toNat < 256 ^ 2 := r.size.toNat_lt
  refine ⟨?_, ?_, ?_⟩
  · exact ofLittleEndian_littleEndian htype
  · exact ofLittleEndian_littleEndian hmisc
  · exact ofLittleEndian_littleEndian hsize

end Record

def bytes (rs : List Record) : List UInt8 := rs.flatMap Record.bytes

def samples (rs : List Record) : Nat := rs.countP fun r => r.header.type = perfRecordSample

def throttles (rs : List Record) : Nat := rs.countP fun r => r.header.type = perfRecordThrottle

@[simp] theorem bytes_nil : bytes [] = [] := rfl

theorem bytes_append (rs rs' : List Record) : bytes (rs ++ rs') = bytes rs ++ bytes rs' :=
  List.flatMap_append

theorem bytes_cons (r : Record) (rs : List Record) : bytes (r :: rs) = r.bytes ++ bytes rs := rfl

theorem bytes_concat (rs : List Record) (r : Record) : bytes (rs ++ [r]) = bytes rs ++ r.bytes := by
  rw [bytes_append, bytes_cons, bytes_nil, List.append_nil]

theorem aligned_bytes (rs : List Record) : 8 ∣ (bytes rs).length := by
  induction rs with
  | nil => exact Nat.dvd_zero 8
  | cons r rs ih =>
    rw [bytes_cons, List.length_append, r.length_bytes]
    exact Nat.dvd_add r.aligned ih

/-! ## The ring -/

/-- The records were written end to end from the tail to the head, and the last bytes of them, as
many as the ring has, are in it. -/
structure Holds (m : Mapping) (rs : List Record) : Prop where
  size_pos : 0 < m.size
  size_aligned : 8 ∣ m.size
  tail_aligned : 8 ∣ m.page.dataTail
  head_lt : m.page.dataHead < 2 ^ 64
  head : m.page.dataHead = m.page.dataTail + (bytes rs).length
  kept : ∀ j (hj : j < (bytes rs).length), (bytes rs).length ≤ j + m.size →
    m.data ((m.page.dataTail + j) % m.size) = (bytes rs)[j]

/-- At `p` one of the records starts that are still in the ring. -/
def StartsAt (m : Mapping) (rs pre : List Record) (p : Nat) : Prop :=
  ∃ r post, rs = pre ++ r :: post ∧ p = m.page.dataTail + (bytes pre).length ∧
    m.page.dataHead ≤ p + m.size

section Ring

variable {m : Mapping} {rs : List Record}

/-- **Where a record starts its header is read.** -/
theorem Holds.header_eq (h : Holds m rs) {pre post : List Record} {r : Record}
    (hrs : rs = pre ++ r :: post)
    (hkept : m.page.dataHead ≤ m.page.dataTail + (bytes pre).length + m.size) :
    header m.data ((m.page.dataTail + (bytes pre).length) % m.size) = r.header := by
  have hlength : 8 ≤ r.bytes.length := by
    rw [r.length_bytes, ← r.length_body]
    exact Nat.le_add_left 8 _
  have hbytes : bytesAt m.data ((m.page.dataTail + (bytes pre).length) % m.size) 8 =
      r.bytes.take 8 := by
    rw [bytesAt_ring h.size_aligned h.size_pos (Nat.dvd_add h.tail_aligned (aligned_bytes pre))]
    refine List.ext_getElem (by simp [hlength]) fun i hi hi' => ?_
    have hi : i < 8 := by simpa using hi
    have hall : (bytes rs).length =
        (bytes pre).length + (r.bytes.length + (bytes post).length) := by
      rw [hrs, bytes_append, bytes_cons, List.length_append, List.length_append]
    have hhead := h.head
    have hget := h.kept ((bytes pre).length + i) (by omega) (by omega)
    rw [List.getElem_map, List.getElem_range, Nat.add_assoc, hget]
    subst hrs
    simp only [bytes_append, bytes_cons, List.getElem_take]
    rw [List.getElem_append_right (Nat.le_add_right _ _), List.getElem_append_left]
    · congr 1
      exact Nat.add_sub_cancel_left _ _
    · omega
  obtain ⟨htype, hmisc, hsize⟩ := r.header_bytes
  rw [header, hbytes, htype, hmisc, hsize]
  rfl

theorem Record.size_ne_zero (r : Record) : r.header.size ≠ 0 := by
  have hbody := r.length_body
  show r.size.toNat ≠ 0
  omega

theorem count_n (c : Counts) (h : Header) :
    (c.count h).n = c.n + if h.type = perfRecordSample then 1 else 0 := by
  unfold Counts.count
  split
  · rfl
  · split <;> rfl

theorem count_thr (c : Counts) (h : Header) :
    (c.count h).thr = c.thr + if h.type = perfRecordThrottle then 1 else 0 := by
  unfold Counts.count
  split
  · rename_i hsample
    rw [hsample]
    rfl
  · split <;> rfl

/-- **From the start of a record on the loop ends and the count is exact.** -/
theorem Holds.loop_records (h : Holds m rs) {pre post : List Record} (hrs : rs = pre ++ post)
    (hkept : m.page.dataHead ≤ m.page.dataTail + (bytes pre).length + m.size) (c : Counts) :
    loop m m.page.dataHead (post.length + 1) (m.page.dataTail + (bytes pre).length) c =
      some ⟨c.n + samples post, c.thr + throttles post⟩ := by
  induction post generalizing pre c with
  | nil =>
    have hhead := h.head
    rw [hrs, List.append_nil] at hhead
    rw [loop, if_neg (by omega)]
    rfl
  | cons r post ih =>
    have hall : (bytes rs).length =
        (bytes pre).length + (r.bytes.length + (bytes post).length) := by
      rw [hrs, bytes_append, bytes_cons, List.length_append, List.length_append]
    have hnext : (bytes (pre ++ [r])).length = (bytes pre).length + r.header.size := by
      rw [bytes_concat, List.length_append, r.length_bytes]
      rfl
    have hhead := h.head
    have hlt := h.head_lt
    have hsize : r.bytes.length = r.header.size := r.length_bytes
    have hpos := r.size_ne_zero
    -- the tail stays below the head, which fits in 64 bits
    have hwrap : (m.page.dataTail + (bytes pre).length + r.header.size) % 2 ^ 64 =
        m.page.dataTail + (bytes (pre ++ [r])).length := by
      rw [Nat.mod_eq_of_lt (by omega), hnext, Nat.add_assoc]
    rw [List.length_cons, loop, if_pos (by omega)]
    simp only [h.header_eq hrs hkept]
    rw [if_neg hpos, hwrap, ih (by rw [hrs, List.append_cons]) (by omega), count_n, count_thr]
    simp only [samples, throttles, List.countP_cons, decide_eq_true_eq]
    congr 2 <;> omega

end Ring

/-! ## Inside a record -/

/-- From `p` on the reader takes `k` headers for samples before it stands at the start of a record
or stops, and `written` samples were written before that. -/
inductive Strays (m : Mapping) (rs : List Record) : Nat → Nat → Nat → Prop
  | ends {p : Nat} (le : m.page.dataHead ≤ p) : Strays m rs p 0 (samples rs)
  | stops {p : Nat} (lt : p < m.page.dataHead)
      (zero : (header m.data (p % m.size)).size = 0) : Strays m rs p 0 (samples rs)
  | meets {p : Nat} {pre : List Record} (start : StartsAt m rs pre p) :
      Strays m rs p 0 (samples pre)
  | goes {p k written : Nat} (lt : p < m.page.dataHead) (inside : ∀ pre, ¬ StartsAt m rs pre p)
      (ne_zero : (header m.data (p % m.size)).size ≠ 0)
      (next : Strays m rs ((p + (header m.data (p % m.size)).size) % 2 ^ 64) k written) :
      Strays m rs p ((if (header m.data (p % m.size)).type = perfRecordSample then 1 else 0) + k)
        written

section Strays

variable {m : Mapping} {rs : List Record} {p k written : Nat}

/-- The count from `p` on: the strays, and the samples from where they end. -/
theorem Strays.loop_eq (h : Holds m rs) (hs : Strays m rs p k written) (c : Counts) :
    ∃ fuel c', loop m m.page.dataHead fuel p c = some c' ∧
      c'.n + written = c.n + k + samples rs := by
  induction hs generalizing c with
  | ends le => exact ⟨1, c, by rw [loop, if_neg (by omega)], rfl⟩
  | stops lt zero =>
    refine ⟨1, c, ?_, rfl⟩
    rw [loop, if_pos lt]
    simp only [zero, if_true]
  | @meets p pre start =>
    obtain ⟨r, post, hrs, rfl, hkept⟩ := start
    refine ⟨_, _, h.loop_records hrs hkept c, ?_⟩
    have hall : samples rs = samples pre + samples (r :: post) := by
      rw [hrs, samples, List.countP_append]
      rfl
    simp only [hall]
    omega
  | @goes p k written lt inside ne_zero next ih =>
    obtain ⟨fuel, c', hloop, hcount⟩ := ih (c.count (header m.data (p % m.size)))
    refine ⟨fuel + 1, c', ?_, ?_⟩
    · rw [loop, if_pos lt]
      simp only [if_neg ne_zero, hloop]
    · rw [hcount, count_n]
      omega

/-- Two runs of the loop that end, end alike. -/
theorem loop_unique {m : Mapping} {head fuel fuel' p : Nat} {c c' c'' : Counts}
    (h : loop m head fuel p c = some c') (h' : loop m head fuel' p c = some c'') : c' = c'' := by
  induction fuel generalizing fuel' p c with
  | zero => cases h
  | succ fuel ih =>
    cases fuel' with
    | zero => cases h'
    | succ fuel' =>
      rw [loop] at h h'
      by_cases hlt : p < head
      · rw [if_pos hlt] at h h'
        by_cases hzero : (header m.data (p % m.size)).size = 0
        · simp only [if_pos hzero] at h h'
          rw [← Option.some.inj h, Option.some.inj h']
        · simp only [if_neg hzero] at h h'
          exact ih h h'
      · rw [if_neg hlt] at h h'
        rw [← Option.some.inj h, Option.some.inj h']

theorem strays_of_loop (h : Holds m rs) {fuel : Nat} {c c' : Counts}
    (hloop : loop m m.page.dataHead fuel p c = some c') :
    ∃ k written, Strays m rs p k written ∧ c'.n + written = c.n + k + samples rs := by
  induction fuel generalizing p c with
  | zero => cases hloop
  | succ fuel ih =>
    by_cases hstart : ∃ pre, StartsAt m rs pre p
    · obtain ⟨pre, hstart⟩ := hstart
      have hs := Strays.meets hstart
      obtain ⟨fuel', c'', hloop', hcount⟩ := hs.loop_eq h c
      exact ⟨0, samples pre, hs, loop_unique hloop' hloop ▸ hcount⟩
    · rw [loop] at hloop
      split at hloop
      · rename_i hlt
        simp only at hloop
        split at hloop
        · rename_i hzero
          cases hloop
          exact ⟨0, samples rs, .stops hlt hzero, rfl⟩
        · rename_i hne
          obtain ⟨k, written, hs, hcount⟩ := ih hloop
          refine ⟨_, _, .goes hlt (fun pre hpre => hstart ⟨pre, hpre⟩) hne hs, ?_⟩
          rw [hcount, count_n]
          omega
      · rename_i hge
        cases hloop
        exact ⟨0, samples rs, .ends (Nat.not_lt.mp hge), rfl⟩

end Strays

/-! ## The counts -/

/-- The counts are right, or a floor where records were overwritten. -/
structure Counted (m : Mapping) (rs : List Record) : Prop where
  exact : m.page.dataHead - m.page.dataTail ≤ m.size → ∃ fuel c page,
    samplerCount m fuel = some (c, page) ∧ c.n = samples rs ∧ c.thr = throttles rs
  floor : m.size < m.page.dataHead - m.page.dataTail → ∀ fuel c page,
    samplerCount m fuel = some (c, page) → c.n ≤ samples rs

section Counted

variable {m : Mapping} {rs : List Record}

theorem sub64_of_le {a b : Nat} (h : b ≤ a) (ha : a < 2 ^ 64) : sub64 a b = a - b := by
  unfold sub64
  omega

theorem Holds.start_eq (h : Holds m rs) :
    start m = if m.size < m.page.dataHead - m.page.dataTail then m.page.dataHead - m.size
      else m.page.dataTail := by
  have hhead := h.head
  rw [start, sub64_of_le (by omega) h.head_lt]
  split
  · rw [sub64_of_le (by omega) h.head_lt]
  · rfl

theorem Holds.exact (h : Holds m rs) (hle : m.page.dataHead - m.page.dataTail ≤ m.size) :
    ∃ fuel c page, samplerCount m fuel = some (c, page) ∧ c.n = samples rs ∧
      c.thr = throttles rs := by
  have hhead := h.head
  have hfrom : m.page.dataTail + (bytes []).length = m.page.dataTail := Nat.add_zero _
  have hkept : m.page.dataHead ≤ m.page.dataTail + (bytes []).length + m.size := by
    rw [hfrom]
    omega
  have hloop := h.loop_records rs.nil_append.symm hkept ⟨0, 0⟩
  refine ⟨rs.length + 1, ⟨0 + samples rs, 0 + throttles rs⟩,
    { m.page with dataTail := m.page.dataHead }, ?_, Nat.zero_add _, Nat.zero_add _⟩
  rw [hfrom] at hloop
  rw [samplerCount, h.start_eq, if_neg (by omega), hloop]
  rfl

theorem Holds.floor_iff (h : Holds m rs) (hlt : m.size < m.page.dataHead - m.page.dataTail) :
    (∀ fuel c page, samplerCount m fuel = some (c, page) → c.n ≤ samples rs) ↔
      ∀ k written, Strays m rs (m.page.dataHead - m.size) k written → k ≤ written := by
  have hstart : start m = m.page.dataHead - m.size := by rw [h.start_eq, if_pos hlt]
  constructor
  · intro hfloor k written hs
    obtain ⟨fuel, c, hloop, hcount⟩ := hs.loop_eq h ⟨0, 0⟩
    have hle := hfloor fuel c _ (by rw [samplerCount, hstart, hloop]; rfl)
    have hcount : c.n + written = 0 + k + samples rs := hcount
    omega
  · intro hstrays fuel c page hrun
    rw [samplerCount, hstart] at hrun
    obtain ⟨c', hloop, hc⟩ := Option.map_eq_some_iff.mp hrun
    obtain ⟨k, written, hs, hcount⟩ := strays_of_loop h hloop
    have hle := hstrays k written hs
    have hcount : c'.n + written = 0 + k + samples rs := hcount
    rw [← (Prod.mk.inj hc).1]
    omega

/-- **The count is right if and only if no more strays were taken for samples than samples were
overwritten or passed over.** -/
theorem counted_iff (h : Holds m rs) :
    Counted m rs ↔ (m.size < m.page.dataHead - m.page.dataTail → ∀ k written,
      Strays m rs (m.page.dataHead - m.size) k written → k ≤ written) := by
  constructor
  · exact fun hcounted hlt => (h.floor_iff hlt).mp (hcounted.floor hlt)
  · intro hstrays
    exact ⟨h.exact, fun hlt => (h.floor_iff hlt).mpr (hstrays hlt)⟩

/-- Where the reader starts at a record there are no strays. -/
theorem counted_of_startsAt (h : Holds m rs) {pre : List Record}
    (hstart : StartsAt m rs pre (m.page.dataHead - m.size)) : Counted m rs := by
  refine ⟨h.exact, fun hlt => (h.floor_iff hlt).mpr fun k written hs => ?_⟩
  cases hs with
  | ends | stops | meets => exact Nat.zero_le _
  | goes _ inside => exact absurd hstart (inside pre)

end Counted

/-! ## A throttle that was overwritten in part -/

namespace Overwritten

/-- A throttle record: the time, the event and its stream. -/
def throttle (time : Nat) : Record where
  type := 5
  misc := 0
  size := 32
  body := littleEndian 8 time ++ littleEndian 8 7 ++ littleEndian 8 7
  length_body := by simp only [List.length_append, length_littleEndian]; rfl
  aligned := by decide

/-- A sample record: the instruction's address. -/
def sample (ip : Nat) : Record where
  type := 9
  misc := 2
  size := 16
  body := littleEndian 8 ip
  length_body := by rw [length_littleEndian]; rfl
  aligned := by decide

/-- A record of how many were lost. -/
def lost (n : Nat) : Record where
  type := 2
  misc := 0
  size := 24
  body := littleEndian 8 7 ++ littleEndian 8 n
  length_body := by simp only [List.length_append, length_littleEndian]; rfl
  aligned := by decide

/-- The time of the throttle has the bytes of a sample's header, 24 bytes long. -/
def records : List Record := [throttle (24 * 2 ^ 48 + 9), sample 4198400, lost 1]

/-- A ring of 64 bytes, of which the first 8 were written twice. -/
def mapping : Mapping where
  page := ⟨72, 0⟩
  size := 64
  data i := (bytes records).getD (if i % 64 < 8 then 64 + i % 64 else i % 64) 0

theorem holds : Holds mapping records where
  size_pos := by decide
  size_aligned := by decide
  tail_aligned := by decide
  head_lt := by decide
  head := by decide
  kept := by decide

end Overwritten

theorem not_counted_overwritten : Holds Overwritten.mapping Overwritten.records ∧
    ¬ Counted Overwritten.mapping Overwritten.records := by
  refine ⟨Overwritten.holds, fun h => ?_⟩
  have hrun : samplerCount Overwritten.mapping 4 = some (⟨2, 0⟩, ⟨72, 72⟩) := by decide
  have hle : 2 ≤ samples Overwritten.records := h.floor (by decide) 4 _ _ hrun
  exact absurd hle (by decide)

theorem counted_iff_overwritten : Counted Overwritten.mapping Overwritten.records ↔
    (Overwritten.mapping.size < Overwritten.mapping.page.dataHead -
        Overwritten.mapping.page.dataTail → ∀ k written, Strays Overwritten.mapping
      Overwritten.records (Overwritten.mapping.page.dataHead - Overwritten.mapping.size) k
        written → k ≤ written) :=
  counted_iff Overwritten.holds

end Sampler
