import MiniosvCtrl.Bucket.Grant
import MiniosvCtrl.Properties.PolicyUpdates

/-!
# What a sequence of grants leaves in the policy

`bench_grant` repeats `--resource`, and the parser keeps the last: the statement names one resource.
Merging by `Sid` does the rest as it should.

* `main_argv` — what one call does, through the parser
* `ofSid_applied` — the statements under a `Sid` are those of the last call that names it
* `accumulated_iff` — when every resource of a grant is readable
-/

namespace Bucket

open Infra

/-! ## Through the parser -/

namespace Call

/-- The resource that the parser keeps. -/
def kept : Call → Option Operand
  | grant _ r more => some ((r :: more).getLast (List.cons_ne_nil r more))
  | revoke _ => none

theorem kept_eq_getLast? (c : Call) : c.kept = c.resources.getLast? := by
  cases c with
  | grant sid r more => exact (List.getLast?_eq_some_getLast (List.cons_ne_nil r more)).symm
  | revoke sid => rfl

theorem accepted (vpce : Operand) (r : Operand) :
    (Action.add r.text vpce.text).accepted = true := by
  simp [Action.accepted, r.ne, vpce.ne]

/-- What the call asks `main` for. -/
def invocation (vpce : Operand) (c : Call) : Invocation :=
  match c.kept with
  | some r => ⟨c.sid.text, .add r.text vpce.text, accepted vpce r⟩
  | none => ⟨c.sid.text, .remove, rfl⟩

@[simp] theorem invocation_sid (vpce : Operand) (c : Call) :
    (c.invocation vpce).sid = c.sid.text := by
  unfold invocation
  split <;> rfl

end Call

namespace Args

theorem store_sid (a : Args) (v : Operand) :
    a.store "--sid" v.text = some { a with sid := some v.text } := by
  simp [store, v.plain]

theorem store_resource (a : Args) (v : Operand) :
    a.store "--resource" v.text = some { a with resource := some v.text } := by
  simp [store, v.plain]

theorem store_vpce (a : Args) (v : Operand) :
    a.store "--vpce" v.text = some { a with vpce := some v.text } := by
  simp [store, v.plain]

/-- Of a repeated option, the last value is kept. -/
theorem parse_resources {a : Args} (haction : a.action.isSome) (hsid : a.sid.isSome)
    (l : List Operand) : a.parse (l.flatMap fun r => ["--resource", r.text]) =
      some { a with resource := (l.getLast?.map Operand.text).or a.resource } := by
  induction l generalizing a with
  | nil => simp [parse, haction, hsid]
  | cons r l ih =>
    have hoption : dashed "--resource" = true := by decide
    rw [List.flatMap_cons, List.cons_append, List.cons_append, List.nil_append, parse,
      if_pos hoption, store_resource, Option.bind_some,
      ih (a := { a with resource := some r.text }) haction hsid]
    cases l with
    | nil => rfl
    | cons r' l =>
      rw [List.getLast?_cons_cons, List.getLast?_eq_some_getLast (List.cons_ne_nil r' l)]
      rfl

theorem parse_argv (vpce : Operand) (c : Call) : Args.empty.parse (c.argv vpce) =
    some ⟨some c.action, some c.sid.text, c.kept.map Operand.text, some vpce.text⟩ := by
  have hword : dashed c.action = false := by
    cases c with
    | grant sid r more => exact (by decide : dashed "add" = false)
    | revoke sid => exact (by decide : dashed "remove" = false)
  have hchoice : c.action = "add" ∨ c.action = "remove" := by cases c <;> simp [Call.action]
  have hsid : dashed "--sid" = true := by decide
  have hvpce : dashed "--vpce" = true := by decide
  have hpositional : Args.empty.positional c.action =
      some { Args.empty with action := some c.action } := if_pos ⟨rfl, hchoice⟩
  simp only [Call.argv, List.cons_append, List.nil_append]
  rw [parse, hword, if_neg Bool.false_ne_true, hpositional, Option.bind_some, parse, if_pos hsid,
    store_sid, Option.bind_some, parse, if_pos hvpce, store_vpce, Option.bind_some,
    parse_resources rfl rfl, ← Call.kept_eq_getLast?, Args.empty, Option.or_none]

end Args

/-- Through the shell and the parser, a call is one invocation. -/
theorem main_argv (vpce : Operand) (c : Call) (p : Policy) :
    main (c.argv vpce) p = (c.invocation vpce).put (Policy.doc p) := by
  have hinvocation : Bucket.invocation
      ⟨some c.action, some c.sid.text, c.kept.map Operand.text, some vpce.text⟩ =
        some (c.invocation vpce) := by
    cases c with
    | grant sid r more =>
      have h := Call.accepted vpce ((r :: more).getLast (List.cons_ne_nil r more))
      simp [Bucket.invocation, Call.invocation, Call.kept, Call.action, Call.sid, h]
    | revoke sid => simp [Bucket.invocation, Call.invocation, Call.kept, Call.action, Call.sid,
        Action.accepted]
  rw [main, Args.parse_argv, Option.bind_some, hinvocation]

/-! ## A sequence of calls -/

section Run

variable (vpce : Operand) (p : Policy) (calls : List Call)

theorem run_concat (c : Call) : run vpce p (calls ++ [c]) =
    (c.invocation vpce).put (Policy.doc (run vpce p calls)) := by
  rw [run, List.foldl_append, List.foldl_cons, List.foldl_nil, main_argv]
  rfl

theorem statements_run : Policy.statements (run vpce p calls) =
    applied (Policy.statements p) (calls.map (Call.invocation vpce)) := by
  induction calls using List.reverseRecOn with
  | nil => rfl
  | append_singleton calls c ih =>
    rw [run_concat, Invocation.statements_put, List.map_append, List.map_singleton, applied_concat,
      ← ih]
    rfl

/-- The document is deleted by the call that leaves no statement. -/
theorem run_eq_none_iff (h : calls ≠ []) :
    run vpce p calls = none ↔ Policy.statements (run vpce p calls) = [] := by
  cases calls using List.reverseRecOn with
  | nil => exact absurd rfl h
  | append_singleton calls c _ =>
    rw [run_concat, Invocation.statements_put, Invocation.put]
    split
    · simp_all
    · simp_all

end Run

/-- The statements under a `Sid`. -/
def ofSid (sid : Sid) (l : List Statement) : List Statement := l.filter fun s => s.sid = some sid

section OfSid

variable {a : Invocation} {l : List Statement} {sid : Sid}

theorem ofSid_added_of_ne (h : a.sid ≠ sid) : ofSid sid a.added = [] := by
  rw [ofSid, List.filter_eq_nil_iff]
  intro s hs
  rw [Invocation.sid_of_mem_added hs]
  simpa using h

theorem ofSid_added : ofSid a.sid a.added = a.added := by
  rw [ofSid, List.filter_eq_self]
  intro s hs
  simp [Invocation.sid_of_mem_added hs]

theorem ofSid_kept_of_ne (h : a.sid ≠ sid) : ofSid sid (a.kept l) = ofSid sid l := by
  have hadded := ofSid_added_of_ne h
  rw [ofSid] at hadded
  rw [ofSid, Invocation.kept, List.filter_append, hadded, List.append_nil, List.filter_filter]
  refine List.filter_congr fun s _ => ?_
  by_cases hs : s.sid = some sid
  · simp [hs, Ne.symm h]
  · simp [hs]

theorem ofSid_kept : ofSid a.sid (a.kept l) = a.added := by
  have hkept :
      (l.filter fun s => s.sid ≠ some a.sid).filter (fun s => s.sid = some a.sid) = [] := by
    simp [List.filter_filter]
  have hadded := ofSid_added (a := a)
  rw [ofSid] at hadded
  rw [ofSid, Invocation.kept, List.filter_append, hkept, List.nil_append, hadded]

/-- The last call that names a `Sid` says what stands under it. -/
theorem ofSid_applied (m : Lineage) : ofSid sid (applied l m) =
    match m.reverse.find? fun a => a.sid = sid with
    | some a => a.added
    | none => ofSid sid l := by
  induction m using List.reverseRecOn with
  | nil => rfl
  | append_singleton m a ih =>
    rw [applied_concat, List.reverse_append, List.reverse_singleton, List.singleton_append]
    by_cases ha : a.sid = sid
    · rw [List.find?_cons_of_pos (by simpa using ha)]
      subst ha
      exact ofSid_kept
    · rw [List.find?_cons_of_neg (by simpa using ha), ← ih]
      exact ofSid_kept_of_ne ha

/-- Nothing else is touched, or moved. -/
theorem filter_applied (m : Lineage) (f : Statement → Bool)
    (h : ∀ s, f s = true → ∀ a ∈ m, s.sid ≠ some a.sid) : (applied l m).filter f = l.filter f := by
  induction m using List.reverseRecOn with
  | nil => rfl
  | append_singleton m a ih =>
    have hadded : a.added.filter f = [] := by
      rw [List.filter_eq_nil_iff]
      intro s hs hf
      exact h s hf a (by simp) (Invocation.sid_of_mem_added hs)
    rw [applied_concat, Invocation.kept, List.filter_append, hadded, List.append_nil,
      List.filter_filter, ← ih fun s hs b hb => h s hs b (List.mem_append_left _ hb)]
    refine List.filter_congr fun s _ => ?_
    cases hf : f s with
    | false => simp
    | true => simpa using h s hf a (by simp)

end OfSid

/-! ## Grants accumulate -/

/-- The last call that names a `Sid`. -/
def last (calls : List Call) (sid : Sid) : Option Call :=
  calls.reverse.find? fun c => c.sid.text = sid

/-- The statement names `Sid`s that no call does, or none. -/
def foreign (calls : List Call) (s : Statement) : Bool :=
  calls.all fun c => s.sid ≠ some c.sid.text

/-- What a sequence of calls is for. -/
structure Accumulated (vpce : Operand) (p : Policy) (calls : List Call) : Prop where
  granted : ∀ sid g r more, last calls sid = some (.grant g r more) →
    ∃ s, ofSid sid (Policy.statements (run vpce p calls)) = [s] ∧
      ∀ x ∈ r :: more, s.AllowsAll vpce.text x.text
  revoked : ∀ sid g, last calls sid = some (.revoke g) →
    ofSid sid (Policy.statements (run vpce p calls)) = []
  others : (Policy.statements (run vpce p calls)).filter (foreign calls) =
    (Policy.statements p).filter (foreign calls)
  deleted : calls ≠ [] →
    (run vpce p calls = none ↔ Policy.statements (run vpce p calls) = [])

/-- The last resource of a grant names every object that the others do. -/
def Call.Covered (c : Call) : Prop :=
  ∀ last, c.kept = some last → ∀ x ∈ c.resources, ∀ object : String,
    Names x.text.toList object.toList → Names last.text.toList object.toList

theorem Call.covered_of_single (sid r : Operand) : (Call.grant sid r []).Covered := by
  intro last hlast x hx object h
  obtain rfl := List.mem_singleton.mp hx
  obtain rfl := Option.some_inj.mp hlast
  exact h

section Final

variable (vpce : Operand) (p : Policy) {calls : List Call} {sid : Sid}

/-- Under a `Sid` that is named stands what its last call added. -/
theorem ofSid_run {c : Call} (h : last calls sid = some c) :
    ofSid sid (Policy.statements (run vpce p calls)) = (c.invocation vpce).added := by
  have hfind : (calls.map (Call.invocation vpce)).reverse.find? (fun a => a.sid = sid) =
      some (c.invocation vpce) := by
    rw [← List.map_reverse, List.find?_map]
    simpa [Function.comp_def, last] using ⟨c, h, rfl⟩
  rw [statements_run, ofSid_applied, hfind]

theorem allows_statement (a : Invocation) (resource object : String) :
    (a.statement resource vpce.text).Allows vpce.text object ↔
      Names resource.toList object.toList := by
  constructor
  · rintro ⟨_, he, h⟩
    simp only [Invocation.statement, Body.getObject.injEq, and_true] at he
    exact he ▸ h
  · exact fun h => ⟨resource, rfl, h⟩

theorem granted_iff {g r : Operand} {more : List Operand}
    (h : last calls sid = some (.grant g r more)) :
    (∃ s, ofSid sid (Policy.statements (run vpce p calls)) = [s] ∧
      ∀ x ∈ r :: more, s.AllowsAll vpce.text x.text) ↔ (Call.grant g r more).Covered := by
  let z := (r :: more).getLast (List.cons_ne_nil r more)
  let a := (Call.grant g r more).invocation vpce
  have hadded : ofSid sid (Policy.statements (run vpce p calls)) =
      [a.statement z.text vpce.text] := ofSid_run vpce p h
  rw [hadded]
  constructor
  · rintro ⟨s, hs, hall⟩ last hlast x hx object hobject
    obtain rfl := List.singleton_inj.mp hs
    obtain rfl := Option.some_inj.mp hlast
    exact (allows_statement vpce a z.text object).mp (hall x hx object hobject)
  · intro hcovered
    exact ⟨_, rfl, fun x hx object hobject =>
      (allows_statement vpce a z.text object).mpr (hcovered z rfl x hx object hobject)⟩

theorem others_run : (Policy.statements (run vpce p calls)).filter (foreign calls) =
    (Policy.statements p).filter (foreign calls) := by
  rw [statements_run]
  refine filter_applied _ _ fun s hs a ha => ?_
  obtain ⟨c, hc, rfl⟩ := List.mem_map.mp ha
  rw [Call.invocation_sid]
  simpa using List.all_eq_true.mp hs c hc

end Final

/-- **Grants accumulate exactly when the last resource of every grant that stands names all that
its others do**, as it does where there is no other. -/
theorem accumulated_iff (vpce : Operand) (p : Policy) (calls : List Call) :
    Accumulated vpce p calls ↔ ∀ sid c, last calls sid = some c → c.Covered := by
  constructor
  · intro h sid c hc
    cases c with
    | grant g r more => exact (granted_iff vpce p hc).mp (h.granted sid g r more hc)
    | revoke g => exact fun last hlast => nomatch hlast
  · intro h
    exact
      { granted := fun sid g r more hc => (granted_iff vpce p hc).mpr (h sid _ hc)
        revoked := fun sid g hc => ofSid_run vpce p hc
        others := others_run vpce p
        deleted := run_eq_none_iff vpce p calls }

theorem names_self (t : List Char) : Names t t := by
  induction t with
  | nil => exact .nil
  | cons c t ih => exact .char ih

/-- A resource without wildcards names nothing but itself. -/
theorem eq_of_names {p t : List Char} (hp : ∀ c ∈ p, c ≠ '*' ∧ c ≠ '?') (h : Names p t) :
    t = p := by
  induction h with
  | nil => rfl
  | char _ ih => rw [ih fun c hc => hp c (List.mem_cons_of_mem _ hc)]
  | any _ _ => exact absurd rfl (hp '?' List.mem_cons_self).2
  | skip _ _ => exact absurd rfl (hp '*' List.mem_cons_self).1
  | more _ _ => exact absurd rfl (hp '*' List.mem_cons_self).1

def blobKey : Operand := ⟨"arn:aws:s3:::bench/blob.bin", by decide, by decide⟩

def duckdbKey : Operand := ⟨"arn:aws:s3:::bench/bin/duckdb", by decide, by decide⟩

/-- One grant of two objects, as the shell function allows. -/
def twoKeys : Call := .grant ⟨"BenchBlobFromVpce", by decide, by decide⟩ blobKey [duckdbKey]

/-- The first of the two cannot be read. -/
theorem accumulated_twoKeys :
    ¬ Accumulated ⟨"vpce-0a1", by decide, by decide⟩ none [twoKeys] := by
  rw [accumulated_iff]
  intro h
  have hlast : last [twoKeys] "BenchBlobFromVpce" = some twoKeys := by decide
  have hliteral : ∀ c ∈ duckdbKey.text.toList, c ≠ '*' ∧ c ≠ '?' := by
    intro c hc
    simpa using List.all_eq_true.mp (by decide :
      (duckdbKey.text.toList.all fun c => c != '*' && c != '?') = true) c hc
  have hnames : Names duckdbKey.text.toList blobKey.text.toList :=
    h _ _ hlast duckdbKey rfl blobKey List.mem_cons_self blobKey.text (names_self _)
  have heq := eq_of_names hliteral hnames
  exact absurd heq (by decide)

end Bucket
