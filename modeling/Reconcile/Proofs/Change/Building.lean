import Reconcile.Change.Builder
import Reconcile.Proofs.ChangeId
import Reconcile.Proofs.Lists

/-!
# Proofs/Change/Building — many changes built on one counter

An `Operation` is one use of the builder; `outcomes` performs operations one after the other on one
counter, which moves on when a change is built and stays where it is when a request is refused.
Main fact: `numbered_outcomes` — as long as the counter does not overflow, the changes that are
built are numbered from one in their order, so that their identifiers differ whatever kinds and
references hold; a request is refused exactly for its first required field that is missing, and
leaving it out leaves out its refusal and nothing else.
-/

namespace Reconcile

/-- One use of the builder. -/
inductive Operation where
  | create (r : CreateRequest)
  | update (r : UpdateRequest)
  | flip (kind ref resourceId scope : String) (flip : Flip)
  | delete (r : DeleteRequest)

namespace Operation

/-- The action that is asked for. -/
def action : Operation → Action
  | create _ => .create
  | update _ => .update
  | flip .. => .update
  | delete _ => .delete

/-- The kind of the resource. -/
def kind : Operation → String
  | create r => r.kind
  | update r => r.kind
  | flip kind .. => kind
  | delete r => r.kind

/-- The reference of the resource. -/
def ref : Operation → String
  | create r => r.ref
  | update r => r.ref
  | flip _ ref .. => ref
  | delete r => r.ref

/-- The fields that are sent. -/
def fields : Operation → FieldMap
  | create r => r.fields
  | update r => r.fields
  | flip .. => ∅
  | delete _ => ∅

/-- The fields that have to be there. -/
def required : Operation → List String
  | create r => r.required
  | update r => r.required
  | flip .. => []
  | delete _ => []

/-- What is asked for, as a change with a given identifier. -/
def change (id : String) : Operation → Change
  | create r => {
      id := id, kind := r.kind, ref := r.ref, action := .create, fields := r.fields
      parent := r.parent, protection := r.protect.map .status, scope := r.scope
      dependsOn := r.dependsOn }
  | update r => {
      id := id, kind := r.kind, ref := r.ref, resourceId := some r.resourceId, action := .update
      fields := r.fields, parent := r.parent
      protection := (r.flip.filter Flip.isChange).map .flip
      scope := r.scope, dependsOn := r.dependsOn }
  | flip kind ref resourceId scope f => {
      id := id, kind := kind, ref := ref, resourceId := some resourceId, action := .update
      protection := some (.flip f), scope := scope }
  | delete r => {
      id := id, kind := r.kind, ref := r.ref, resourceId := some r.resourceId
      monikers := r.monikers, action := .delete, parent := r.parent, scope := r.scope }

/-- Performs an operation. -/
def perform (issued : Issued) : Operation → Except DocumentFault (Change × Issued)
  | create r => r.build issued
  | update r => r.build issued
  | flip kind ref resourceId scope f => .ok (buildFlip kind ref resourceId scope f issued)
  | delete r => .ok (r.build issued)

/-- All required fields are there. -/
def Complete (op : Operation) : Prop := ∀ key ∈ op.required, op.fields.contains key = true

/-- A required field is missing, and none in front of it. -/
def Lacks (op : Operation) (field : String) : Prop :=
  FirstFailing (fun key => op.fields.contains key = true) op.required field

@[simp] theorem change_id (id : String) (op : Operation) : (op.change id).id = id := by
  cases op <;> rfl

@[simp] theorem change_action (id : String) (op : Operation) :
    (op.change id).action = op.action := by
  cases op <;> rfl

@[simp] theorem change_kind (id : String) (op : Operation) : (op.change id).kind = op.kind := by
  cases op <;> rfl

@[simp] theorem change_ref (id : String) (op : Operation) : (op.change id).ref = op.ref := by
  cases op <;> rfl

theorem missingField?_eq_some_iff {op : Operation} {field : String} :
    missingField? op.required op.fields = some field ↔ op.Lacks field := by
  rw [missingField?, List.find?_eq_some_iff_append]
  constructor
  · rintro ⟨hfield, front, rest, hrequired, hfront⟩
    exact ⟨front, rest, hrequired, by simpa using hfront, by simpa using hfield⟩
  · rintro ⟨front, rest, hrequired, hfront, hfield⟩
    exact ⟨by simpa using hfield, front, rest, hrequired, by simpa using hfront⟩

theorem missingField?_eq_none_iff {op : Operation} :
    missingField? op.required op.fields = none ↔ op.Complete := by
  simp [missingField?, Complete]

/-- **An operation is refused for a missing field, or gives what is asked for under the next
identifier.** -/
theorem perform_eq (op : Operation) (issued : Issued) : op.perform issued
    = match missingField? op.required op.fields with
      | some field => .error (.missingField op.kind op.ref field)
      | none => .ok (op.change (freshId issued op.action op.kind op.ref), issued + 1) := by
  cases op with
  | create r =>
    rw [perform, CreateRequest.build, checkRequired, required, fields]
    cases missingField? r.required r.fields <;> rfl
  | update r =>
    rw [perform, UpdateRequest.build, checkRequired, required, fields]
    cases missingField? r.required r.fields <;> rfl
  | flip => rfl
  | delete => rfl

/-- The identifier with a given position. -/
def idAt (op : Operation) (position : Nat) : String :=
  toString position ++ ":" ++ String.singleton op.action.letter ++ ":" ++ op.kind ++ ":" ++ op.ref

/-- **What an operation gives at a position**: a refusal for the first required field that is
missing, or what is asked for under the identifier with this position. -/
structure Gives (op : Operation) (position : Nat) (result : Except DocumentFault Change) :
    Prop where
  fails_iff (fault : DocumentFault) : result = .error fault
    ↔ ∃ field, op.Lacks field ∧ fault = .missingField op.kind op.ref field
  succeeds_iff (c : Change) : result = .ok c ↔ op.Complete ∧ c = op.change (op.idAt position)

theorem complete_or_lacks (op : Operation) : op.Complete ∨ ∃ field, op.Lacks field := by
  cases hmissing : missingField? op.required op.fields with
  | none => exact .inl (missingField?_eq_none_iff.mp hmissing)
  | some field => exact .inr ⟨field, missingField?_eq_some_iff.mp hmissing⟩

theorem not_lacks_of_complete {op : Operation} (h : op.Complete) (field : String) :
    ¬ op.Lacks field :=
  not_firstFailing_of_forall h field

theorem gives_of_complete {op : Operation} (h : op.Complete) (position : Nat) :
    op.Gives position (.ok (op.change (op.idAt position))) where
  fails_iff fault := by simp [not_lacks_of_complete h]
  succeeds_iff c := by simp [h, eq_comm]

theorem gives_of_lacks {op : Operation} {field : String} (h : op.Lacks field) (position : Nat) :
    op.Gives position (.error (.missingField op.kind op.ref field)) where
  fails_iff fault := by
    constructor
    · intro hfault
      exact ⟨field, h, (Except.error.inj hfault).symm⟩
    · rintro ⟨other, hother, rfl⟩
      rw [← missingField?_eq_some_iff] at h hother
      rw [Option.some.inj (h.symm.trans hother)]
  succeeds_iff c := by
    have hincomplete : ¬ op.Complete := fun hcomplete => not_lacks_of_complete hcomplete field h
    simp [hincomplete]

/-- As long as the counter does not overflow, the next identifier has the next position. -/
theorem freshId_eq (op : Operation) {issued : Nat} (h : issued + 1 < ChangeId.positionLimit) :
    freshId issued op.action op.kind op.ref = op.idAt (issued + 1) := by
  rw [freshId, nextPosition, Nat.mod_eq_of_lt h]
  rfl

end Operation

/-! ## Performing many operations -/

/-- The results of operations performed one after the other, and how many identifiers have been
issued behind them.  A refusal leaves the counter as it is. -/
def outcomes (issued : Issued) : List Operation → List (Except DocumentFault Change) × Issued
  | [] => ([], issued)
  | op :: rest =>
    match op.perform issued with
    | .ok (c, next) => (.ok c :: (outcomes next rest).1, (outcomes next rest).2)
    | .error fault => (.error fault :: (outcomes issued rest).1, (outcomes issued rest).2)

/-- The changes that were built. -/
def built (results : List (Except DocumentFault Change)) : List Change :=
  results.filterMap Except.toOption

@[simp] theorem built_cons_ok (c : Change) (results : List (Except DocumentFault Change)) :
    built (.ok c :: results) = c :: built results :=
  rfl

@[simp] theorem built_cons_error (fault : DocumentFault)
    (results : List (Except DocumentFault Change)) :
    built (.error fault :: results) = built results :=
  rfl

section Steps

variable {op : Operation} {issued : Issued} {rest : List Operation}

theorem outcomes_cons_of_complete (h : op.Complete) : outcomes issued (op :: rest)
    = (.ok (op.change (freshId issued op.action op.kind op.ref)) :: (outcomes (issued + 1) rest).1,
      (outcomes (issued + 1) rest).2) := by
  rw [outcomes, op.perform_eq, Operation.missingField?_eq_none_iff.mpr h]

theorem outcomes_cons_of_lacks {field : String} (h : op.Lacks field) :
    outcomes issued (op :: rest)
      = (.error (.missingField op.kind op.ref field) :: (outcomes issued rest).1,
        (outcomes issued rest).2) := by
  rw [outcomes, op.perform_eq, Operation.missingField?_eq_some_iff.mpr h]

end Steps

theorem outcomes_append (issued : Issued) (ops rest : List Operation) :
    outcomes issued (ops ++ rest)
      = ((outcomes issued ops).1 ++ (outcomes (outcomes issued ops).2 rest).1,
        (outcomes (outcomes issued ops).2 rest).2) := by
  induction ops generalizing issued with
  | nil => rfl
  | cons op ops ih =>
    rw [List.cons_append]
    rcases op.complete_or_lacks with hop | ⟨field, hop⟩
    · simp only [outcomes_cons_of_complete hop, ih, List.cons_append]
    · simp only [outcomes_cons_of_lacks hop, ih, List.cons_append]

theorem length_outcomes (issued : Issued) (ops : List Operation) :
    (outcomes issued ops).1.length = ops.length := by
  induction ops generalizing issued with
  | nil => rfl
  | cons op ops ih =>
    rcases op.complete_or_lacks with hop | ⟨field, hop⟩
    · rw [outcomes_cons_of_complete hop, List.length_cons, List.length_cons, ih]
    · rw [outcomes_cons_of_lacks hop, List.length_cons, List.length_cons, ih]

/-- The counter moves on by one for each change that is built. -/
theorem issued_outcomes (issued : Issued) (ops : List Operation) :
    (outcomes issued ops).2 = issued + (built (outcomes issued ops).1).length := by
  induction ops generalizing issued with
  | nil => rfl
  | cons op ops ih =>
    rcases op.complete_or_lacks with hop | ⟨field, hop⟩
    · simp only [outcomes_cons_of_complete hop, ih, built_cons_ok, List.length_cons]
      exact Nat.add_right_comm issued 1 _
    · simp only [outcomes_cons_of_lacks hop, ih, built_cons_error]

/-- **Every operation gives its result at the position behind the changes built so far.** -/
theorem gives_outcomes {issued : Nat} {ops : List Operation}
    (h : issued + ops.length < ChangeId.positionLimit) {i : Nat} {op : Operation}
    (hop : ops[i]? = some op) : ∃ result, (outcomes issued ops).1[i]? = some result
      ∧ op.Gives (issued + (built ((outcomes issued ops).1.take i)).length + 1) result := by
  induction ops generalizing issued i with
  | nil => simp at hop
  | cons first rest ih =>
    rw [List.length_cons] at h
    cases i with
    | zero =>
      obtain rfl : first = op := by simpa using hop
      rcases first.complete_or_lacks with hfirst | ⟨field, hfirst⟩
      · rw [outcomes_cons_of_complete hfirst, first.freshId_eq (by omega)]
        exact ⟨_, rfl, Operation.gives_of_complete hfirst _⟩
      · rw [outcomes_cons_of_lacks hfirst]
        exact ⟨_, rfl, Operation.gives_of_lacks hfirst _⟩
    | succ i =>
      have hop' : rest[i]? = some op := by simpa using hop
      rcases first.complete_or_lacks with hfirst | ⟨field, hfirst⟩
      · have hnext : issued + 1 + rest.length < ChangeId.positionLimit := by omega
        obtain ⟨result, hresult, hgives⟩ := ih hnext hop'
        refine ⟨result, by rwa [outcomes_cons_of_complete hfirst, List.getElem?_cons_succ], ?_⟩
        rw [outcomes_cons_of_complete hfirst, List.take_succ_cons, built_cons_ok, List.length_cons]
        rwa [← Nat.add_assoc, Nat.add_right_comm issued]
      · have hnext : issued + rest.length < ChangeId.positionLimit := by omega
        obtain ⟨result, hresult, hgives⟩ := ih hnext hop'
        refine ⟨result, by rwa [outcomes_cons_of_lacks hfirst, List.getElem?_cons_succ], ?_⟩
        rwa [outcomes_cons_of_lacks hfirst, List.take_succ_cons, built_cons_error]

/-- The changes that are built are numbered in their order. -/
theorem id_eq_of_getElem?_built {issued : Nat} {ops : List Operation}
    (h : issued + ops.length < ChangeId.positionLimit) {k : Nat} {c : Change}
    (hc : (built (outcomes issued ops).1)[k]? = some c) :
    c.id = (ChangeId.mk (issued + k + 1) c.action c.kind c.ref).text := by
  induction ops generalizing issued k with
  | nil => simp [outcomes, built] at hc
  | cons op ops ih =>
    rw [List.length_cons] at h
    rcases op.complete_or_lacks with hop | ⟨field, hop⟩
    · rw [outcomes_cons_of_complete hop, built_cons_ok, op.freshId_eq (by omega)] at hc
      cases k with
      | zero =>
        obtain rfl : op.change (op.idAt (issued + 1)) = c := by simpa using hc
        simp [Operation.idAt, ChangeId.text]
      | succ k =>
        have hnext : issued + 1 + ops.length < ChangeId.positionLimit := by omega
        rw [ih hnext (by simpa using hc), Nat.add_right_comm issued 1 k, Nat.add_assoc issued]
    · rw [outcomes_cons_of_lacks hop, built_cons_error] at hc
      exact ih (by omega) hc

/-- Identifiers differ by their positions, whatever stands behind these. -/
theorem nodup_map_id_built {issued : Nat} {ops : List Operation}
    (h : issued + ops.length < ChangeId.positionLimit) :
    ((built (outcomes issued ops).1).map Change.id).Nodup := by
  rw [List.Nodup, List.pairwise_map, List.pairwise_iff_getElem]
  intro i j hi hj hij hid
  have hleft := id_eq_of_getElem?_built h (List.getElem?_eq_getElem hi)
  have hright := id_eq_of_getElem?_built h (List.getElem?_eq_getElem hj)
  have hposition := ChangeId.position_eq_of_text_eq (hleft.symm.trans (hid.trans hright))
  dsimp only at hposition
  omega

/-- Leaving out a request that is refused leaves out its refusal and nothing else. -/
theorem outcomes_eraseIdx (issued : Issued) {op : Operation} (h : ¬ op.Complete)
    (before after : List Operation) : outcomes issued (before ++ after)
      = ((outcomes issued (before ++ op :: after)).1.eraseIdx before.length,
        (outcomes issued (before ++ op :: after)).2) := by
  obtain ⟨field, hfield⟩ := op.complete_or_lacks.resolve_left h
  rw [outcomes_append, outcomes_append, outcomes_cons_of_lacks hfield,
    List.eraseIdx_append_of_length_le (length_outcomes ..).le, length_outcomes, Nat.sub_self,
    List.eraseIdx_cons_zero]

/-- A flip is carried by an update where it is asked for and changes something. -/
theorem protection_update_eq_some_iff (id : String) (r : UpdateRequest) (p : Protection) :
    ((Operation.update r).change id).protection = some p
      ↔ ∃ f, r.flip = some f ∧ f.old ≠ f.new ∧ p = .flip f := by
  simp [Operation.change, Option.filter_eq_some_iff, Flip.isChange, and_assoc, eq_comm (a := p)]

/-- What is promised of operations performed one after the other on a counter that starts at
zero: the results, and the number of identifiers that are issued. -/
structure Numbered (ops : List Operation)
    (results : List (Except DocumentFault Change)) (issued : Issued) : Prop where
  /-- Every operation has its result. -/
  length_eq : results.length = ops.length
  /-- An operation gives its result at the position behind the changes built in front of it. -/
  gives {i : Nat} {op : Operation} {result : Except DocumentFault Change} (hop : ops[i]? = some op)
    (hresult : results[i]? = some result) :
    op.Gives ((built (results.take i)).length + 1) result
  /-- The changes that are built are numbered from one. -/
  id_eq {k : Nat} {c : Change} (hc : (built results)[k]? = some c) :
    c.id = toString (k + 1) ++ ":" ++ String.singleton c.action.letter ++ ":" ++ c.kind ++ ":"
      ++ c.ref
  /-- No two of them have the same identifier. -/
  nodup : ((built results).map Change.id).Nodup
  /-- Nothing else takes a position. -/
  issued_eq : issued = (built results).length
  /-- A request that is refused has no effect on the other results. -/
  skips {op : Operation} {before after : List Operation} (hops : ops = before ++ op :: after)
    (h : ¬ op.Complete) : outcomes 0 (before ++ after) = (results.eraseIdx before.length, issued)
  /-- An update carries all changed fields, and a flip where one is asked for that is one. -/
  updates {i : Nat} {r : UpdateRequest} {c : Change} (hop : ops[i]? = some (.update r))
    (hresult : results[i]? = some (.ok c)) : c.fields = r.fields
      ∧ ∀ p, c.protection = some p ↔ ∃ f, r.flip = some f ∧ f.old ≠ f.new ∧ p = .flip f

/-- **Changes are numbered in the order in which they are built**, also between refusals, as long as
there are fewer operations than positions. -/
theorem numbered_outcomes (ops : List Operation) (h : ops.length < 2 ^ 64) :
    Numbered ops (outcomes 0 ops).1 (outcomes 0 ops).2 := by
  have hlimit : 0 + ops.length < ChangeId.positionLimit := by rwa [Nat.zero_add]
  have hgives {i : Nat} {op : Operation} {result : Except DocumentFault Change}
      (hop : ops[i]? = some op) (hresult : (outcomes 0 ops).1[i]? = some result) :
      op.Gives ((built ((outcomes 0 ops).1.take i)).length + 1) result := by
    obtain ⟨other, hother, hgives⟩ := gives_outcomes hlimit hop
    rwa [Option.some.inj (hresult.symm.trans hother), ← Nat.zero_add (List.length _)]
  exact {
    length_eq := length_outcomes 0 ops
    gives := hgives
    id_eq := fun hc => by
      rw [id_eq_of_getElem?_built hlimit hc, Nat.zero_add]
      rfl
    nodup := nodup_map_id_built hlimit
    issued_eq := by rw [issued_outcomes, Nat.zero_add]
    skips := fun hops hop => by rw [hops, outcomes_eraseIdx 0 hop]
    updates := fun hop hresult => by
      obtain ⟨-, rfl⟩ := ((hgives hop hresult).succeeds_iff _).mp rfl
      exact ⟨rfl, protection_update_eq_some_iff _ _⟩ }

/-- Colons and digits in kinds and references, requests that lack fields, and flips of both
sorts. -/
def mixedOperations : List Operation :=
  [.create { kind := "a:1", ref := "b", required := ["name"]
             fields := .ofList [("name", .text "b")] },
    .create { kind := "a", ref := "c", required := ["name", "size", "host"]
              fields := .ofList [("name", .text "c")] },
    .update { kind := "a", ref := "1:b", resourceId := "x", fields := .ofList [("size", .text "2")]
              flip := some ⟨true, false⟩ },
    .update { kind := "a", ref := "1:b", resourceId := "x", fields := .ofList [("size", .text "3")]
              flip := some ⟨true, true⟩ },
    .update { kind := "a", ref := "1:b", resourceId := "x", required := ["size"] },
    .flip "a" "2" "y" "default" ⟨false, true⟩,
    .delete { kind := "a", ref := "", resourceId := "z" }]

/-- A run with refusals: each is skipped by the numbers, and names the first field that lacks. -/
theorem numbered_outcomes_mixed : mixedOperations.length < 2 ^ 64
    ∧ Numbered mixedOperations (outcomes 0 mixedOperations).1 (outcomes 0 mixedOperations).2
    ∧ (built (outcomes 0 mixedOperations).1).map Change.id
      = ["1:c:a:1:b", "2:u:a:1:b", "3:u:a:1:b", "4:u:a:2", "5:d:a:"]
    ∧ (outcomes 0 mixedOperations).1[1]? = some (.error (.missingField "a" "c" "size")) :=
  ⟨by decide, numbered_outcomes mixedOperations (by decide), by rfl, by rfl⟩

end Reconcile
