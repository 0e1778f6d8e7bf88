import Reconcile.Proofs.Resolution.Repetition

/-!
# Proofs/Resolution/Independence — changes are resolved apart from each other

The other changes of a batch see nothing of a change but its heading, which tells what it creates,
and the listings that it asks for, which over a steady provider are answered alike whoever asks.  So
a change may be given other fields and another parent, good or bad, and the others are resolved as
before.  Main fact: `keepsApart_resolveReferences`.
-/

namespace Reconcile

/-- What is reported on other changes than one. -/
def Tally.besides (t : Tally) (changeId : String) : Tally where
  warnings := t.warnings.filter fun w => w.changeId != changeId
  faults := t.faults.filter fun f => f.changeId != changeId

theorem Tally.besides_append (t u : Tally) (changeId : String) :
    (t ++ u).besides changeId = t.besides changeId ++ u.besides changeId := by
  simp [besides, append_eq]

namespace Resolution

variable {changeId : String} {c c' : Change}

/-- What reports on a change reports on no other one. -/
theorem Effect.ReportsOn.besides_eq {e : Effect} (h : e.ReportsOn changeId) :
    e.report.besides changeId = {} := by
  have hwarnings : e.report.warnings.filter (fun w => w.changeId != changeId) = [] :=
    List.filter_eq_nil_iff.mpr fun w hw => by simp [h.warnings w hw]
  have hfaults : e.report.faults.filter (fun f => f.changeId != changeId) = [] :=
    List.filter_eq_nil_iff.mpr fun f hf => by simp [h.faults f hf]
  rw [Tally.besides, hwarnings, hfaults]

/-- **What a batch reports besides a change is what the others report.** -/
theorem besides_batchEffect (s : Surroundings) (look : Look) (left right : List Change)
    (c : Change) : (batchEffect s look (left ++ c :: right)).report.besides c.id
      = (batchEffect s look left).report.besides c.id
        ++ (batchEffect s look right).report.besides c.id := by
  rw [batchEffect_split, Effect.report_append, Effect.report_append, Tally.besides_append,
    Tally.besides_append, (reportsOn_effectOf c).besides_eq, Tally.nil_append]

end Resolution

open Resolution in
/-- **Whatever is wrong with a change stays with it.**  With another change of the same heading in
its place, over a steady provider, every other change of the batch is resolved in the same way, and
what is reported on the others is the same, in the same order. -/
theorem keepsApart_resolveReferences {p : Provider} (hp : p.Steady) (index : DeclaredIndex)
    (accessors : Accessors Declaration) {changes : List Change} {i : Nat} {c c' : Change}
    (hc : changes[i]? = some c) (hsame : c'.heading = c.heading) (session : Session) :
    ∃ tally resolved after tally' resolved' after',
      resolveReferences p index accessors changes session = (.ok tally, resolved, after)
      ∧ resolveReferences p index accessors (changes.set i c') session
        = (.ok tally', resolved', after')
      ∧ (∀ j, j ≠ i → resolved'[j]? = resolved[j]?)
      ∧ tally'.besides c.id = tally.besides c.id := by
  let s : Surroundings := ⟨upcomingOf changes, index, accessors⟩
  obtain ⟨left, right, rfl, rfl⟩ := exists_split_of_getElem? hc
  have hset : (left ++ c :: right).set left.length c' = left ++ c' :: right := by simp
  have hid : c'.id = c.id := congrArg Prod.fst hsame
  have hupcoming : s.upcoming = upcomingOf ((left ++ c :: right).set left.length c') := by
    refine upcomingOf_congr ?_
    rw [hset, List.map_append, List.map_append, List.map_cons, List.map_cons, hsame]
  refine ⟨_, _, _, _, _, _, resolveReferences_of_steady hp (s := s) rfl (.refl p session),
    resolveReferences_of_steady hp hupcoming (.refl p session), fun j hj => ?_, ?_⟩
  · rw [List.map_set, List.getElem?_set_ne (Ne.symm hj)]
  · rw [hset, besides_batchEffect, ← hid, besides_batchEffect]

/-- The update of the version with a portal that nobody knows of, a list of nothing, and a parent
that does not exist. -/
def misledVersion : Change where
  id := "1:u:api_version:v1"
  kind := "api_version"
  ref := "v1"
  action := .update
  fields := Dict.ofList [("portal_id", .text "lost"), ("team_id", .list [.null, .null])]
  parent := some { kind := "api", ref := "Billing" }

theorem keepsApart_misledVersion : (Provider.ofSnapshot loneApi).Steady
    ∧ ∃ tally resolved after tally' resolved' after',
      resolveReferences (.ofSnapshot loneApi) .none standardAccessors halfKnownBatch {}
        = (.ok tally, resolved, after)
      ∧ resolveReferences (.ofSnapshot loneApi) .none standardAccessors
        (halfKnownBatch.set 0 misledVersion) {} = (.ok tally', resolved', after')
      ∧ (∀ j, j ≠ 0 → resolved'[j]? = resolved[j]?)
      ∧ tally'.besides "1:u:api_version:v1" = tally.besides "1:u:api_version:v1" :=
  ⟨steady_ofSnapshot loneApi, @keepsApart_resolveReferences _ (steady_ofSnapshot loneApi) .none
    standardAccessors halfKnownBatch 0 _ misledVersion List.getElem?_cons_zero rfl {}⟩

end Reconcile
