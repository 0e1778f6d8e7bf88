import Reconcile.Proofs.Resolution.Origins
import Reconcile.Proofs.Resolution.Steady

/-!
# Proofs/Resolution/Repetition — a resolved batch is left as it is

Resolution puts links into a change and leaves the rest alone (`Change.OnlyLinked`).  None of these
links makes a difference to a second run: it finds the same references, or fewer where the parent
has its identifier now, and whatever it would write down stands there already (`onChange_effectOf`).
Main fact: `repeats_resolveReferences`, over a steady provider.
-/

namespace Reconcile

/-- **Nothing but links has been put into a change**, and none into a delete: what is known of its
fields, dependencies behind those it had, and the identifier of its parent, if that had none. -/
structure Change.OnlyLinked (c c' : Change) : Prop where
  delete : c.action = .delete → c' = c
  rest : c' = { c with
    references := c'.references, parent := c'.parent, dependsOn := c'.dependsOn }
  references : ∀ field, c.fields.get? field = none →
    c'.references.get? field = c.references.get? field
  dependsOn : ∃ added, c'.dependsOn = c.dependsOn ++ added
    ∧ added.Nodup ∧ c.dependsOn.Disjoint added ∧ c.id ∉ added
  parent : c'.parent = c.parent ∨ ∃ kind ref id,
    c.parent = some ⟨kind, ref, none⟩ ∧ c'.parent = some ⟨kind, ref, some id⟩

theorem Change.OnlyLinked.heading {c c' : Change} (h : c.OnlyLinked c') :
    c'.heading = c.heading := by
  rw [h.rest]
  rfl

namespace Resolution

variable {s : Surroundings} {look : Look} {c : Change} {e : Effect}

/-! ## What resolution puts into a change -/

theorem effectOf_of_ne (s : Surroundings) (look : Look) (haction : c.action ≠ .delete) :
    effectOf s look c
      = fieldsEffect s look c.id c.fields.entries ++ parentEffect s look c.id c.parent :=
  if_neg haction

/-- Only for a parent without an identifier one is found. -/
theorem exists_eq_of_parentEffect {changeId id : String} {parent : Option Parent}
    (h : (parentEffect s look changeId parent).parent = some id) :
    ∃ kind ref, parent = some ⟨kind, ref, none⟩ := by
  rcases parent with _ | ⟨kind, ref, _ | known⟩
  · exact absurd h nofun
  · exact ⟨kind, ref, rfl⟩
  · exact absurd h nofun

/-- Only the parent of a change finds an identifier for it. -/
theorem parent_effectOf (s : Surroundings) (look : Look) (haction : c.action ≠ .delete) :
    (effectOf s look c).parent = (parentEffect s look c.id c.parent).parent := by
  rw [effectOf_of_ne s look haction, Effect.parent_append, parent_fieldsEffect, Option.or_none]

/-- **Resolution puts nothing but links into a change.** -/
theorem onlyLinked_onChange (s : Surroundings) (look : Look) (c : Change) :
    c.OnlyLinked ((effectOf s look c).onChange c) := by
  obtain ⟨added, heq, hadded⟩ := c.exists_addDependencies_eq (effectOf s look c).awaited
  refine ⟨fun hdelete => ?_, ?_, fun field hnone => ?_, ⟨added, ?_, hadded⟩, ?_⟩
  · rw [effectOf, if_pos hdelete, Effect.onChange_nil]
  · rw [Effect.onChange, heq]
    rfl
  · rw [references_onChange]
    refine Dict.get?_foldl_insert_of_forall_ne fun x hwritten hkey => ?_
    obtain ⟨v, hv, -⟩ := exists_field_of_written (f := x.2) hwritten
    rw [hkey, hnone] at hv
    exact absurd hv (by simp)
  · rw [Effect.onChange, heq]
    rfl
  · rw [parent_onChange]
    rcases hfound : (effectOf s look c).parent with _ | id
    · exact .inl rfl
    · have haction : c.action ≠ .delete := by
        intro hdelete
        rw [effectOf, if_pos hdelete] at hfound
        exact absurd hfound (by simp)
      rw [parent_effectOf s look haction] at hfound
      obtain ⟨kind, ref, hparent⟩ := exists_eq_of_parentEffect hfound
      exact .inr ⟨kind, ref, id, hparent, by rw [hparent]; rfl⟩

/-! ## What is left for a second run -/

/-- An effect leaves no trace where its creates are waited for, what it writes stands there, and it
finds no parent. -/
theorem onChange_eq_self (hawaited : ∀ d ∈ e.awaited, d = c.id ∨ d ∈ c.dependsOn)
    (hwritten : e.written.foldl (fun m x => m.insert x.1 x.2) c.references = c.references)
    (hparent : e.parent = none) : e.onChange c = c := by
  rw [Effect.onChange, Change.addDependencies_of_listed hawaited]
  simp only [Change.noting, hparent, hwritten]

/-- An effect behind another one leaves no trace where it waits for nothing more, writes the same,
and finds no parent. -/
theorem onChange_onChange {f : Effect} (hawaited : f.awaited ⊆ e.awaited)
    (hwritten : f.written = e.written) (hparent : f.parent = none) :
    f.onChange (e.onChange c) = e.onChange c := by
  refine onChange_eq_self (fun d hd => ?_) ?_ hparent
  · rw [Effect.id_onChange, mem_dependsOn_onChange]
    by_cases hself : d = c.id
    · exact .inl hself
    · exact .inr (.inr ⟨hawaited hd, hself⟩)
  · rw [hwritten, references_onChange, Dict.foldl_insert_foldl_insert]

/-- **A second run finds what the first one found**, or what the fields alone give where the parent
has its identifier now. -/
theorem effectOf_onChange (s : Surroundings) (look : Look) (haction : c.action ≠ .delete) :
    ((effectOf s look c).parent = none
        ∧ effectOf s look ((effectOf s look c).onChange c) = effectOf s look c)
      ∨ effectOf s look ((effectOf s look c).onChange c)
        = fieldsEffect s look c.id c.fields.entries := by
  have hrest := (onlyLinked_onChange s look c).rest
  have haction' : ((effectOf s look c).onChange c).action ≠ .delete := by
    rwa [hrest]
  have hfields : ((effectOf s look c).onChange c).fields = c.fields := by
    rw [hrest]
  have hagain := effectOf_of_ne s look haction'
  rw [hfields, Effect.id_onChange, parent_onChange, parent_effectOf s look haction] at hagain
  rw [hagain, parent_effectOf s look haction]
  rcases hfound : (parentEffect s look c.id c.parent).parent with _ | id
  · exact .inl ⟨rfl, (effectOf_of_ne s look haction).symm⟩
  · obtain ⟨kind, ref, hparent⟩ := exists_eq_of_parentEffect hfound
    rw [hparent]
    exact .inr (Effect.append_nil _)

/-- **Resolution has nothing left to do on a resolved change.** -/
theorem onChange_effectOf (s : Surroundings) (look : Look) (c : Change) :
    (effectOf s look ((effectOf s look c).onChange c)).onChange ((effectOf s look c).onChange c)
      = (effectOf s look c).onChange c := by
  by_cases haction : c.action = .delete
  · rw [(onlyLinked_onChange s look c).delete haction, effectOf, if_pos haction, Effect.onChange_nil]
  · have hfirst := effectOf_of_ne s look haction
    obtain ⟨hparent, hagain⟩ | hagain := effectOf_onChange s look haction
    · rw [hagain]
      exact onChange_onChange (List.Subset.refl _) rfl hparent
    · rw [hagain]
      refine onChange_onChange ?_ ?_ (parent_fieldsEffect s look c.id _)
      · rw [hfirst, Effect.awaited_append]
        exact List.subset_append_left _ _
      · rw [hfirst, Effect.written_append, written_parentEffect, List.append_nil]

end Resolution

open Resolution in
/-- **Resolution only puts links into the changes of a batch, and a second run nothing at all.**
Over a steady provider it always succeeds; and started from any session that answers like the first
one, such as the one that this ended with, it leaves the resolved batch as it is. -/
theorem repeats_resolveReferences {p : Provider} (hp : p.Steady) (index : DeclaredIndex)
    (accessors : Accessors Declaration) (changes : List Change) (session : Session) :
    ∃ tally changes' session',
      resolveReferences p index accessors changes session = (.ok tally, changes', session')
      ∧ List.Forall₂ Change.OnlyLinked changes changes' ∧ session.AnswersLike p session'
      ∧ ∀ again, session.AnswersLike p again → ∃ tally' session'',
        resolveReferences p index accessors changes' again = (.ok tally', changes', session'') := by
  let s : Surroundings := ⟨upcomingOf changes, index, accessors⟩
  have hrun := resolveReferences_of_steady hp (s := s) rfl (.refl p session)
  refine ⟨_, _, _, hrun, ?_, Session.answersLike_advance hp session _, fun again hagain => ?_⟩
  · rw [List.forall₂_map_right_iff, List.forall₂_same]
    exact fun c _ => onlyLinked_onChange s _ c
  · have hupcoming : s.upcoming
        = upcomingOf (changes.map fun c => (effectOf s (session.lookOn p) c).onChange c) := by
      refine upcomingOf_congr ?_
      rw [List.map_map]
      exact List.map_congr_left fun c _ => (onlyLinked_onChange s _ c).heading.symm
    have hsame : (changes.map fun c => (effectOf s (session.lookOn p) c).onChange c).map
        (fun c => (effectOf s (session.lookOn p) c).onChange c)
          = changes.map fun c => (effectOf s (session.lookOn p) c).onChange c := by
      rw [List.map_map]
      exact List.map_congr_left fun c _ => onChange_effectOf s _ c
    have hrun' := resolveReferences_of_steady hp hupcoming hagain
    rw [hsame] at hrun'
    exact ⟨_, _, hrun'⟩

/-- A remote side with one api that knows of no other kind. -/
def loneApi : Snapshot where
  configured := some (.ofList ["api"])
  resources := [
    { id := "a1", kind := "api", name := "Orders", labels := managementLabels "blue" false }]

/-- An update of a version of the api, with a list of strategies that holds more than references and
a portal that is created behind it, and a delete that refers to the api. -/
def halfKnownBatch : List Change := [
  { id := "1:u:api_version:v1", kind := "api_version", ref := "v1", action := .update
    fields := Dict.ofList [
      ("auth_strategy_ids", .list [.text "keys", .null, .text "keys"]), ("portal_id", .text "main")]
    parent := some { kind := "api", ref := "Orders" }, dependsOn := ["4:d:portal:old"] },
  { id := "2:c:portal:main", kind := "portal", ref := "main", action := .create
    fields := Dict.ofList [("portal_id", .text "main")] },
  { id := "3:c:application_auth_strategy:keys", kind := "application_auth_strategy", ref := "keys",
    action := .create },
  { id := "4:d:portal:old", kind := "portal", ref := "old", action := .delete
    fields := Dict.ofList [("api_id", .text "Orders")] }]

theorem repeats_halfKnownBatch : (Provider.ofSnapshot loneApi).Steady
    ∧ ∃ tally changes' session',
      resolveReferences (.ofSnapshot loneApi) .none standardAccessors halfKnownBatch {}
        = (.ok tally, changes', session')
      ∧ changes'.map (fun c => (c.dependsOn, c.references.keys, c.parent.map (·.id))) = [
        (["4:d:portal:old", "3:c:application_auth_strategy:keys", "2:c:portal:main"],
          ["portal_id"], some (some "a1")),
        ([], [], none), ([], [], none), ([], [], none)]
      ∧ List.Forall₂ Change.OnlyLinked halfKnownBatch changes' ∧ ∃ tally' session'',
        resolveReferences (.ofSnapshot loneApi) .none standardAccessors changes' session'
          = (.ok tally', changes', session'') := by
  have hsteady := steady_ofSnapshot loneApi
  obtain ⟨tally, changes', session', hrun, hlinked, hlike, hagain⟩ :=
    repeats_resolveReferences hsteady .none standardAccessors halfKnownBatch {}
  have hchanges : (resolveReferences (.ofSnapshot loneApi) .none standardAccessors
      halfKnownBatch {}).2.1 = changes' := by rw [hrun]
  refine ⟨hsteady, tally, changes', session', hrun, ?_, hlinked, hagain session' hlike⟩
  rw [← hchanges]
  decide +kernel

end Reconcile
