import Reconcile.Proofs.Pass.Moves

/-!
# Proofs/Pass/Outages — a pass reports the failure of the remote side that it meets

That a kind is not known is no reason to stop, whichever stage asks; any other failure of the remote
side ends the pass at once.  So a pass ends with a fault of the remote side exactly if one of its
questions was answered with that fault, and nothing is asked behind it (`Provider.Reports`).  Main
fact: `reports_generatePlan`.
-/

namespace Reconcile

open Relation (ReflTransGen)

/-! ## What the remote side fails with -/

namespace Provider

/-- What the remote side fails with when a question is asked behind others. -/
def fault? (p : Provider) (before : List Query) : Query → Option StateFault
  | .list kind namespaces =>
    match p.list before kind namespaces with
    | .ok _ => none
    | .error e => some e
  | .get kind id =>
    match p.get before kind id with
    | .ok _ => none
    | .error e => some e

/-- **The remote side fails at a question**, and not because it does not know the kind. -/
def FailsAt (p : Provider) (before : List Query) (q : Query) (e : StateFault) : Prop :=
  p.fault? before q = some e ∧ e.isNotConfigured = false

/-- The remote side failed at none of the questions. -/
def Calm (p : Provider) (asked : List Query) : Prop :=
  ∀ before q after, asked = before ++ q :: after → ∀ e, ¬p.FailsAt before q e

/-- The remote side failed at the last question, and at none before it. -/
def Struck (p : Provider) (e : StateFault) (asked : List Query) : Prop :=
  ∃ before q, asked = before ++ [q] ∧ p.Calm before ∧ p.FailsAt before q e

/-- An answer tells where the remote side failed. -/
def Tells {α : Type} (p : Provider) (asked : List Query) : Except StateFault α → Prop
  | .ok _ => p.Calm asked
  | .error e => p.Struck e asked

/-- **A result reports what the remote side fails with**: it is a fault of the remote side exactly
if one of the questions was answered with that fault; that question is the last one; and if all that
the remote side ever fails with is that it does not know a kind, the result is no such fault. -/
structure Reports {α : Type} (p : Provider) (result : Except Failure α) (asked : List Query) :
    Prop where
  reported : ∀ e, result = .error (.state e)
    ↔ ∃ before q after, asked = before ++ q :: after ∧ p.FailsAt before q e
  last : ∀ before q after e, asked = before ++ q :: after → p.FailsAt before q e → after = []
  spared : (∀ before q e, p.fault? before q = some e → e.isNotConfigured = true) →
    ∀ e, result ≠ .error (.state e)

variable {p : Provider} {asked : List Query} {q : Query} {e : StateFault} {α : Type}
  {result : Except Failure α}

theorem calm_nil : p.Calm [] := fun _ _ _ h => absurd h (by simp)

/-- What is in a list with one more member is that member or was there before. -/
theorem split_concat {before after : List Query} {q' : Query}
    (h : asked ++ [q] = before ++ q' :: after) :
    (after = [] ∧ asked = before ∧ q = q')
      ∨ ∃ after', after = after' ++ [q] ∧ asked = before ++ q' :: after' := by
  rcases after.eq_nil_or_concat with rfl | ⟨after', x, rfl⟩
  · obtain ⟨hbefore, hlast⟩ := List.append_inj' h rfl
    exact .inl ⟨rfl, hbefore, List.singleton_inj.mp hlast⟩
  · have h' : asked ++ [q] = (before ++ q' :: after') ++ [x] := by simpa using h
    obtain ⟨hbefore, hlast⟩ := List.append_inj' h' rfl
    exact .inr ⟨after', by rw [List.singleton_inj.mp hlast, List.concat_eq_append], hbefore⟩

theorem Calm.concat (h : p.Calm asked) (hq : ∀ e, ¬p.FailsAt asked q e) :
    p.Calm (asked ++ [q]) := by
  intro before q' after heq
  rcases split_concat heq with ⟨-, rfl, rfl⟩ | ⟨after', -, hbefore⟩
  · exact hq
  · exact h before q' after' hbefore

/-- Where the remote side did not fail there is nothing to report. -/
theorem reports_of_calm (h : p.Calm asked) (hresult : ∀ e, result ≠ .error (.state e)) :
    p.Reports result asked where
  reported e := ⟨fun heq => absurd heq (hresult e), fun ⟨before, q, after, heq, hfails⟩ =>
    absurd hfails (h before q after heq e)⟩
  last before q after e heq hfails := absurd hfails (h before q after heq e)
  spared _ := hresult

/-- What the remote side failed with in the end is reported. -/
theorem reports_of_struck (h : p.Struck e asked) :
    p.Reports (.error (.state e) : Except Failure α) asked := by
  obtain ⟨before₀, q₀, rfl, hcalm, hfails₀⟩ := h
  have hlast : ∀ before q after e', before₀ ++ [q₀] = before ++ q :: after →
      p.FailsAt before q e' → after = [] ∧ e' = e := by
    intro before q after e' heq hfails
    rcases split_concat heq with ⟨rfl, rfl, rfl⟩ | ⟨after', -, hbefore⟩
    · exact ⟨rfl, Option.some.inj (hfails.1.symm.trans hfails₀.1)⟩
    · exact absurd hfails (hcalm before q after' hbefore e')
  refine ⟨fun e' => ⟨fun heq => ?_, fun ⟨before, q, after, heq, hfails⟩ => ?_⟩,
    fun before q after e' heq hfails => (hlast before q after e' heq hfails).1, fun hspared => ?_⟩
  · obtain rfl := Failure.state.inj (Except.error.inj heq)
    exact ⟨before₀, q₀, [], rfl, hfails₀⟩
  · rw [(hlast before q after e' heq hfails).2]
  · exact absurd (hspared before₀ q₀ e hfails₀.1) (by simp [hfails₀.2])

end Provider

/-! ## One question -/

namespace Session

variable {p : Provider} {s s' : Session} {e : StateFault}

/-- **What is asked reaches the remote side once or not at all**; what it fails with is the answer,
and what is remembered is no failure. -/
theorem asked_cases {α : Type} {question : Session → Except StateFault α × Session}
    (hasking : Asking p question) (s : Session) :
    ((question s).2.asked = s.asked ∧ ∃ a, (question s).1 = .ok a)
    ∨ ∃ q, (question s).2.asked = s.asked ++ [q]
      ∧ ∀ e, (question s).1 = .error e ↔ p.fault? s.asked q = some e := by
  cases hasking with
  | list kind namespaces =>
    have hlists := lists_list p s kind namespaces
    generalize s.list p kind namespaces = answer at hlists ⊢
    cases hlists with
    | nothing | remembered | part => exact .inl ⟨rfl, _, rfl⟩
    | answered hkey hnew hall hlist =>
      refine .inr ⟨_, rfl, fun e' => ?_⟩
      simp [Provider.fault?, hlist]
    | failed hkey hnew hall hlist =>
      refine .inr ⟨_, rfl, fun e' => ?_⟩
      simp [Provider.fault?, hlist]
  | get kind id =>
    refine .inr ⟨.get kind id, rfl, fun e => ?_⟩
    simp only [get, Provider.fault?]
    rcases p.get s.asked kind id with e | r <;> simp

/-- Where the session goes on the remote side has not failed. -/
theorem GoesOn.calm (h : s.GoesOn p s') (hs : p.Calm s.asked) : p.Calm s'.asked := by
  obtain ⟨hasking, hanswer, hspared⟩ := h
  rcases asked_cases hasking s with ⟨heq, -⟩ | ⟨q, heq, hfault⟩ <;> rw [hanswer] at heq
  · exact heq ▸ hs
  · rw [hanswer] at hfault
    dsimp only at heq hfault
    rw [heq]
    refine hs.concat fun e hfails => ?_
    exact absurd (hspared e ((hfault e).mpr hfails.1)) (by simp [hfails.2])

/-- Where the session breaks the remote side has failed. -/
theorem Breaks.struck (h : s.Breaks p e s') (hs : p.Calm s.asked) : p.Struck e s'.asked := by
  obtain ⟨hasking, hanswer, hreal⟩ := h
  rcases asked_cases hasking s with ⟨-, a, hok⟩ | ⟨q, heq, hfault⟩
  · exact absurd (hok.symm.trans (congrArg Prod.fst hanswer)) (by simp)
  · rw [hanswer] at heq hfault
    exact ⟨s.asked, q, heq, hs, (hfault e).mp rfl, hreal⟩

theorem calm_of_moves (h : ReflTransGen (GoesOn p) s s') (hs : p.Calm s.asked) :
    p.Calm s'.asked :=
  kept_of_moves (I := fun s => p.Calm s.asked) (fun _ _ hs hgoes => hgoes.calm hs) hs h

end Session

/-! ## Stages -/

section Stages

variable {p : Provider} {kinds : List String}

theorem calm_of_draftMove (d d' : Draft) (hd : p.Calm d.session.asked) (h : d.Move p kinds d') :
    p.Calm d'.session.asked := by
  cases h with
  | asked hgoes => exact hgoes.calm hd
  | noted v => exact hd
  | added hfits => exact hd

theorem reports_of_draftStop (d : Draft) (e : Failure) (d' : Draft) (hd : p.Calm d.session.asked)
    (h : d.Stop p e d') : p.Reports (.error e : Except Failure Plan) d'.session.asked := by
  cases h with
  | failed hbreaks => exact Provider.reports_of_struck (hbreaks.struck hd)
  | refused fault => exact Provider.reports_of_calm hd fun _ => by simp

/-- Drafting ends without a failure of the remote side, or reports it. -/
theorem ends_draftAll {d : Draft} (hd : p.Calm d.session.asked) (accessors : Accessors Declaration)
    (ks : List KindPlanner) (desired : DesiredState) (mode : Mode) :
    Ends (draftAll p accessors (ks.map KindPlanner.toPlanner) desired mode) d
      (fun _ d' => True ∧ p.Calm d'.session.asked)
      fun e d' => p.Reports (.error e : Except Failure Plan) d'.session.asked :=
  (walks_draftAll p accessors ks desired mode).ends (I := fun d => p.Calm d.session.asked)
    calm_of_draftMove reports_of_draftStop hd

theorem calm_of_resolveMove {s : Surroundings} (g g' : Progress) (hg : p.Calm g.session.asked)
    (h : Progress.Move s p g g') : p.Calm g'.session.asked := by
  cases h with
  | asked hgoes => exact hgoes.calm hg
  | _ => exact hg

theorem struck_of_resolveStop (g : Progress) (e : StateFault) (g' : Progress)
    (hg : p.Calm g.session.asked) (h : Progress.Stop p g e g') : p.Struck e g'.session.asked := by
  cases h with
  | failed hbreaks => exact hbreaks.struck hg

/-- Resolving changes tells where the remote side failed. -/
theorem tells_resolveChanges (s : Surroundings) (changes : List Change) (tally : Tally)
    (session : Session) (hs : p.Calm session.asked) :
    p.Tells (Resolution.resolveChanges s p changes tally session).2.2.asked
      (Resolution.resolveChanges s p changes tally session).1 := by
  induction changes generalizing tally session with
  | nil => exact hs
  | cons c rest ih =>
    rw [Resolution.resolveChanges]
    split
    · exact ih tally session hs
    · have hends := (Resolution.walks_resolveChange s p c).ends
        (I := fun g => p.Calm g.session.asked) (s := ⟨c, tally, session⟩)
        calm_of_resolveMove struck_of_resolveStop hs
      rcases hrun : (Resolution.resolveChange s p c).run.run ⟨c, tally, session⟩ with ⟨e | u, g⟩
      · exact (ends_of_run_error hrun).mp hends
      · exact ih g.tally g.session ((ends_of_run_ok hrun).mp hends).2

/-- Resolving a plan ends without a failure of the remote side, or with the one it met. -/
theorem resolvePlan_cases (accessors : Accessors Declaration) (desired : DesiredState) (plan : Plan)
    (session : Session) (hs : p.Calm session.asked) :
    (∃ result session', resolvePlan p accessors desired plan session = (result, session')
      ∧ p.Calm session'.asked ∧ ∀ e, result ≠ .error (.state e))
    ∨ ∃ e session', resolvePlan p accessors desired plan session = (.error (.state e), session')
      ∧ p.Struck e session'.asked := by
  have htells := tells_resolveChanges ⟨upcomingOf plan.changes, desired.index, accessors⟩
    plan.changes {} session hs
  unfold resolvePlan resolveReferences
  rcases hresolve : Resolution.resolveChanges ⟨upcomingOf plan.changes, desired.index, accessors⟩ p
    plan.changes {} session with ⟨e | tally, changes, session'⟩ <;> rw [hresolve] at htells
  · exact .inr ⟨e, session', rfl, htells⟩
  · dsimp only
    split
    · exact .inl ⟨_, session', rfl, htells, fun e => by simp⟩
    · exact .inl ⟨_, session', rfl, htells, fun e => by simp⟩

/-- Ordering and numbering ask nothing of the remote side. -/
theorem finishPlan_ne_state (plan : Plan) (e : StateFault) :
    finishPlan plan ≠ .error (.state e) := by
  unfold finishPlan
  dsimp only
  split
  · simp
  · split <;> simp

end Stages

section Passes

variable {p : Provider} {accessors : Accessors Declaration} {ks : List KindPlanner}
  {state : DesiredState} {options : PassOptions} {now : Timestamp}

/-- Where a pass has a draft, the remote side has not failed. -/
theorem calm_of_draftOf? {desired : DesiredState} {d : Draft}
    (h : draftOf? p accessors (ks.map KindPlanner.toPlanner) state options now
      = some (desired, d)) :
    p.Calm d.session.asked := by
  obtain ⟨session, hgoes, hmoves⟩ := moves_of_draftOf? h
  exact kept_of_moves (I := fun d => p.Calm d.session.asked) calm_of_draftMove
    (Session.calm_of_moves hgoes Provider.calm_nil) hmoves

open Provider in
/-- **A pass reports the failure of the remote side that it meets**, whatever the remote side
answers and whichever planners of declared resources there are: it ends with a fault of the remote
side exactly if one of its questions was answered with that fault, and that question is the last. -/
theorem reports_generatePlan (p : Provider) (accessors : Accessors Declaration)
    (ks : List KindPlanner) (state : DesiredState) (options : PassOptions) (now : Timestamp) :
    p.Reports
      (generatePlan p accessors (ks.map KindPlanner.toPlanner) state options now).1
      (generatePlan p accessors (ks.map KindPlanner.toPlanner) state options now).2 := by
  have hidentities := matchedBy_resolveIdentities p state {}
  have hends := passEnds_generatePlan p accessors (ks.map KindPlanner.toPlanner) state options now
  generalize generatePlan p accessors (ks.map KindPlanner.toPlanner) state options now = result
    at hends ⊢
  cases hends with
  | unidentified h =>
    rw [h] at hidentities
    cases hidentities with
    | absent hgoes => exact reports_of_calm (Session.calm_of_moves hgoes calm_nil) fun _ => by simp
    | failed hgoes hbreaks =>
      exact reports_of_struck (hbreaks.struck (Session.calm_of_moves hgoes calm_nil))
  | undrafted h hdraft =>
    rw [h] at hidentities
    obtain ⟨hgoes⟩ := hidentities
    have hfirst : p.Calm (firstDraft state options now _).session.asked :=
      Session.calm_of_moves hgoes calm_nil
    exact (ends_of_run_error hdraft).mp (ends_draftAll hfirst accessors ks _ options.mode)
  | forbidden hdraft hviolations => exact reports_of_calm (calm_of_draftOf? hdraft) fun _ => by simp
  | @unresolved desired d e session hdraft hlawful h =>
    rcases resolvePlan_cases accessors desired d.plan d.session (calm_of_draftOf? hdraft) with
      ⟨result, session', hresolve, hcalm, hresult⟩ | ⟨e', session', hresolve, hstruck⟩
    · obtain ⟨rfl, rfl⟩ := Prod.mk.inj (h.symm.trans hresolve)
      exact reports_of_calm hcalm fun e' heq => hresult e' (congrArg _ (Except.error.inj heq))
    · obtain ⟨heq, rfl⟩ := Prod.mk.inj (h.symm.trans hresolve)
      obtain rfl := Except.error.inj heq
      exact reports_of_struck hstruck
  | @resolved desired d plan session hdraft hlawful h =>
    rcases resolvePlan_cases accessors desired d.plan d.session (calm_of_draftOf? hdraft) with
      ⟨result, session', hresolve, hcalm, hresult⟩ | ⟨e', session', hresolve, hstruck⟩
    · obtain ⟨-, rfl⟩ := Prod.mk.inj (h.symm.trans hresolve)
      exact reports_of_calm hcalm (finishPlan_ne_state plan)
    · exact absurd (Prod.mk.inj (h.symm.trans hresolve)).1 (by simp)

end Passes

/-- A remote side without resources, which fails for portals. -/
def brokenPortals : Provider where
  list _ kind _ := if kind = "portal" then .error (.provider kind "timeout") else .ok []
  get _ _ _ := .ok none

/-- An api on a portal that is looked up. -/
def hostedApi : DesiredState where
  resources := [
    { kind := "api", ref := "orders", name := "Orders",
      fields := Dict.singleton "portal_id" (.reference (.toId "shop")) }]

-- the planner of apis is answered from memory; the look-up of the portal is the last question
example : (generatePlan brokenPortals standardAccessors
    ([{ kind := "api" }, { kind := "team" }].map KindPlanner.toPlanner) hostedApi {} ⟨0, 0⟩).2
    = [.list "api" ["*"], .list "team" ["default"], .list "portal" ["*"]] := by decide +kernel

end Reconcile
