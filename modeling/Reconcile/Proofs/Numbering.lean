import Reconcile.Proofs.Numbering.Passes
import Reconcile.Proofs.Order.Execution

/-!
# Proofs/Numbering — a plan under its final identifiers

`Plan.Renumbered` says what a numbered plan is: the changes of the plan in the given order, each
under the identifier moved to its place, with every mention of an identifier replaced by the new
one.  Main facts: `Plan.renumbered_of_ok`, `Plan.Renumbered.perm_changes` and
`Plan.exists_renumber_iff`.
-/

namespace Reconcile

namespace Plan

/-- **The plan `q` is the plan `p` in an order, numbered.** -/
structure Renumbered (p : Plan) (order : List String) (rename : String → String) (q : Plan) :
    Prop where
  nodup : p.ids.Nodup
  perm : order.Perm p.ids
  moved : ∀ k id, order[k]? = some id → ChangeId.moved? id (k + 1) = some (rename id)
  changes : List.Forall₂ (fun id c => ∃ b ∈ p.changes, b.id = id ∧ c = b.renamed rename)
    order q.changes
  known : ∀ c ∈ p.changes, ∀ d ∈ c.dependsOn, d ∈ p.ids
  warnings : q.warnings = p.warnings.map (Warning.renamed rename)
  warned : ∀ w ∈ p.warnings, w.changeId ∈ p.ids
  order : q.order = q.changes.map (·.id)

/-! ## The numbered plan -/

/-- An order that passes the check lists every change of the plan once. -/
theorem checkOrder_ok {p : Plan} {order : List String} {found : Nat}
    (h : p.checkOrder order = .ok found) : p.ids.Nodup ∧ order.Perm p.ids := by
  unfold checkOrder at h
  cases hids : firstRepeated? p.ids with
  | some id => simp [hids] at h
  | none =>
    cases horder : firstRepeated? order with
    | some id => simp [hids, horder] at h
    | none =>
      simp only [hids, horder] at h
      split at h
      · exact absurd h (by simp)
      · next hcount =>
        obtain ⟨hfound, hlen⟩ := not_or.mp hcount
        rw [not_not] at hfound hlen
        have hall : order ⊆ p.ids := by
          intro id hid
          have hcountP := List.countP_eq_length.mp (hfound.trans hlen.symm)
          simpa using hcountP id hid
        have hnodup := firstRepeated?_eq_none.mp horder
        exact ⟨firstRepeated?_eq_none.mp hids,
          (hnodup.subperm hall).perm_of_length_le (by simp [ids, hlen])⟩

/-- Where the changes are renamed, each dependency of the plan has a new identifier. -/
theorem known_of_renameChanges {r : Renaming} {p : Plan} {expected found : Nat}
    {order : List String} {changes : List Change} (hnodup : p.ids.Nodup) (hperm : order.Perm p.ids)
    (h : renameChanges r p expected found order = .ok changes) :
    ∀ c ∈ p.changes, ∀ d ∈ c.dependsOn, d ∈ r.map (·.1) := by
  intro c hc
  have hcid : c.id ∈ order := hperm.mem_iff.mpr (List.mem_map_of_mem hc)
  obtain ⟨c', -, b, hb, hid, -, hdeps⟩ := exists_right_of_mem (renameChanges_ok h) hcid
  -- the change found under the identifier of `c` is `c`, identifiers being distinct
  obtain rfl : b = c := List.inj_on_of_nodup_map hnodup hb hc hid
  exact hdeps

/-- Numbering goes through four stages. -/
theorem stages_of_renumber {p q : Plan} {order : List String} (h : p.renumber order = .ok q) :
    ∃ found names changes warnings, p.checkOrder order = .ok found
      ∧ renamingFrom 1 order = .ok names
      ∧ renameChanges names p p.changes.length found order = .ok changes
      ∧ renameWarnings names p.warnings = .ok warnings
      ∧ q = ⟨p.metadata, changes, changes.map (·.id), .ofChanges changes, warnings⟩ := by
  simp only [renumber, bind, Except.bind] at h
  cases hcheck : p.checkOrder order with
  | error e => simp [hcheck] at h
  | ok found =>
    cases hnames : renamingFrom 1 order with
    | error e => simp [hcheck, hnames] at h
    | ok names =>
      cases hchanges : renameChanges names p p.changes.length found order with
      | error e => simp [hcheck, hnames, hchanges] at h
      | ok changes =>
        cases hwarnings : renameWarnings names p.warnings with
        | error e => simp [hcheck, hnames, hchanges, hwarnings] at h
        | ok warnings =>
          simp only [hcheck, hnames, hchanges, hwarnings] at h
          exact ⟨found, names, changes, warnings, rfl, rfl, hchanges, hwarnings,
            (Except.ok.inj h).symm⟩

/-- **A numbered plan is the plan in its order, numbered.** -/
theorem renumbered_of_ok {p q : Plan} {order : List String} (h : p.renumber order = .ok q) :
    ∃ rename, p.Renumbered order rename q := by
  obtain ⟨found, r, changes, warnings, hcheck, hnames, hchanges, hwarnings, rfl⟩ :=
    stages_of_renumber h
  obtain ⟨hnodup, hperm⟩ := checkOrder_ok hcheck
  obtain ⟨hkeys, hmoved⟩ := forall₂_renamingFrom hnames
  obtain ⟨rfl, hwarned⟩ := renameWarnings_ok hwarnings
  have hkeysNodup : (r.map (·.1)).Nodup := hkeys ▸ hperm.nodup_iff.mpr hnodup
  have hmem : ∀ id, id ∈ r.map (·.1) → id ∈ p.ids :=
    fun id hid => hperm.mem_iff.mp (hkeys ▸ hid)
  refine ⟨r.apply, hnodup, hperm, fun k id hk => ?_, ?_, fun c hc d hd => ?_, rfl,
    fun w hw => hmem _ (hwarned w hw), rfl⟩
  · rw [← hkeys, List.getElem?_map, Option.map_eq_some_iff] at hk
    obtain ⟨⟨old, new⟩, hget, rfl⟩ := hk
    rw [apply_of_lookup (lookup_of_getElem? hkeysNodup hget), Nat.add_comm]
    exact hmoved k old new hget
  · exact (renameChanges_ok hchanges).imp fun id c ⟨b, hb, hid, hc, _⟩ => ⟨b, hb, hid, hc⟩
  · exact hmem d (known_of_renameChanges hnodup hperm hchanges c hc d hd)

namespace Renumbered

variable {p q : Plan} {order : List String} {rename : String → String}

/-- **Different identifiers stay different.** -/
theorem rename_injOn (h : p.Renumbered order rename q) {a b : String} (ha : a ∈ p.ids)
    (hb : b ∈ p.ids) (hab : rename a = rename b) : a = b := by
  obtain ⟨i, hi⟩ := List.mem_iff_getElem?.mp (h.perm.mem_iff.mpr ha)
  obtain ⟨j, hj⟩ := List.mem_iff_getElem?.mp (h.perm.mem_iff.mpr hb)
  have hmoved := h.moved j b hj
  rw [← hab] at hmoved
  have hij : i + 1 = j + 1 := ChangeId.position_eq_of_moved? (h.moved i a hi) hmoved
  obtain rfl : i = j := Nat.succ.inj hij
  exact Option.some.inj (hi.symm.trans hj)

theorem nodup_map_rename (h : p.Renumbered order rename q) {l : List String} (hl : l.Nodup)
    (hsub : ∀ id ∈ l, id ∈ p.ids) : (l.map rename).Nodup :=
  List.Nodup.map_on (fun _ ha _ hb hab => h.rename_injOn (hsub _ ha) (hsub _ hb) hab) hl

/-- At each place of the numbered plan stands the change that the order has there. -/
theorem exists_getElem? (h : p.Renumbered order rename q) {k : Nat} {c : Change}
    (hc : q.changes[k]? = some c) :
    ∃ b ∈ p.changes, order[k]? = some b.id ∧ c = b.renamed rename := by
  obtain ⟨id, hid, b, hb, rfl, rfl⟩ := exists_left_of_forall₂ h.changes hc
  exact ⟨b, hb, hid, rfl⟩

/-- Each change stands where the order has it. -/
theorem getElem?_idxOf (h : p.Renumbered order rename q) {b : Change} (hb : b ∈ p.changes) :
    q.changes[order.idxOf b.id]? = some (b.renamed rename) := by
  have hmem : b.id ∈ order := h.perm.mem_iff.mpr (List.mem_map_of_mem hb)
  have hget : order[order.idxOf b.id]? = some b.id := List.getElem?_idxOf hmem
  obtain ⟨c, hc, b', hb', hid, rfl⟩ := exists_right_of_forall₂ h.changes hget
  obtain rfl : b' = b := List.inj_on_of_nodup_map h.nodup hb' hb hid
  exact hc

/-- **A numbered plan has the changes of the plan, in another order.** -/
theorem perm_changes (h : p.Renumbered order rename q) :
    q.changes.Perm (p.changes.map (Change.renamed rename)) := by
  have hids : q.changes.map (·.id) = order.map rename := by
    refine (map_eq_of_forall₂ h.changes ?_).symm
    rintro id c ⟨b, -, rfl, rfl⟩
    rfl
  have hnodup : q.changes.Nodup := by
    refine List.Nodup.of_map Change.id ?_
    rw [hids]
    exact h.nodup_map_rename (h.perm.nodup_iff.mpr h.nodup) fun id hid => h.perm.mem_iff.mp hid
  have hnodup' : (p.changes.map (Change.renamed rename)).Nodup := by
    refine List.Nodup.of_map Change.id ?_
    have hrenamed := h.nodup_map_rename h.nodup fun id hid => hid
    rw [ids, List.map_map] at hrenamed
    rw [List.map_map]
    exact hrenamed
  refine (List.perm_ext_iff_of_nodup hnodup hnodup').mpr fun c => ⟨fun hc => ?_, fun hc => ?_⟩
  · obtain ⟨k, hk⟩ := List.mem_iff_getElem?.mp hc
    obtain ⟨b, hb, -, rfl⟩ := h.exists_getElem? hk
    exact List.mem_map_of_mem hb
  · obtain ⟨b, hb, rfl⟩ := List.mem_map.mp hc
    exact List.mem_of_getElem? (h.getElem?_idxOf hb)

/-- **Identifiers that correspond before two plans are numbered correspond afterwards.** -/
theorem exists_move {p' q' : Plan} {order' : List String} {rename' : String → String}
    (h : p.Renumbered order rename q) (h' : p'.Renumbered order' rename' q')
    {σ : Equiv.Perm String} (hσ : ∀ id ∈ p.ids, σ id ∈ p'.ids) :
    ∃ move : Equiv.Perm String, ∀ id ∈ p.ids, move (rename id) = rename' (σ id) := by
  have hnodup := h.nodup_map_rename h.nodup fun id hid => hid
  have hnodup' := h'.nodup_map_rename (h.nodup.map σ.injective) fun id hid => by
    obtain ⟨old, hold, rfl⟩ := List.mem_map.mp hid
    exact hσ old hold
  obtain ⟨move, hmove⟩ := exists_perm_map_eq hnodup hnodup' (by simp)
  rw [List.map_map, List.map_map] at hmove
  exact ⟨move, fun id hid => List.map_inj_left.mp hmove id hid⟩

end Renumbered

/-! ## Plans that can be numbered -/

theorem checkOrder_of_perm {p : Plan} {order : List String} (hnodup : p.ids.Nodup)
    (hperm : order.Perm p.ids) : p.checkOrder order = .ok p.changes.length := by
  have hlength : order.length = p.changes.length := by
    rw [hperm.length_eq, ids, List.length_map]
  have hfound : order.countP (fun id => p.ids.contains id) = p.changes.length := by
    rw [← hlength]
    exact List.countP_eq_length.mpr fun id hid => by simpa using hperm.mem_iff.mp hid
  unfold checkOrder
  rw [firstRepeated?_eq_none.mpr hnodup, firstRepeated?_eq_none.mpr (hperm.nodup_iff.mpr hnodup)]
  dsimp only
  rw [if_neg (not_or.mpr ⟨not_not.mpr hfound, not_not.mpr hlength⟩), hfound]

/-- **A plan that can be numbered in an order.** -/
structure Numberable (p : Plan) (order : List String) : Prop where
  nodup : p.ids.Nodup
  perm : order.Perm p.ids
  readable : ∀ id ∈ p.ids, (ChangeId.parse? id).isSome = true
  known : ∀ c ∈ p.changes, ∀ d ∈ c.dependsOn, d ∈ p.ids
  warned : ∀ w ∈ p.warnings, w.changeId ∈ p.ids

/-- **Numbering succeeds on exactly the plans that can be numbered.** -/
theorem exists_renumber_iff {p : Plan} {order : List String} :
    (∃ q, p.renumber order = .ok q) ↔ p.Numberable order := by
  constructor
  · rintro ⟨q, hq⟩
    obtain ⟨rename, h⟩ := renumbered_of_ok hq
    obtain ⟨_, _, _, _, -, hnames, -⟩ := stages_of_renumber hq
    exact ⟨h.nodup, h.perm, fun id hid => readable_of_renamingFrom hnames id (h.perm.mem_iff.mpr hid),
      h.known, h.warned⟩
  · rintro ⟨hnodup, hperm, hreadable, hknown, hwarned⟩
    obtain ⟨r, hr⟩ := exists_renamingFrom (fun id hid => hreadable id (hperm.mem_iff.mp hid)) 1
    have hkeys : ∀ id ∈ p.ids, id ∈ r.map (·.1) := fun id hid => by
      rw [(forall₂_renamingFrom hr).1]
      exact hperm.mem_iff.mpr hid
    obtain ⟨changes, hchanges⟩ := exists_renameChanges hkeys (fun id hid => hperm.mem_iff.mp hid)
      hknown p.changes.length p.changes.length
    obtain ⟨warnings, hwarnings⟩ := exists_renameWarnings fun w hw => hkeys _ (hwarned w hw)
    simp only [renumber, bind, Except.bind, checkOrder_of_perm hnodup hperm, hr, hchanges, hwarnings]
    exact ⟨_, rfl⟩

end Plan

end Reconcile
