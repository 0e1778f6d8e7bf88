import Reconcile.Proofs.Order.Agreement
import Reconcile.Proofs.Order.Execution
import Reconcile.Proofs.Shuffles

/-!
# Proofs/Order/Existence — which batches can be ordered

A batch can be ordered if and only if its identifiers are distinct, the dependencies it lists are
among them, and ranks can be given to its places that fall from each change to those it waits for
(`Orderable`, `exists_executionOrder_iff`): a run of the ordering that stops early would leave the
place of least rank, and nothing keeps it from being taken.  Main fact: `Orderable.of_shuffled` —
where no two creates make the same resource, this does not depend on the order of the batch.
-/

namespace Reconcile

/-! ## Runs that take every place -/

namespace Agenda

variable {table : List (List Nat)} {a b : Agenda}

/-- A step takes one place, and is missing only where none is ready. -/
theorem step_cases (table : List (List Nat)) (a : Agenda) :
    (step table a = none ∧ a.ready = [])
    ∨ ∃ b, step table a = some b ∧ b.taken.length = a.taken.length + 1 := by
  unfold step
  rcases hready : a.ready with _ | ⟨i, rest⟩
  · exact .inl ⟨rfl, rfl⟩
  · exact .inr ⟨_, rfl, by simp⟩

/-- **A run takes as many places as it may, or until none is ready.** -/
theorem length_taken_run (table : List (List Nat)) (n : Nat) (a : Agenda) :
    (run table n a).taken.length = a.taken.length + n ∨ (run table n a).ready = [] := by
  induction n generalizing a with
  | zero => exact .inl rfl
  | succ n ih =>
    unfold run
    rcases step_cases table a with ⟨hstep, hready⟩ | ⟨b, hstep, hlength⟩ <;> rw [hstep]
    · exact .inr hready
    · rcases ih b with hrun | hrun
      · left
        dsimp only
        omega
      · exact .inr hrun

/-- Where needs fall in rank, a place that is left means that one can be taken. -/
theorem exists_enabled {n : Nat} {needs : Nat → Nat → Prop} {taken : List Nat} {rank : Nat → Nat}
    (hneeds : ∀ i j, needs i j → j < n ∧ rank j < rank i) (hleft : ∃ i < n, i ∉ taken) :
    ∃ i, Enabled n needs taken i := by
  obtain ⟨i, hi⟩ := hleft
  induction hrank : rank i using Nat.strong_induction_on generalizing i with
  | h r ih =>
    -- a place of least rank among those left needs nothing that is left
    by_cases hmet : ∀ j, needs i j → j ∈ taken
    · exact ⟨i, hi.1, hi.2, hmet⟩
    · push Not at hmet
      obtain ⟨j, hij, hj⟩ := hmet
      obtain ⟨hlt, hless⟩ := hneeds i j hij
      exact ih (rank j) (hrank ▸ hless) j ⟨hlt, hj⟩ rfl

/-- **Where needs fall in rank, a run takes every place.** -/
theorem length_taken_of_rank (ht : IsTable table) {rank : Nat → Nat}
    (hneeds : ∀ i j, Needs table i j → j < table.length ∧ rank j < rank i) :
    (run table table.length (start table)).taken.length = table.length := by
  have htracks := tracks_run ht table.length (tracks_start table)
  rcases length_taken_run table table.length (start table) with hlength | hready
  · simpa [start] using hlength
  · by_contra hne
    obtain ⟨i, hi⟩ := exists_enabled hneeds (htracks.exists_left hne)
    exact absurd (htracks.mem_ready.mpr hi) (by simp [hready])

end Agenda

/-! ## Batches that can be ordered -/

/-- **A batch that can be ordered.** -/
structure Orderable (changes : List Change) : Prop where
  nodup_ids : (changes.map (·.id)).Nodup
  mem_ids : ∀ c ∈ changes, ∀ d ∈ c.dependsOn, d ∈ changes.map (·.id)
  rank : ∃ rank : Nat → Nat, ∀ i j, WaitsFor changes i j → rank j < rank i

/-- **The ordering succeeds on exactly the batches that can be ordered.** -/
theorem exists_executionOrder_iff {changes : List Change} :
    (∃ order, executionOrder changes = .ok order) ↔ Orderable changes := by
  constructor
  · rintro ⟨order, horder⟩
    have hordering := ordering_of_ok horder
    obtain ⟨places, hgreedy, -⟩ := hordering.greedy
    refine ⟨hordering.nodup_ids, hordering.mem_ids, places.idxOf, fun i j hwaits => ?_⟩
    have ⟨_, c, _, hc, _⟩ := hwaits
    exact hgreedy.idxOf_lt (List.getElem?_eq_some_iff.mp hc).1 hwaits
  · rintro ⟨hnodup, hmem, rank, hrank⟩
    have hneeds : ∀ i j, Agenda.Needs (dependencyTable changes) i j →
        j < (dependencyTable changes).length ∧ rank j < rank i := by
      intro i j hij
      have hwaits := mem_dependencyTable.mp hij
      refine ⟨?_, hrank i j hwaits⟩
      obtain ⟨-, -, d, -, hd, -⟩ := hwaits
      rw [length_dependencyTable]
      exact (List.getElem?_eq_some_iff.mp hd).1
    have hall := Agenda.length_taken_of_rank (isTable_dependencyTable changes) hneeds
    rw [length_dependencyTable] at hall
    unfold executionOrder
    rw [firstRepeated?_eq_none.mpr hnodup, danglingDependency?_eq_none.mpr hmem]
    dsimp only
    rw [if_pos hall]
    exact ⟨_, rfl⟩

/-! ## Shuffled batches -/

section Shuffled

variable {move : String → String} {as bs : List Change} {a b : Change} {kind : Option String}
  {ref : String} {i j : Nat}

/-- What does the same lacks the same. -/
theorem Change.Moved.lacks (h : a.Moved move b) (hlacks : b.Lacks kind ref) : a.Lacks kind ref := by
  have hreferences : b.references = a.references := h.congr (·.references) fun _ => rfl
  have hparent : b.parent = a.parent := h.congr (·.parent) fun _ => rfl
  rcases hlacks with ⟨hfield, hid⟩ | ⟨hfield, htarget, hid⟩ | ⟨hp, hid⟩
  · exact .scalar (hreferences ▸ hfield) hid
  · exact .item (hreferences ▸ hfield) htarget hid
  · exact .parent (hparent ▸ hp) hid

/-- A change creates what a reference names, of the kind if one is given. -/
def Change.Makes (d : Change) (kind : Option String) (ref : String) : Prop :=
  d.action = .create ∧ d.ref = ref ∧ ∀ k, kind = some k → d.kind = k

theorem Change.Moved.makes_iff (h : a.Moved move b) : b.Makes kind ref ↔ a.Makes kind ref := by
  change b.bare.Makes kind ref ↔ a.bare.Makes kind ref
  rw [h.bare]

variable (hmove : Function.Injective move) (h : Shuffled (Change.Alike move) as bs)
  (hids : (as.map (·.id)).Nodup) (honce : CreatesOnce bs)

include hmove h hids honce

/-- The create that is awaited in a shuffled batch is awaited in the batch. -/
theorem awaits_of_shuffled {i' : Nat} (ha : as[i]? = some a) (hb : bs[i']? = some b)
    (hab : a.Alike move b) (hawaits : Awaits bs kind ref i') : Awaits as kind ref i := by
  obtain ⟨d, hd, hmakes⟩ := hawaits.1
  obtain rfl : d = b := Option.some.inj (hd.symm.trans hb)
  have hsole : ∀ k, CreatesAt as kind ref k → k = i := by
    rintro k ⟨x, hx, hxmakes⟩
    obtain ⟨y, hy, hxy⟩ := h.exists_right_of_mem (List.mem_of_getElem? hx)
    obtain ⟨l, hl⟩ := List.mem_iff_getElem?.mp hy
    obtain rfl := honce.eq_of_awaits hawaits ⟨y, hl, hxy.makes_iff.mpr hxmakes⟩
    obtain rfl : y = d := Option.some.inj (hl.symm.trans hb)
    exact place_eq_of_nodup_map hids hx ha (hmove (hxy.id.symm.trans hab.id))
  exact ⟨⟨a, ha, hab.makes_iff.mp hmakes⟩, fun k hk => ⟨fun _ => hsole k hk, (hsole k hk).le⟩⟩

/-- **What waits in a shuffled batch waits in the batch.** -/
theorem waitsFor_of_shuffled {i' j' : Nat} {x y : Change} (ha : as[i]? = some a)
    (hb : bs[i']? = some b) (hx : as[j]? = some x) (hy : bs[j']? = some y) (hab : a.Alike move b)
    (hxy : x.Alike move y) (hwaits : WaitsFor bs i' j') : WaitsFor as i j := by
  obtain ⟨hne, c, d, hc, hd, hwaits⟩ := hwaits
  obtain rfl : c = b := Option.some.inj (hc.symm.trans hb)
  obtain rfl : d = y := Option.some.inj (hd.symm.trans hy)
  refine ⟨fun hij => hne ?_, a, x, ha, hx, ?_⟩
  · obtain rfl : x = a := Option.some.inj (hx.symm.trans (hij ▸ ha))
    exact place_eq_of_nodup_map (h.moved.nodup_ids hmove hids) hd hc (hxy.id.trans hab.id.symm)
  · rcases hwaits with hlisted | ⟨kind, ref, hlacks, hawaits⟩
    · rw [hab.dependsOn, hxy.id, List.mem_map_of_injective hmove] at hlisted
      exact .inl hlisted
    · exact .inr ⟨kind, ref, hab.lacks hlacks, awaits_of_shuffled hmove h hids honce hx hy hxy hawaits⟩

end Shuffled

/-- **Whether a batch can be ordered does not depend on its order**, or on its identifiers, where no
two creates make the same resource. -/
theorem Orderable.of_shuffled {move : Equiv.Perm String} {as bs : List Change}
    (horderable : Orderable as) (h : Shuffled (Change.Alike move) as bs) (honce : CreatesOnce bs) :
    Orderable bs := by
  obtain ⟨hnodup, hmem, rank, hrank⟩ := horderable
  refine ⟨h.moved.nodup_ids move.injective hnodup, fun b hb d hd => ?_,
    fun i => rank ((as.map (·.id)).idxOf (move.symm (idAt bs i))), fun i j hwaits => ?_⟩
  · obtain ⟨a, ha, hab⟩ := h.exists_left_of_mem hb
    obtain ⟨x, hx, rfl⟩ := List.mem_map.mp ((hab.dependsOn d).mp hd)
    exact h.moved.perm_ids.mem_iff.mp (List.mem_map_of_mem (hmem a ha x hx))
  · -- each place has the rank of the change of the batch that is alike
    have hplace : ∀ {l : Nat} {b : Change}, bs[l]? = some b → ∃ a,
        as[(as.map (·.id)).idxOf (move.symm (idAt bs l))]? = some a ∧ a.Alike move b := by
      intro l b hb
      obtain ⟨a, ha, hab⟩ := h.exists_left_of_mem (List.mem_of_getElem? hb)
      refine ⟨a, ?_, hab⟩
      rw [idAt_of_getElem? hb, hab.id, Equiv.symm_apply_apply]
      exact getElem?_idxOf_map hnodup ha
    have ⟨_, b, y, hb, hy, _⟩ := hwaits
    obtain ⟨a, ha, hab⟩ := hplace hb
    obtain ⟨x, hx, hxy⟩ := hplace hy
    exact hrank _ _ (waitsFor_of_shuffled move.injective h hnodup honce ha hb hx hy hab hxy hwaits)

end Reconcile
