import Reconcile.Proofs.Accessors

/-!
# Proofs/Accessors/Registrations — a table of accessors answers for its registrations

Accessors are registered one after the other, for a kind or for any kind, and a later one takes the
place of an earlier one for the same kind and path.  Which accessor is in force is written out on the
list of registrations (`InForce`), with no table.  Each registration changes the table as it changes
that list (`lookup_register`, `lastFor_concat`).

Main fact: `answers_registered` — after any registrations the table uses the accessor in force, it
lists the paths that it knows, and reading all fields and reading one of them agree.
-/

namespace Reconcile

/-- An accessor registered for a path of a kind. -/
structure Registration (ρ : Type) where
  kind : String
  path : String
  read : Accessor ρ

variable {ρ : Type} {calls : List (Registration ρ)} {c : Registration ρ} {kind path : String}
  {read : Accessor ρ}

/-- A registration is for a path of a kind. -/
def Registration.IsFor (c : Registration ρ) (kind path : String) : Prop :=
  c.kind = kind ∧ c.path = path

/-- **The last accessor registered for a path of a kind**: what is registered later is for others. -/
def LastFor (calls : List (Registration ρ)) (kind path : String) (read : Accessor ρ) : Prop :=
  ∃ earlier later, calls = earlier ++ ⟨kind, path, read⟩ :: later ∧ ∀ c ∈ later, ¬ c.IsFor kind path

/-- **The accessor in force for a path of a kind**: the last one registered for the kind itself; where
there is none, the last one for any kind. -/
inductive InForce (calls : List (Registration ρ)) (kind path : String) (read : Accessor ρ) : Prop
  | own (h : LastFor calls kind path read)
  | shared (hnone : ∀ c ∈ calls, ¬ c.IsFor kind path) (h : LastFor calls anyKind path read)

theorem not_lastFor_nil : ¬ LastFor [] kind path read := by
  rintro ⟨earlier, later, hcalls, -⟩
  exact List.append_ne_nil_of_right_ne_nil _ (List.cons_ne_nil _ _) hcalls.symm

/-- One more registration is the last one for its path and kind, and changes nothing for others. -/
theorem lastFor_concat : LastFor (calls ++ [c]) kind path read
    ↔ c.IsFor kind path ∧ c.read = read ∨ ¬ c.IsFor kind path ∧ LastFor calls kind path read := by
  constructor
  · rintro ⟨earlier, later, hcalls, hlater⟩
    rcases List.eq_nil_or_concat' later with rfl | ⟨rest, d, rfl⟩
    · obtain ⟨-, hlast⟩ := List.append_inj' hcalls rfl
      obtain rfl := List.singleton_inj.mp hlast
      exact .inl ⟨⟨rfl, rfl⟩, rfl⟩
    · rw [← List.cons_append, ← List.append_assoc] at hcalls
      obtain ⟨rfl, hlast⟩ := List.append_inj' hcalls rfl
      obtain rfl := List.singleton_inj.mp hlast
      exact .inr ⟨hlater c (by simp), earlier, rest, rfl, fun d hd => hlater d (by simp [hd])⟩
  · rintro (⟨⟨rfl, rfl⟩, rfl⟩ | ⟨hother, earlier, later, rfl, hlater⟩)
    · exact ⟨calls, [], rfl, by simp⟩
    · refine ⟨earlier, later ++ [c], by simp, fun d hd => ?_⟩
      rcases List.mem_append.mp hd with hd | hd
      · exact hlater d hd
      · exact List.mem_singleton.mp hd ▸ hother

namespace Accessors

variable {t : Accessors ρ}

/-- The table after registrations, made one after the other. -/
def registered (calls : List (Registration ρ)) : Accessors ρ :=
  calls.foldl (fun t c => t.register c.kind c.path c.read) {}

theorem registered_concat (calls : List (Registration ρ)) (c : Registration ρ) :
    registered (calls ++ [c]) = (registered calls).register c.kind c.path c.read :=
  List.foldl_concat ..

theorem lookup_register_of_isFor (h : c.IsFor kind path) :
    (t.register c.kind c.path c.read).entries.lookup (kind, path) = some c.read := by
  obtain ⟨rfl, rfl⟩ := h
  exact List.lookup_cons_self

theorem lookup_register_of_not_isFor (h : ¬ c.IsFor kind path) :
    (t.register c.kind c.path c.read).entries.lookup (kind, path)
      = t.entries.lookup (kind, path) := by
  have hkey : ((kind, path) == (c.kind, c.path)) = false := by
    rw [beq_eq_false_iff_ne]
    exact fun heq => h ⟨(Prod.mk.inj heq).1.symm, (Prod.mk.inj heq).2.symm⟩
  rw [register, List.lookup_cons, hkey]

/-- **The table keeps the last accessor for each path and kind.** -/
theorem lookup_registered :
    (registered calls).entries.lookup (kind, path) = some read ↔ LastFor calls kind path read := by
  -- From the end: a registration decides unless it is for others, and then those before it do.
  induction calls using List.reverseRecOn with
  | nil => exact iff_of_false (Option.some_ne_none _).symm not_lastFor_nil
  | append_singleton calls c ih =>
    rw [registered_concat, lastFor_concat]
    by_cases hfor : c.IsFor kind path
    · rw [lookup_register_of_isFor hfor, Option.some_inj]
      simp [hfor]
    · rw [lookup_register_of_not_isFor hfor, ih]
      simp [hfor]

/-- It has one wherever one was registered. -/
theorem isSome_lookup_registered : ((registered calls).entries.lookup (kind, path)).isSome = true
    ↔ ∃ c ∈ calls, c.IsFor kind path := by
  induction calls using List.reverseRecOn with
  | nil => simp [registered]
  | append_singleton calls c ih =>
    rw [registered_concat]
    by_cases hfor : c.IsFor kind path
    · rw [lookup_register_of_isFor hfor]
      exact iff_of_true rfl ⟨c, by simp, hfor⟩
    · rw [lookup_register_of_not_isFor hfor, ih]
      simp [hfor]

theorem lookup_registered_eq_none :
    (registered calls).entries.lookup (kind, path) = none ↔ ∀ c ∈ calls, ¬ c.IsFor kind path := by
  rw [← Option.not_isSome_iff_eq_none, isSome_lookup_registered]
  simp

/-- **The table uses the accessor in force.** -/
theorem lookup?_registered :
    (registered calls).lookup? kind path = some read ↔ InForce calls kind path read := by
  rw [lookup?, Option.or_eq_some_iff, lookup_registered, lookup_registered_eq_none,
    lookup_registered]
  constructor
  · rintro (hown | ⟨hnone, hshared⟩)
    · exact .own hown
    · exact .shared hnone hshared
  · rintro (hown | ⟨hnone, hshared⟩)
    · exact .inl hown
    · exact .inr ⟨hnone, hshared⟩

theorem contains_registered : (registered calls).contains kind path = true
    ↔ ∃ c ∈ calls, c.IsFor kind path ∨ c.IsFor anyKind path := by
  rw [contains, lookup?, Option.isSome_or, Bool.or_eq_true, isSome_lookup_registered,
    isSome_lookup_registered]
  simp only [and_or_left, exists_or]

/-- **A table answers for registrations**: it uses the accessor in force, even where that reads
nothing; it lists the paths that it knows, each once, in ascending order; and the fields that it
reads are those that it reads one by one. -/
structure Answers (t : Accessors ρ) (calls : List (Registration ρ)) : Prop where
  uses : ∀ kind path read, t.lookup? kind path = some read ↔ InForce calls kind path read
  reads : ∀ kind path r v,
    t.read? kind path r = some v ↔ ∃ read, InForce calls kind path read ∧ read r = some v
  knows : ∀ kind path,
    t.contains kind path = true ↔ ∃ c ∈ calls, c.IsFor kind path ∨ c.IsFor anyKind path
  lists : ∀ kind path, path ∈ t.paths kind ↔ t.contains kind path = true
  ascending : ∀ kind, (t.paths kind).Pairwise (· < ·)
  readsAll : ∀ kind path r v,
    (t.readAll kind r).get? path = some v ↔ t.read? kind path r = some v

/-- **After any registrations the table answers for them.** -/
theorem answers_registered (calls : List (Registration ρ)) : (registered calls).Answers calls where
  uses _ _ _ := lookup?_registered
  reads kind path r v := by
    rw [read?, Option.bind_eq_some_iff]
    exact exists_congr fun read => and_congr_left' lookup?_registered
  knows _ _ := contains_registered
  lists _ _ := mem_paths_iff
  ascending _ := ascending_sortedSet _
  readsAll kind path r v := by
    rw [get?_readAll]

/-- An accessor for the kind itself wins, even where it reads nothing. -/
example : (registered [⟨"portal", "name", fun _ => none⟩, ⟨anyKind, "name", fun s => some (.text s)⟩]
    : Accessors String).read? "portal" "name" "dev" = none := rfl

end Accessors

end Reconcile
