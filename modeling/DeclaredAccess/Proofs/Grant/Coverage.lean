import DeclaredAccess.Proofs.Grant.Verdict

/-! Which objects an identifier covers. The identifier of a grant covers the grant's target, and it
is a record of the grant: what it lists is held. -/

namespace DeclaredAccess

variable {p : Scope}

/-- Whether an identifier is one of a grant in the scope. -/
structure GrantId.IsIn (a : GrantId) (p : Scope) : Prop where
  database : a.database = p.database
  role : a.role = p.role
  objectType : a.objectType = p.kind.name
  schema : a.schema = p.schema

/-- Whether the target that an identifier tells has the object. Where no objects are told, the target
has all of them. -/
def Covers (p : Scope) (id : String) (o : String) : Prop :=
  ∃ a, GrantId.read id = .ok a ∧ a.IsIn p ∧ (a.objects = [] ∨ o ∈ a.objects)

/-- Everything that is held is covered by the identifier, and nothing is held without one. -/
def Covered (p : Scope) (id : String) (held : String → Prop) : Prop :=
  (∀ o, held o → Covers p id o) ∧ (id = "" → ∀ o, ¬held o)

/-- What the operations keep up: where something is held, it is covered, and every object that the
identifier lists is held. -/
def Recorded (p : Scope) (id : String) (held : String → Prop) : Prop :=
  (∀ o, ¬held o) ∨ ∃ a, GrantId.read id = .ok a ∧ a.IsIn p ∧ a.privileges ≠ [] ∧
    (∀ o, held o → a.objects = [] ∨ o ∈ a.objects) ∧ ∀ o ∈ a.objects, held o

theorem not_covers_empty {o : String} : ¬Covers p "" o := by
  intro h
  obtain ⟨a, ha, _⟩ := h
  cases ha

theorem covered_iff {id : String} {held : String → Prop} :
    Covered p id held ↔ ∀ o, held o → Covers p id o := by
  refine ⟨And.left, fun h => ⟨h, ?_⟩⟩
  intro h o ho
  obtain rfl := h
  exact not_covers_empty (h o ho)

theorem Recorded.covered {id : String} {held : String → Prop} (h : Recorded p id held) :
    Covered p id held := by
  refine covered_iff.mpr fun o ho => ?_
  rcases h with hn | ⟨a, ha, hi, _, hc, _⟩
  · exact absurd ho (hn o)
  · exact ⟨a, ha, hi, hc o ho⟩

/-- Whether every declaration that the resource can be read as is about the scope. -/
def Scope.Describes (p : Scope) (r : Resource) : Prop :=
  ∀ (needsPrivileges : Bool) (g : Grant), Grant.ofResource r needsPrivileges = .ok g → g.scope = p

namespace Grant

variable {g : Grant}

theorem target_objects (h : g.Sound) : g.target.objects = g.objects := by
  unfold target
  split
  · exact (h.unlisted ‹_›).symm
  · rfl

theorem isIn_of_scope {a : GrantId} (hs : g.scope = p) (hd : a.database = g.database)
    (hr : a.role = g.role) (hk : a.objectType = g.kind.name) (hn : a.schema = g.schema) :
    a.IsIn p := by
  subst hs
  exact ⟨hd, hr, hk, hn⟩

theorem mem_recorded {o : String} (h : o ∈ g.recorded) : o ∈ g.objects := by
  unfold recorded at h
  split at h
  · cases h
  · exact mem_sortNames.mp h

/-- What an identifier records of a target has every object that the target has. -/
theorem recorded_includes (h : g.Sound) {o : String} (ho : g.target.Includes o) :
    g.recorded = [] ∨ o ∈ g.recorded := by
  rw [Target.Includes, target_objects h] at ho
  unfold recorded
  rcases ho with ho | ho
  · rw [ho]
    exact .inl (by simp [sortNames])
  · split
    · exact .inl rfl
    · exact .inr (mem_sortNames.mpr ho)

/-- The identifier of a grant covers the grant's target. -/
theorem covers_id (h : g.Sound) (hs : g.scope = p) {o : String} (ho : g.target.Includes o) :
    Covers p g.id o :=
  ⟨_, read_id h.toUnmarked, isIn_of_scope hs rfl rfl rfl rfl, recorded_includes h ho⟩

theorem idPrivileges_ne_nil (hn : g.privileges.isEmpty = false) :
    sortNames g.privileges.keywords ≠ [] := by
  intro he
  have hk : g.privileges.keywords = [] := by
    rw [List.eq_nil_iff_forall_not_mem]
    intro n hn
    rw [← mem_sortNames, he] at hn
    cases hn
  have hl : g.privileges.toList = [] := List.map_eq_nil_iff.mp hk
  rw [PrivilegeSet.isEmpty, hl] at hn
  cases hn

/-- Once a grant was made, the ledger is as its identifier tells if all that was held before is
covered too, and otherwise it is not covered. -/
theorem recorded_of_given (h : g.Sound) (hs : g.scope = p) (hn : g.privileges.isEmpty = false)
    {held held' : String → Prop} (hg : g.Given held held') :
    ((∀ o, held o → Covers p g.id o) → Recorded p g.id held') ∧
      (∀ o, held o → ¬Covers p g.id o → held' o) := by
  constructor
  · intro hc
    have covers (o : String) (ho : held' o) : Covers p g.id o := by
      by_cases hi : g.target.Includes o
      · exact covers_id h hs hi
      · exact hc o ((hg.2 o hi).mp ho)
    refine .inr ⟨_, read_id h.toUnmarked, isIn_of_scope hs rfl rfl rfl rfl, idPrivileges_ne_nil hn,
      fun o ho => ?_, fun o ho => ?_⟩
    · obtain ⟨a, ha, _, ho⟩ := covers o ho
      cases ha.symm.trans (read_id h.toUnmarked)
      exact ho
    · refine hg.1 o ?_
      rw [target_objects h]
      exact mem_recorded ho
  · intro o ho hc
    exact (hg.2 o fun hi => hc (covers_id h hs hi)).mpr ho

end Grant

end DeclaredAccess
