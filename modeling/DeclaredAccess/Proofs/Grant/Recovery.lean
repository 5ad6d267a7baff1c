import DeclaredAccess.Proofs.Grant.Applied

/-! What the identifier of a grant gives back. All of a declared grant is read from it, but for one
list of objects: an empty name on its own stands in the identifier as no name at all, and no names
mean every object of the schema. The grant as it was applied is known from the identifier and from
the fields that tell the role and the place, whatever the other fields say by now. -/

namespace DeclaredAccess

/-- Whether a resource names the role and the place that another one names. -/
def Resource.SamePlace (r' r : Resource) : Prop :=
  ∀ key ∈ ["role", "database", "schema", "object_type"], r'.get? key = r.get? key

namespace Grant

variable {r r' : Resource} {g g' : Grant}

/-- Whether the lists that a resource gives can be declared for a kind of object. Either of them may
be empty. -/
structure Admits (kind : ObjectKind) (r : Resource) : Prop where
  objects : ∃ names, r.texts "objects" = .ok names ∧ (kind = .database → names = []) ∧
    ∀ n ∈ names, ∀ m ∈ GrantId.marks, ¬m ∈ n.toList
  privileges : ∃ names s, r.texts "privileges" = .ok names ∧
    PrivilegeSet.ofNames kind names = .ok s

/-- A resource that names the same place declares a grant there, with lists of its own. -/
theorem declared_of_samePlace {b : Bool} (h : ofResource r b = .ok g) (hp : r'.SamePlace r)
    (ha : Admits g.kind r') : ∃ g', ofResource r' false = .ok g' ∧ g'.scope = g.scope := by
  obtain ⟨named, name, _, _, h⟩ := ofResource_eq_ok_iff.mp h
  obtain ⟨⟨items, listed, unlisted, unmarked⟩, names, privileges, spelt, hprivileges⟩ := ha
  have required {key s : String} (hk : key ∈ ["role", "database", "schema", "object_type"])
      (hs : r.required .grant key = .ok s) : r'.required .grant key = .ok s := by
    rw [← hs, Resource.required, Resource.required, hp key hk]
  have schema : r'.optional "schema" = .ok g.schema := by
    rw [← h.schema, Resource.optional, Resource.optional, hp "schema" (by simp)]
  have marks : ∀ s ∈ g.role :: g.database :: g.schema :: items,
      ∀ m ∈ GrantId.marks, ¬m ∈ s.toList := by
    simp only [List.forall_mem_cons]
    exact ⟨h.marks _ (by simp), h.marks _ (by simp), h.marks _ (by simp), unmarked⟩
  let g' : Grant := { g with
    privileges, objects := sortNames items, withGrantOption := r'.flag "with_grant_option" }
  have declares : Declares r' false g' named name items names :=
    { given := required (by simp) h.given
      role := h.role
      database := required (by simp) h.database
      schema
      typed := required (by simp) h.typed
      kind := h.kind
      listed
      objects := rfl
      unlisted
      placed := h.placed
      spelt
      needed := fun hb => by cases hb
      privileges := hprivileges
      option := rfl
      point := h.point
      marks }
  exact ⟨g', ofResource_eq_ok_iff.mpr ⟨named, name, items, names, declares⟩, rfl⟩

/-- Whether a resource has the identifier of a grant and declares something, whatever it is, for the
same role and place. -/
def CarriedBy (g : Grant) (r : Resource) : Prop :=
  r.id = g.id ∧ ∃ g', ofResource r false = .ok g' ∧ g'.scope = g.scope

theorem recorded_eq {b : Bool} (h : ofResource r b = .ok g) :
    g.recorded = if g.objects = [""] then [] else g.objects := by
  rw [recorded, (placed_of_declared h).2]

theorem recorded_eq_iff {b : Bool} (h : ofResource r b = .ok g) :
    g.recorded = g.objects ↔ g.objects ≠ [""] := by
  rw [recorded_eq h]
  split
  · rename_i he
    simp [he]
  · simp [*]

/-- The identifier of a declared grant reads back as the grant's parts, and the grant is read back
from every resource that carries the identifier, if and only if the objects are not an empty name on
its own. That list is read back as the empty one, which stands for every object. -/
theorem id_gives_back_iff (h : ofResource r = .ok g) :
    GrantId.read g.id = .ok
      { database := g.database, role := g.role, objectType := g.kind.name, schema := g.schema
        objects := if g.objects = [""] then [] else sortNames g.objects
        privileges := sortNames g.privileges.keywords, withGrantOption := g.withGrantOption } ∧
    (∀ r' : Resource, r'.id = g.id → r'.SamePlace r → Admits g.kind r' → g.CarriedBy r') ∧
    ∀ r' : Resource, g.CarriedBy r' →
      applied r' = .ok { g with objects := if g.objects = [""] then [] else g.objects } ∧
      (applied r' = .ok g ↔ g.objects ≠ [""]) := by
  refine ⟨?_, fun r' hi hp ha => ⟨hi, declared_of_samePlace h hp ha⟩, fun r' hc => ?_⟩
  · rw [(placed_of_declared h).2, ← recorded_eq h]
    exact read_id_of_declared h
  · obtain ⟨hi, g', hd, hs⟩ := hc
    have ha := applied_of_scope h hi hd hs
    refine ⟨(recorded_eq h) ▸ ha, ?_⟩
    rw [ha, ← recorded_eq_iff h]
    constructor
    · exact fun he => congrArg objects (Except.ok.inj he)
    · exact fun he => by rw [he]

end Grant

/-! ## Tables without a name -/

/-- A grant to everybody on tables of a schema. -/
def publicTables (id : String) (objects privileges : List Value) (option : Bool) : Resource where
  id := id
  values := [("role", .text "Public"), ("database", .text "app"), ("object_type", .text "Table"),
    ("schema", .text "s.*"), ("objects", .list objects), ("privileges", .list privileges),
    ("with_grant_option", .bool option)]

/-- What is declared by it. -/
def publicGrant (objects : List String) : Grant :=
  ⟨"", "app", .table, ∅ ∪ .ofList [.update] ∪ .ofList [.select], "s.*", objects, true⟩

/-- The fields that a read cleared, under the identifier of the grant. -/
def clearedTables (objects : List String) : Resource :=
  publicTables (publicGrant objects).id [] [] false

theorem carriedBy_clearedTables (objects : List String) :
    (publicGrant objects).CarriedBy (clearedTables objects) :=
  ⟨rfl, ⟨"", "app", .table, ∅, "s.*", sortNames [], false⟩, rfl, rfl⟩

theorem ofResource_publicTables_two : Grant.ofResource
    (publicTables "" [.text "b", .text ""] [.text "update", .text " select "] true) =
      .ok (publicGrant ["", "b"]) := by
  have hsort : sortNames ["b", ""] = ["", "b"] := sortNames_eq_of_perm (by decide) (by decide)
  rw [← hsort]
  rfl

theorem ofResource_publicTables_one : Grant.ofResource
    (publicTables "" [.text ""] [.text "update", .text " select "] true) =
      .ok (publicGrant [""]) := by
  have hsort : sortNames [""] = [""] := sortNames_eq_of_perm (.refl _) (by decide)
  rw [← hsort]
  rfl

/-- An empty name beside another one is not lost. -/
theorem Grant.id_gives_back_iff_two :
    GrantId.read (publicGrant ["", "b"]).id = .ok
      { database := "app", role := "", objectType := "table", schema := "s.*", objects := ["", "b"]
        privileges := ["SELECT", "UPDATE"], withGrantOption := true } ∧
    Grant.applied (clearedTables ["", "b"]) = .ok (publicGrant ["", "b"]) := by
  obtain ⟨reads, -, applies⟩ := Grant.id_gives_back_iff ofResource_publicTables_two
  have hobjects : sortNames (publicGrant ["", "b"]).objects = ["", "b"] :=
    sortNames_eq_of_perm (.refl _) (by decide)
  have hkeywords : sortNames (publicGrant ["", "b"]).privileges.keywords = ["SELECT", "UPDATE"] :=
    sortNames_eq_of_perm (by decide) (by decide)
  rw [hobjects, hkeywords] at reads
  exact ⟨reads, (applies _ (carriedBy_clearedTables _)).2.mpr (by decide)⟩

/-- An empty name on its own is lost: what is read back is a grant on every table of the schema. -/
theorem lone_empty_name_lost : ¬∀ (r : Resource) (g : Grant), Grant.ofResource r = .ok g →
    (∃ a, GrantId.read g.id = .ok a ∧ a.objects = sortNames g.objects) ∧
      ∀ r' : Resource, g.CarriedBy r' → Grant.applied r' = .ok g := by
  intro h
  obtain ⟨-, happlied⟩ := h _ _ ofResource_publicTables_one
  obtain ⟨hi, g', hd, hs⟩ := carriedBy_clearedTables [""]
  have hlost := Grant.applied_of_scope ofResource_publicTables_one hi hd hs
  rw [happlied _ ⟨hi, g', hd, hs⟩] at hlost
  have hobjects : [""] = (publicGrant [""]).recorded := congrArg Grant.objects (Except.ok.inj hlost)
  rw [Grant.recorded_eq ofResource_publicTables_one] at hobjects
  exact absurd hobjects (by decide)

end DeclaredAccess
