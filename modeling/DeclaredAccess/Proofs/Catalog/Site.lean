import DeclaredAccess.Proofs.Catalog.Holding
import DeclaredAccess.Proofs.Session.Stack
import DeclaredAccess.Session.Catalog

/-! A server whose roles, databases, schemas and objects stay as they are while rights change. It
answers each question by what is there, and refuses a change of rights only where something that the
change names is not there. -/

namespace DeclaredAccess

open Sql

/-- What something in a catalog can be called. -/
def IsName (s : String) : Prop := s ≠ "" ∧ '\x00' ∉ s.toList

/-- What privileges are held on: a database, a schema in one, or an object in a schema. -/
inductive Place
  | database (name : String)
  | schema (database name : String)
  | object (database : String) (kind : ObjectKind) (schema name : String)
  deriving DecidableEq

/-- The name by which an answer tells of a place. -/
def Place.name : Place → String
  | database name => name
  | schema _ name => name
  | object _ _ _ name => name

/-- What there is on a server. -/
structure Site where
  roles : String → Prop
  databases : String → Prop
  schemas : (database name : String) → Prop
  objects : (database : String) → (kind : ObjectKind) → (schema : String) → List String
  /-- The role that connects. -/
  user : String
  /-- The version that the server reports, where it does. -/
  version : Option (List Int)
  isName_role : ∀ r, roles r → IsName r
  isName_database : ∀ d, databases d → IsName d
  isName_schema : ∀ d n, schemas d n → IsName n
  isName_object : ∀ d kind n, ∀ o ∈ objects d kind n, IsName o
  user_exists : roles user

/-- What each role holds on each place, and who is a direct member of a role. -/
structure Rights where
  held : Place → (role : String) → Holding
  members : (role member : String) → Prop

/-- The rights on a server through connections and transactions. -/
abbrev Journal := Stack Rights

namespace Site

variable (site : Site)

def Exists : Place → Prop
  | .database d => site.databases d
  | .schema d n => site.schemas d n
  | .object d kind n o => o ∈ site.objects d kind n

/-- Whether a target in a statement over a connection names a place. Where it lists no objects it
names all that there are. -/
def covers (connection : String) (place : Place) (t : Target) : Bool := match place with
  | .database d => decide (t.kind = .database ∧ t.name = d)
  | .schema d n => decide (t.kind = .schema ∧ d = connection ∧ t.name = n)
  | .object d kind n o => decide (kind.inSchema ∧ t.kind = kind ∧ d = connection ∧ t.schema = n ∧
      o ∈ site.objects d kind n ∧ (t.objects = [] ∨ o ∈ t.objects))

/-- Whether everything that a target names by itself is there. -/
def Has (connection : String) (t : Target) : Prop := match t.kind with
  | .database => site.databases t.name
  | .schema => site.schemas connection t.name
  | kind => site.schemas connection t.schema ∧
      ∀ o ∈ t.objects, o ∈ site.objects connection kind t.schema

/-- Whether everything that a change of rights names is there. -/
def Finds (connection : String) : Change → Prop
  | .grant _ t role _ | .revokeAll t role => (role = "" ∨ site.roles role) ∧ site.Has connection t
  | .grantMembership roles member | .revokeMembership roles member =>
    (∀ r ∈ roles, site.roles r) ∧ site.roles member
  | _ => False

/-- The rights after a change over a connection. -/
def after (connection : String) (c : Change) (w : Rights) : Rights where
  held place := c.effect (site.covers connection place) (w.held place)
  members := match c with
    | .grantMembership roles member => fun r m => w.members r m ∨ (r ∈ roles ∧ m = member)
    | .revokeMembership roles member => fun r m => w.members r m ∧ ¬(r ∈ roles ∧ m = member)
    | _ => w.members

/-- The first value of an answer counts as true exactly if `p` holds. -/
def Says (rows : List Row) (p : Prop) : Prop :=
  ∃ v, Catalog.firstCell rows = .ok v ∧ (v.truthy = true ↔ p)

/-- A row tells that a place exists, or of a privilege that is held there. -/
def TellsOf (place : Place) (h : Holding) (row : Row) : Prop :=
  ∃ v grantable, row = [.text place.name, v, grantable] ∧
    (v = .null ∨ ∃ p ∈ h.privileges, v = .text p.keyword ∧
      (grantable.truthy = true → p ∈ h.grantOptions))

/-- Rows, in any order, tell what is held on each place of a target: each row is true, and each
place, each privilege and each grant option has a row. -/
structure Lists (connection : String) (held : Place → Holding) (t : Target) (rows : List Row) :
    Prop where
  true_of_row : ∀ row ∈ rows, ∃ place, site.covers connection place t = true ∧ site.Exists place ∧
    TellsOf place (held place) row
  exists_row : ∀ place, site.covers connection place t = true → site.Exists place →
    ∃ v grantable, [.text place.name, v, grantable] ∈ rows
  exists_privilege : ∀ place, site.covers connection place t = true → site.Exists place →
    ∀ p ∈ (held place).privileges, ∃ grantable,
      [.text place.name, .text p.keyword, grantable] ∈ rows ∧
        (p ∈ (held place).grantOptions → grantable.truthy = true)

/-- The answer to a question is true. Who has a role's privileges beside its direct members is not
asked to be told by any rule, and schemas and relations are owned by roles. -/
def Tells (k : Journal) (q : Query) (rows : List Row) : Prop := match q with
  | .currentUser => Catalog.firstCell rows = .ok (.text site.user)
  | .roleExists r => Says rows (site.roles r)
  | .databaseExists (.text d) => Says rows (site.databases d)
  | .schemaExists (.text n) => Says rows (site.schemas k.database n)
  | .hasRole _ _ => ∃ v, Catalog.firstCell rows = .ok v
  | .revocableMembership (.text member) (.text role) => Says rows (k.seen.members role member)
  | .schema _ => rows = [] ∨
      ∃ owner entries, site.roles owner ∧ rows = [[.text owner, .list entries]]
  | .relationOwners _ => ∀ row ∈ rows, ∃ owner, site.roles owner ∧ row = [.text owner]
  | .objectPrivileges role t =>
    t.kind ≠ .schema → site.Lists k.database (fun place => k.seen.held place role) t rows
  | _ => True

/-- A change of rights is made, unless something that it names is not there. -/
def Makes (k : Journal) (c : Change) : Except DriverError (List Row) → Journal → Prop
  | .ok _, k' => k' = k.write (site.after k.database c k.seen)
  | .error _, k' => k' = k ∧ ¬site.Finds k.database c

/-! ## True answers

There is a true answer to every question. -/

variable (k : Journal)

theorem exists_truth (p : Prop) : ∃ rows, Says rows p := by
  classical
  exact ⟨[[.bool (decide p)]], .bool (decide p), rfl, by simp [Value.truthy]⟩

theorem exists_places (connection : String) {t : Target} (h : t.kind ≠ .schema) :
    ∃ places : List Place, ∀ place, place ∈ places ↔
      site.covers connection place t = true ∧ site.Exists place := by
  classical
  by_cases hd : t.kind = .database
  · refine ⟨if site.databases t.name then [.database t.name] else [], fun place => ?_⟩
    cases place with
    | database d =>
      split
      · rename_i hn
        simp only [List.mem_singleton, Place.database.injEq, covers, hd, true_and, Exists,
          decide_eq_true_eq]
        exact ⟨fun he => ⟨he.symm, he ▸ hn⟩, fun he => he.1.symm⟩
      · rename_i hn
        simp only [List.not_mem_nil, covers, hd, true_and, Exists, decide_eq_true_eq, false_iff]
        exact fun he => hn (he.1 ▸ he.2)
    | schema d n => split <;> simp [covers, hd]
    | object d kind n o =>
      have hk : kind.inSchema = true → ¬ObjectKind.database = kind := by
        intro hi he
        subst he
        cases hi
      split <;> simp [covers, hd] <;> intro hi he <;> exact absurd he (hk hi)
  · have hi : t.kind.inSchema = true := by
      cases hk : t.kind with
      | database => exact absurd hk hd
      | schema => exact absurd hk h
      | _ => rfl
    refine ⟨((site.objects connection t.kind t.schema).filter fun o =>
      t.objects = [] ∨ o ∈ t.objects).map (.object connection t.kind t.schema), fun place => ?_⟩
    cases place with
    | database d => simp [covers, hd]
    | schema d n => simp [covers, h]
    | object d kind n o =>
      simp only [List.mem_map, List.mem_filter, decide_eq_true_eq, Place.object.injEq, covers,
        Exists]
      constructor
      · intro he
        obtain ⟨_, hm, rfl, rfl, rfl, rfl⟩ := he
        exact ⟨⟨hi, rfl, rfl, rfl, hm⟩, hm.1⟩
      · intro he
        obtain ⟨⟨_, rfl, rfl, rfl, hm⟩, _⟩ := he
        exact ⟨o, hm, rfl, rfl, rfl, rfl⟩

/-- The rows about one place. -/
def rowsOf (place : Place) (h : Holding) : List Row :=
  [.text place.name, .null, .null] :: h.privileges.toList.map fun p =>
    [.text place.name, .text p.keyword, .bool (decide (p ∈ h.grantOptions))]

theorem exists_lists (connection : String) (held : Place → Holding) {t : Target}
    (h : t.kind ≠ .schema) : ∃ rows, site.Lists connection held t rows := by
  obtain ⟨places, hp⟩ := site.exists_places connection h
  refine ⟨places.flatMap fun place => rowsOf place (held place), ?_, ?_, ?_⟩
  · intro row hrow
    obtain ⟨place, hm, hrow⟩ := List.mem_flatMap.mp hrow
    obtain ⟨hc, he⟩ := (hp place).mp hm
    refine ⟨place, hc, he, ?_⟩
    rcases List.mem_cons.mp hrow with rfl | hrow
    · exact ⟨.null, .null, rfl, .inl rfl⟩
    · obtain ⟨p, hmem, rfl⟩ := List.mem_map.mp hrow
      refine ⟨_, _, rfl, .inr ⟨p, PrivilegeSet.mem_toList.mp hmem, rfl, fun ht => ?_⟩⟩
      exact of_decide_eq_true ht
  · intro place hc he
    exact ⟨.null, .null, List.mem_flatMap.mpr ⟨place, (hp place).mpr ⟨hc, he⟩, List.mem_cons_self⟩⟩
  · intro place hc he p hmem
    refine ⟨.bool (decide (p ∈ (held place).grantOptions)), ?_, fun ho => decide_eq_true ho⟩
    refine List.mem_flatMap.mpr ⟨place, (hp place).mpr ⟨hc, he⟩, List.mem_cons_of_mem _ ?_⟩
    exact List.mem_map.mpr ⟨p, PrivilegeSet.mem_toList.mpr hmem, rfl⟩

theorem exists_tells (q : Query) : ∃ rows, site.Tells k q rows := by
  cases q with
  | currentUser => exact ⟨[[.text site.user]], rfl⟩
  | roleExists r => exact exists_truth _
  | databaseExists v => cases v with
    | text d => exact exists_truth _
    | _ => exact ⟨[], trivial⟩
  | schemaExists v => cases v with
    | text n => exact exists_truth _
    | _ => exact ⟨[], trivial⟩
  | hasRole v w => exact ⟨[[.bool false]], _, rfl⟩
  | revocableMembership v w => cases v with
    | text member => cases w with
      | text role => exact exists_truth _
      | _ => exact ⟨[], trivial⟩
    | _ => exact ⟨[], trivial⟩
  | schema v => exact ⟨[], .inl rfl⟩
  | relationOwners n => exact ⟨[], fun row hrow => by cases hrow⟩
  | objectPrivileges role t =>
    by_cases h : t.kind = .schema
    · exact ⟨[], fun hn => absurd h hn⟩
    · obtain ⟨rows, hr⟩ := site.exists_lists k.database (fun place => k.seen.held place role) h
      exact ⟨rows, fun _ => hr⟩
  | _ => exact ⟨[], trivial⟩

end Site

/-- A server with three tables in one schema. -/
def threeTables : Site where
  roles r := r = "alice" ∨ r = "admin"
  databases d := d = "app"
  schemas d n := d = "app" ∧ n = "s"
  objects d kind n := if d = "app" ∧ kind = .table ∧ n = "s" then ["a", "b", "c"] else []
  user := "admin"
  version := some [16, 2]
  isName_role := by
    rintro r (rfl | rfl) <;> exact ⟨by decide, by decide⟩
  isName_database := by
    rintro d rfl
    exact ⟨by decide, by decide⟩
  isName_schema := by
    rintro d n ⟨_, rfl⟩
    exact ⟨by decide, by decide⟩
  isName_object := by
    intro d kind n o ho
    split at ho
    · simp only [List.mem_cons, List.not_mem_nil, or_false] at ho
      rcases ho with rfl | rfl | rfl <;> exact ⟨by decide, by decide⟩
    · cases ho
  user_exists := .inr rfl

end DeclaredAccess
