import DeclaredAccess.Declaration
import DeclaredAccess.Resource

/-! A declared grant: the privileges of one role on a database, or on objects in a schema. -/

namespace DeclaredAccess

namespace PrivilegeSet

/-- The set with what one more name spells on a kind of object; `ALL` spells every privilege that
the kind has. -/
def addNamed (kind : ObjectKind) (s : PrivilegeSet) (name : String) :
    Except Error PrivilegeSet :=
  if Text.keyword (Text.trim name) = "ALL" then .ok (s ∪ kind.allowed)
  else do
    let p ← Privilege.named name
    if p ∈ kind.allowed then .ok (s ∪ .ofList [p])
    else .error (.config (.privilegeNotAllowed name kind))

/-- The privileges that names spell, on a kind of object. -/
def ofNames (kind : ObjectKind) (names : List String) : Except Error PrivilegeSet :=
  names.foldlM (addNamed kind) ∅

end PrivilegeSet

/-- An empty role stands for `PUBLIC`; an empty list of objects for all of the kind in the
schema. -/
structure Grant where
  role : String
  database : String
  kind : ObjectKind
  privileges : PrivilegeSet
  schema : String := ""
  objects : List String := []
  withGrantOption : Bool := false
  deriving DecidableEq

namespace Grant

/-- The kind of object that a name denotes in a grant. -/
def kindOf (name : String) : Except Error ObjectKind :=
  match ObjectKind.ofName? (Text.lower name) with
  | some kind =>
    if kind ∈ ObjectKind.grantable then .ok kind else .error (.config (.objectType name))
  | none => .error (.config (.objectType name))

/-- Colons and commas part the fields of an identifier, so no field may contain one. -/
def checkMarks (key : String) (items : List String) : Except Error Unit :=
  match items.find? fun s => s.toList.any fun c => c == ':' || c == ',' with
  | some s => .error (.config (.marks key s))
  | none => .ok ()

/-- The grant that a resource declares. Where `needsPrivileges` does not hold, the list of
privileges may be empty. -/
def ofResource (r : Resource) (needsPrivileges : Bool := true) : Except Error Grant := do
  let named ← r.required .grant "role"
  let role := if Text.lower named = "public" then "" else named
  let database ← r.required .grant "database"
  let schema ← r.optional "schema"
  let kind ← kindOf (← r.required .grant "object_type")
  let objects ← r.texts "objects"
  if kind = .database then
    if !objects.isEmpty then throw (.config .databaseObjects)
  else if schema.isEmpty then throw (.config (.schemaMissing kind))
  let names ← r.texts "privileges"
  if needsPrivileges && names.isEmpty then throw (.config .noPrivileges)
  let privileges ← PrivilegeSet.ofNames kind names
  if database.toList.contains '.' then throw (.config (.databaseWithPoint database))
  checkMarks "role" [role]
  checkMarks "database" [database]
  checkMarks "schema" [schema]
  checkMarks "objects" objects
  return { role, database, kind, privileges, schema, objects := sortNames objects
           withGrantOption := r.flag "with_grant_option" }

def target (g : Grant) : Target :=
  if g.kind = .database then { kind := .database, name := g.database }
  else { kind := g.kind, schema := g.schema, objects := g.objects }

def declaration (g : Grant) : Declaration where
  role := g.role
  privileges := g.privileges
  grantOptions := if g.withGrantOption then g.privileges else ∅
  objects := g.objects

end Grant

end DeclaredAccess
