import DeclaredAccess.Acl.Holdings
import DeclaredAccess.Session.Transaction

/-! The catalog, asked and changed through statements in the open transaction. -/

namespace DeclaredAccess.Catalog

variable {σ : Type}

open Sql

/-- The first value of the first row. -/
def firstCell (rows : List Row) : Except Error Value := match rows with
  | (v :: _) :: _ => .ok v
  | _ => .error (.shape .noRow)

def name (v : Value) : Except Error String := match v with
  | .text s => .ok s
  | v => .error (.shape (.notAName v))

/-- The values in rows that have one each. -/
def column (rows : List Row) : Except Error (List Value) := rows.mapM fun
  | [v] => .ok v
  | _ => .error (.shape .rowWidth)

/-- The answer to a question that has one. -/
def askOne (q : Query) (intent : String) : Task σ Value := do
  firstCell (← Task.execute q intent)

def currentUser : Task σ Value := askOne .currentUser "reading current user"

def roleExists (role : String) : Task σ Value :=
  askOne (.roleExists role) ("checking if role " ++ role ++ " exists")

def databaseExists (database : Value) : Task σ Value :=
  askOne (.databaseExists database) ("checking if database " ++ database.plain ++ " exists")

def schemaExists (schema : Value) : Task σ Value :=
  askOne (.schemaExists schema) ("checking if schema " ++ schema.plain ++ " exists")

/-- Whether `member` has the privileges of `role`. -/
def hasRole (member role : Value) : Task σ Value :=
  askOne (.hasRole member role)
    ("checking membership of role " ++ member.plain ++ " in role " ++ role.plain)

/-- Whether revoking `role` from `member` would remove a direct membership. -/
def revocableMembership (member role : Value) : Task σ Value :=
  askOne (.revocableMembership member role)
    ("checking direct membership of role " ++ member.plain ++ " in role " ++ role.plain)

/-- Owner and entries of the access control list of a schema, where it exists. -/
def schema (s : Value) : Task σ (Option (Value × List Value)) := do
  match ← Task.execute (Query.schema s) ("reading schema " ++ s.plain) with
  | [] => return none
  | [owner, acl] :: _ => match acl.items? with
    | some entries => return some (owner, entries)
    | none => Task.fail (.shape (.notAList acl))
  | _ => Task.fail (.shape .rowWidth)

/-- The owners of the tables, views and sequences in a schema. -/
def relationOwners (schema : String) : Task σ (List Value) := do
  column (← Task.execute (Query.relationOwners schema) ("reading table owners in schema " ++ schema))

/-- What a role holds on each object of a target that exists. -/
def objectPrivileges (role : String) (target : Target) : Task σ Holdings := do
  let rows ← Task.execute (Query.objectPrivileges role target)
    ("reading privileges of role " ++ Role.label role ++ " on " ++ target.describe)
  Holdings.ofRows role rows

/-- The direct members of a role. -/
def roleMembers (role : String) : Task σ (List Value) := do
  column (← Task.execute (Query.roleMembers role) ("reading members of role " ++ role))

/-- Schema and version of an extension, where it is installed. -/
def extension (extension : String) : Task σ (Option (Value × Value)) := do
  match ← Task.execute (Query.extension extension) ("reading extension " ++ extension) with
  | [] => return none
  | [schema, version] :: _ => return some (schema, version)
  | _ => Task.fail (.shape .rowWidth)

def change (c : Change) (intent : String) : Task σ Unit := discard <| Task.execute c intent

/-- Makes `member` a member of the roles; an empty list of roles sends nothing. -/
def grantMemberships (roles : List String) (member : String) (intent : String := "") :
    Task σ Unit := do
  if !roles.isEmpty then
    change (.grantMembership roles member) (if intent.isEmpty then
      "granting memberships " ++ ", ".intercalate roles ++ " to role " ++ member else intent)

/-- Takes the memberships in the roles from `member`; an empty list of roles sends nothing. -/
def revokeMemberships (roles : List String) (member : String) (intent : String := "") :
    Task σ Unit := do
  if !roles.isEmpty then
    change (.revokeMembership roles member) (if intent.isEmpty then
      "revoking memberships " ++ ", ".intercalate roles ++ " from role " ++ member else intent)

def createSchema (schema : String) (owner : String := "") (ifNotExists : Bool := false) :
    Task σ Unit :=
  change (.createSchema schema owner ifNotExists) ("creating schema " ++ schema)

def renameSchema (schema newName : String) : Task σ Unit :=
  change (.renameSchema schema newName) ("renaming schema " ++ schema ++ " to " ++ newName)

def setSchemaOwner (schema owner : String) : Task σ Unit :=
  change (.setSchemaOwner schema owner)
    ("granting ownership of schema " ++ schema ++ " to role " ++ owner)

def dropSchema (schema : String) (cascade : Bool := false) : Task σ Unit :=
  change (.dropSchema schema cascade) ("dropping schema " ++ schema)

def createExtension (extension : String) (schema : String := "") (version : String := "") :
    Task σ Unit :=
  change (.createExtension extension schema version) ("creating extension " ++ extension)

def setExtensionSchema (extension schema : String) : Task σ Unit :=
  change (.setExtensionSchema extension schema)
    ("moving extension " ++ extension ++ " to schema " ++ schema)

def updateExtension (extension : String) (version : String := "") : Task σ Unit :=
  change (.updateExtension extension version) ("updating extension " ++ extension)

def dropExtension (extension : String) : Task σ Unit :=
  change (.dropExtension extension) ("dropping extension " ++ extension)

end DeclaredAccess.Catalog

namespace DeclaredAccess

/-- The role that statements run as: the client's, or else the connection's own, as the catalog
tells it. -/
def Client.actorRole {σ : Type} (c : Client) : Task σ Value := do
  if c.actor.isEmpty then Catalog.currentUser else return c.actor

end DeclaredAccess
