import DeclaredAccess.ObjectKind
import DeclaredAccess.Value

/-! The statements that are sent to the database, by what they ask or do. -/

namespace DeclaredAccess.Sql

/-- A question about the catalog. Where a name may come from the catalog itself or from a field of
a resource that nobody has checked, it is any value. -/
inductive Query
  | currentUser
  | roleExists (role : String)
  | databaseExists (database : Value)
  | schemaExists (schema : Value)
  /-- Whether `member` has the privileges of `role`. -/
  | hasRole (member role : Value)
  /-- Whether a revoke of `role` from `member` would remove a direct membership. -/
  | revocableMembership (member role : Value)
  /-- Owner and access control list of a schema. -/
  | schema (schema : Value)
  /-- Owners of the relations in a schema. -/
  | relationOwners (schema : String)
  /-- What a role holds on each object of a target. -/
  | objectPrivileges (role : String) (target : Target)
  | roleMembers (role : String)
  /-- Schema and version of an installed extension. -/
  | extension (name : String)

/-- A change of the catalog. -/
inductive Change
  | grant (privileges : PrivilegeSet) (target : Target) (role : String) (withGrantOption : Bool)
  /-- Takes every privilege on the target from the role. -/
  | revokeAll (target : Target) (role : String)
  | grantMembership (roles : List String) (member : String)
  | revokeMembership (roles : List String) (member : String)
  | createSchema (name owner : String) (ifNotExists : Bool)
  | renameSchema (name newName : String)
  | setSchemaOwner (name owner : String)
  | dropSchema (name : String) (cascade : Bool)
  | createExtension (name schema version : String)
  | setExtensionSchema (name schema : String)
  | updateExtension (name version : String)
  | dropExtension (name : String)

inductive Statement
  | query (q : Query)
  | change (c : Change)
  /-- A statement of the caller's own. -/
  | raw (text : String)

instance : Coe Query Statement := ⟨.query⟩

instance : Coe Change Statement := ⟨.change⟩

end DeclaredAccess.Sql
