import DeclaredAccess.Acl.Statements
import DeclaredAccess.Schema.Found
import DeclaredAccess.Session.Elevation

/-! Schemas and the catalog. -/

namespace DeclaredAccess.Schema

variable {σ : Type}

/-- Database and name of a resource; one without a name is imported by its identifier. -/
def databaseAndName (c : Client) (r : Resource) : Except Error (Value × Value) :=
  let name := r.getD "name" (.text "")
  if name.truthy then
    let database := r.getD "database" (.text "")
    .ok (if database.truthy then database else .text c.defaultDatabase, name)
  else do
    let (database, name) ← ofId r.id
    return (.text database, .text name)

/-- Compares the catalog with the resource, and clears the identifier where the schema is gone. -/
def refresh (c : Client) (database : String) (name : Value) : Task Resource Unit := do
  match ← c.transaction database do Catalog.schema name with
  | none => Task.changeWork (·.setId "")
  | some (owner, entries) =>
    let r ← settle database name owner entries (← Task.work)
    Task.changeWork fun _ => r

/-- Grants the merged policies in the order of their role keys. -/
def grantPolicies (s : Schema) : Task σ Unit := do
  let policies ← Declaration.byRole s.policies
  policies.sorted.forM fun (_, d) => do
    (← Acl.grants (target s.name) (← d.toAcl)).forM fun statement =>
      Catalog.change statement
        ("granting privileges on schema " ++ s.name ++ " to role " ++ Role.label d.role)

/-- Creates the schema, or takes it over where it exists. -/
def establish (s : Schema) (c : Client) : Task σ Unit := do
  if (← Catalog.schemaExists s.name).truthy then
    if !s.owner.isEmpty then Catalog.setSchemaOwner s.name s.owner
  else
    let ifNotExists ← if s.ifNotExists then c.supports .schemaCreateIfNotExists else pure false
    Catalog.createSchema s.name s.owner ifNotExists

/-- Creates the schema, or takes it over where it exists, and grants its policies. -/
def create (c : Client) : Task Resource Unit := do
  let s ← ofResource (← Task.work) c.defaultDatabase
  Task.locked .write do
    c.committed s.database do
      Task.elevated s.owner (← c.actorRole) do
        s.establish c
        s.grantPolicies
    Task.changeWork (·.setId (idOf s.database s.name))
    refresh c s.database (.text s.name)

/-- Brings owner and policies up to date with the catalog. -/
def read (c : Client) : Task Resource Unit := do
  let (database, name) ← databaseAndName c (← Task.work)
  Task.locked .read do
    refresh c (← Catalog.name database) name

/-- The roles whose membership an update needs: the previous and the new owner. -/
def owners (previous : Value) (owner : String) : Except Error (List Value) :=
  Value.distinct [if previous.truthy then previous else "", owner]

/-- The declarations of a changed list of policies; what does not count is the empty list. -/
def changedPolicies (v : Value) : Except Error (List Declaration) :=
  if v.truthy then Declaration.ofBlocks v else .ok []

/-- Revokes and grants what a changed list of policies asks for. -/
def movePolicies (name : String) (old new : Value) : Task σ Unit := do
  let old ← changedPolicies old
  let new ← changedPolicies new
  discard <| Catalog.movePolicy old new (target name) ("updating privileges on schema " ++ name)

/-- Applies what changed of name, owner and policies, in this order. -/
def alter (s : Schema) (r : Resource) : Task σ Unit := do
  if r.hasChange "name" then
    Catalog.renameSchema (← Catalog.name (r.change "name").1) (← Catalog.name (r.change "name").2)
  if r.hasChange "owner" then Catalog.setSchemaOwner s.name s.owner
  if r.hasChange "policy" then movePolicies s.name (r.change "policy").1 (r.change "policy").2

/-- Applies a new name, a new owner and new policies in one transaction. -/
def update (c : Client) : Task Resource Unit := do
  let r ← Task.work
  let s ← ofResource r c.defaultDatabase
  if r.hasChange "owner" && s.owner.isEmpty then Task.fail (.config .ownerCleared)
  let previousOwner := (r.change "owner").1
  Task.locked .write do
    c.committed s.database do
      let owners ← owners previousOwner s.owner
      Task.elevatedAll owners (← c.actorRole) (s.alter r)
    Task.changeWork (·.setId (idOf s.database s.name))
    refresh c s.database (.text s.name)

/-- Drops the schema. One that is gone already needs no dropping. -/
def delete (c : Client) : Task Resource Unit := do
  let s ← ofResource (← Task.work) c.defaultDatabase
  Task.locked .write do
    Task.unlessMissing <| c.committed s.database do
      Task.elevated s.owner (← c.actorRole) (Catalog.dropSchema s.name s.dropCascade)
  Task.changeWork (·.setId "")

/-- Whether the schema exists, as the catalog answers it. -/
def «exists» (c : Client) : Task Resource Value := do
  let (database, name) ← databaseAndName c (← Task.work)
  Task.locked .read do
    let found ← c.transaction "" do Catalog.databaseExists database
    if !found.truthy then return .bool false
    c.transaction (← Catalog.name database) do Catalog.schemaExists name

end DeclaredAccess.Schema
