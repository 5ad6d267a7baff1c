import DeclaredAccess.Extension
import DeclaredAccess.Session.Catalog

/-! Extensions and the catalog. -/

namespace DeclaredAccess.Extension

/-- The resource's name where a server does not support it. -/
def resourceName : String := "postgresql_extension"

/-- The extension that the resource declares, on a server that has extensions at all. -/
def declared (c : Client) : Task Resource Extension := do
  c.require .extension resourceName
  ofResource (← Task.work) c.defaultDatabase

/-- Takes over schema and version from the catalog, and clears the identifier where the extension
is gone. -/
def refresh (c : Client) (e : Extension) : Task Resource Unit := do
  match ← c.transaction e.database (Catalog.extension e.name) with
  | none => Task.changeWork (·.setId "")
  | some (schema, version) => Task.changeWork fun r =>
      ((((r.put "name" (.text e.name)).put "schema" schema).put "version" version).put "database"
        (.text e.database)).setId (idOf e.database e.name)

def create (c : Client) : Task Resource Unit := do
  let e ← declared c
  Task.locked .write do
    c.committed e.database (Catalog.createExtension e.name e.schema e.version)
    Task.changeWork (·.setId (idOf e.database e.name))
    e.refresh c

def read (c : Client) : Task Resource Unit := do
  let e ← declared c
  Task.locked .read (e.refresh c)

/-- Applies what changed of schema and version. -/
def alter {σ : Type} (e : Extension) (r : Resource) : Task σ Unit := do
  if r.hasChange "schema" then Catalog.setExtensionSchema e.name e.schema
  if r.hasChange "version" then Catalog.updateExtension e.name e.version

/-- Moves the extension to its declared schema and updates it to its declared version. -/
def update (c : Client) : Task Resource Unit := do
  let e ← declared c
  let r ← Task.work
  if r.hasChange "schema" && e.schema.isEmpty then
    Task.fail (.config .extensionSchemaCleared)
  Task.locked .write do
    c.committed e.database (e.alter r)
    e.refresh c

/-- Drops the extension. One that is gone already needs no dropping. -/
def delete (c : Client) : Task Resource Unit := do
  let e ← declared c
  Task.locked .write
    (Task.unlessMissing (c.committed e.database (Catalog.dropExtension e.name)))
  Task.changeWork (·.setId "")

/-- Whether the extension is installed. -/
def «exists» (c : Client) : Task Resource Bool := do
  let e ← declared c
  Task.locked .read do
    return (← c.transaction e.database (Catalog.extension e.name)).isSome

end DeclaredAccess.Extension
