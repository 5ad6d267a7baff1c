import DeclaredAccess.Acl.Statements
import DeclaredAccess.Grant.Id
import DeclaredAccess.Session.Elevation

/-! Grants and the catalog. Applying a grant first takes everything the role holds on the target
and then grants what is declared, in one transaction, so the role is never without its privileges
in between and grant options can be lowered. -/

namespace DeclaredAccess.Grant

variable {σ : Type}

/-- The resource's name where a server does not support it. -/
def resourceName : String := "postgresql_grant"

/-- The roles whose membership is needed to change privileges on the target. -/
def owners (g : Grant) : Task σ (List Value) :=
  if g.kind = .database then pure [] else Catalog.ownersIn g.schema

/-- Sends the statements that take what the role holds on the target and, where `regrant` holds,
those that grant what is declared. -/
def statements (g : Grant) (declared : Acl) (regrant : Bool) : Task σ Unit := do
  let on := " privileges on " ++ g.target.describe
  (declared.revokes g.target).forM fun s =>
    Catalog.change s ("revoking" ++ on ++ " from role " ++ Role.label g.role)
  if regrant then
    (← declared.grants g.target).forM fun s =>
      Catalog.change s ("granting" ++ on ++ " to role " ++ Role.label g.role)

/-- Takes what the role holds on the target, and grants what is declared where `regrant` holds. -/
def apply (c : Client) (g : Grant) (regrant : Bool) : Task σ Unit := do
  let owners ← g.owners
  let declared ← g.declaration.toAcl
  Task.elevatedAll owners (← c.actorRole) (g.statements declared regrant)

/-- Whether the role and the database exist. `PUBLIC` always does. -/
def findsRole (g : Grant) : Task σ Bool := do
  if !g.role.isEmpty then
    if !(← Catalog.roleExists g.role).truthy then return false
  return (← Catalog.databaseExists g.database).truthy

def findsSchema (g : Grant) : Task σ Bool := return (← Catalog.schemaExists g.schema).truthy

/-- Whether the role, the database and the schema exist. -/
def isPresent (c : Client) (g : Grant) : Task σ Bool := do
  if !(← c.transaction "" g.findsRole) then return false
  if g.kind = .database then return true
  c.transaction g.database g.findsSchema

/-- Whether a role holds by `a` what the grant says. -/
def isMet (g : Grant) (a : Acl) : Bool :=
  a.privileges == g.declaration.privileges && a.grantOptions == g.declaration.grantOptions

/-- Whether the objects found are not the listed ones; where none is listed, any will do. -/
def objectsDiffer (g : Grant) (found : Holdings) : Bool :=
  let listed := g.objects.map Value.text
  !listed.isEmpty && !(found.names.all (listed.contains ·) && listed.all (found.names.contains ·))

/-- What the catalog makes of the resource: differences clear the fields they are in, and where
none of the listed objects is left, the identifier. -/
def settle (g : Grant) (found : Holdings) (r : Resource) : Resource :=
  let r := if g.objectsDiffer found then r.put "objects" (.list []) else r
  let r := if found.all fun e => g.isMet e.2 then r else r.put "privileges" (.list [])
  if !g.objects.isEmpty && found.isEmpty then r.setId "" else r

/-- Compares the catalog with the grant. The objects found have to have an order. -/
def refresh (c : Client) (g : Grant) : Task Resource Unit := do
  if ← g.isPresent c then
    Task.changeWork fun r => if r.id.isEmpty then r.setId g.id else r
    let found ← c.transaction g.database (Catalog.objectPrivileges g.role g.target)
    discard <| Task.ofExcept (Value.inOrder found.names)
    Task.changeWork (g.settle found)
  else Task.changeWork (·.setId "")

/-- Applies the declared grant and compares the catalog with it. An update is the same, since
everything is taken first. -/
def create (c : Client) : Task Resource Unit := do
  c.require .privileges resourceName
  let g ← ofResource (← Task.work)
  Task.locked .write do
    c.committed g.database (g.apply c true)
    Task.changeWork (·.setId g.id)
    g.refresh c

/-- Compares the catalog with the grant as it was last applied. The identifier goes only where the
role, the database or the schema is gone, or all of the listed objects are. -/
def read (c : Client) : Task Resource Unit := do
  c.require .privileges resourceName
  let g ← applied (← Task.work)
  Task.locked .read (g.refresh c)

/-- Takes everything the role holds on the objects that the grant was applied to. Where something
is missing there, nothing is left to take. -/
def delete (c : Client) : Task Resource Unit := do
  c.require .privileges resourceName
  let g ← applied (← Task.work)
  Task.locked .write (Task.unlessMissing (c.committed g.database (g.apply c false)))
  Task.changeWork (·.setId "")

end DeclaredAccess.Grant
