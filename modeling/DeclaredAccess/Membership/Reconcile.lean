import DeclaredAccess.Membership
import DeclaredAccess.Session.Catalog
import DeclaredAccess.Value.Order

/-! Group roles and their members in the catalog. -/

namespace DeclaredAccess.Membership

variable {σ : Type}

/-- Makes each of the members, in order, a member of the role. -/
def addMembers (role : String) (members : List String) : Task σ Unit :=
  (sortNames members).forM fun member =>
    Catalog.grantMemberships [role] member ("granting role " ++ role ++ " to role " ++ member)

/-- Takes the role from each of the members, in order. -/
def removeMembers (role : String) (members : List String) : Task σ Unit :=
  (sortNames members).forM fun member =>
    Catalog.revokeMemberships [role] member ("revoking role " ++ role ++ " from role " ++ member)

/-- Looks the members up. Where the role is gone, the identifier is cleared at once. -/
def look (role : String) : Task Resource (Option (List Value)) := do
  if (← Catalog.roleExists role).truthy then return some (← Catalog.roleMembers role)
  else
    Task.changeWork (·.setId "")
    return none

/-- Takes over the members from the catalog, and clears the identifier where the role is gone. -/
def refresh (c : Client) (role : String) : Task Resource Unit := do
  match ← c.transaction "" (look role) with
  | none => return ()
  | some members => Task.changeWork fun r =>
      (r.put "role" (.text role)).put "members" (.list members)

def create (c : Client) : Task Resource Unit := do
  let m ← ofResource (← Task.work)
  Task.locked .write do
    c.committed "" (addMembers m.role m.members)
    Task.changeWork (·.setId m.name)
    refresh c m.role

def read (c : Client) : Task Resource Unit := do
  let m ← ofResource (← Task.work)
  Task.locked .read (refresh c m.role)

/-- The members of a set before a change; what does not count is the empty set, and lists and
objects cannot be members. -/
def memberSet (v : Value) : Except Error (List Value) := do
  if !v.truthy then return []
  match v.items? with
  | none => throw (.shape (.notAList v))
  | some items => Value.distinct items

/-- Members as names of roles. -/
def memberNames (members : List Value) : Except Error (List String) := members.mapM Catalog.name

/-- The names that are in the first list only, each once. -/
def without (names others : List String) : List String :=
  (names.filter fun n => !others.contains n).eraseDups

/-- Takes the role from those who are in the old set only, and gives it to those who are in the new
one only. -/
def replaceMembers (role : String) (old new : List Value) : Task σ Unit := do
  let old ← memberNames old
  let new ← memberNames new
  removeMembers role (without old new)
  addMembers role (without new old)

/-- Takes the role from the members that are no longer declared, and gives it to the new ones. -/
def update (c : Client) : Task Resource Unit := do
  let r ← Task.work
  let m ← ofResource r
  Task.locked .write do
    if r.hasChange "members" then
      let old ← memberSet (r.change "members").1
      let new ← memberSet (r.change "members").2
      c.committed "" (replaceMembers m.role old new)
    refresh c m.role

def delete (c : Client) : Task Resource Unit := do
  let m ← ofResource (← Task.work)
  Task.locked .write do
    c.committed "" (removeMembers m.role m.members)
  Task.changeWork (·.setId "")

end DeclaredAccess.Membership
