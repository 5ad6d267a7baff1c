import DeclaredAccess.Grant
import DeclaredAccess.Text.Split

/-! The identifier of a grant, `database.role:type:schema:objects:privileges`. Objects and
privileges stand in it sorted and with commas between them, and a star marks privileges that are
held with grant option, so an identifier also says what was applied. -/

namespace DeclaredAccess

/-- The fields of a grant's identifier. -/
structure GrantId where
  database : String
  role : String
  objectType : String
  schema : String
  objects : List String
  privileges : List String
  withGrantOption : Bool
  deriving DecidableEq

namespace GrantId

def commaJoin (items : List String) : List Char := Text.join ',' (items.map String.toList)

/-- The items between commas; the empty text has none. -/
def commaSplit (cs : List Char) : List String :=
  if cs.isEmpty then [] else (Text.split ',' cs).map String.ofList

def isStarred (name : String) : Bool := name.toList.getLast? == some '*'

/-- A name without the star at its end. -/
def unstarred (name : String) : String :=
  if isStarred name then String.ofList name.toList.dropLast else name

def readChars? (cs : List Char) : Option GrantId :=
  let (database, rest) := Text.cut '.' cs
  if database.isEmpty then none
  else match Text.split ':' rest with
    | [role, objectType, schema, objects, privileges] =>
      let names := commaSplit privileges
      some { database := .ofList database, role := .ofList role, objectType := .ofList objectType
             schema := .ofList schema, objects := commaSplit objects
             privileges := names.map unstarred, withGrantOption := names.any isStarred }
    | _ => none

def read (id : String) : Except Error GrantId := match readChars? id.toList with
  | some g => .ok g
  | none => .error (.config (.grantId id))

end GrantId

namespace Grant

/-- The privileges' names in order, starred where they are held with grant option. -/
def idPrivileges (g : Grant) : List String :=
  (sortNames g.privileges.keywords).map fun name => if g.withGrantOption then name ++ "*" else name

def idChars (g : Grant) : List Char :=
  Text.join ':' [g.database.toList ++ '.' :: g.role.toList, g.kind.name.toList, g.schema.toList,
    GrantId.commaJoin (sortNames g.objects), GrantId.commaJoin g.idPrivileges]

def id (g : Grant) : String := String.ofList g.idChars

/-- The grant as it was last applied: objects, privileges and grant option come from the
identifier where there is one, since a read that found a difference clears the fields. -/
def applied (r : Resource) : Except Error Grant := do
  let g ← ofResource r false
  if r.id.isEmpty then return g
  let recorded ← GrantId.read r.id
  return { g with
    objects := recorded.objects
    privileges := ← PrivilegeSet.ofNames g.kind recorded.privileges
    withGrantOption := recorded.withGrantOption }

end Grant

end DeclaredAccess
