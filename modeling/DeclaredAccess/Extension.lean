import DeclaredAccess.Schema

/-! A declared extension. -/

namespace DeclaredAccess

/-- An empty schema or version leaves the choice to the server. -/
structure Extension where
  name : String
  database : String
  schema : String := ""
  version : String := ""

namespace Extension

def ofResource (r : Resource) (defaultDatabase : String) : Except Error Extension := do
  let database ← r.database .extension defaultDatabase
  return {
    name := ← r.required .extension "name"
    database
    schema := ← r.optional "schema"
    version := ← r.optional "version" }

/-- The identifier: the database, a point, and the extension. -/
def idOf (database name : String) : String := database ++ "." ++ name

end Extension

end DeclaredAccess
