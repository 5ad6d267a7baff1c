import DeclaredAccess.Resource

/-! The declared members of a group role. -/

namespace DeclaredAccess

/-- The members are sorted, each once. -/
structure Membership where
  name : String
  role : String
  members : List String

namespace Membership

def ofResource (r : Resource) : Except Error Membership := do
  let members ← r.texts "members"
  if members.isEmpty then throw (.config .noMembers)
  return {
    name := ← r.required .roleMembership "name"
    role := ← r.required .roleMembership "role"
    members := sortedSet members }

end Membership

end DeclaredAccess
