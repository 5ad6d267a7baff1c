import DeclaredAccess.Acl.Items
import DeclaredAccess.Schema
import DeclaredAccess.Session.Policy

/-! A schema as the catalog answers it, compared with the resource. Owner and entries should be
texts; any other value fails at the first thing that is asked of it as a text. -/

namespace DeclaredAccess.Schema

/-- The key of an owner. -/
def ownerKey (owner : Value) : Except Error String := match owner with
  | .text s => .ok (Role.key s)
  | v => .error (.shape (.noLetters v))

/-- The declared policies of those who are not the owner: ownership covers the owner's. Each policy
is compared with the owner as soon as it is read. -/
def declaredBeside (owner : Value) (r : Resource) : Except Error (List Declaration) := do
  let policies := r.getD "policy" (.list [])
  match owner with
  | .text owner =>
    return (← Declaration.ofBlocks policies).filter fun d => d.key != Role.key owner
  | owner => match policies.items? with
    | none => throw (.shape (.notAList policies))
    | some [] => return []
    | some (policy :: _) =>
      discard <| Declaration.ofBlock policy
      throw (.shape (.noLetters owner))

/-- What the entries of an access control list say by role, the owner left out, in the order of the
role keys. -/
def policyBeside (owner : Value) (entries : List Value) : Except Error (List PolicyBlock) := do
  match Acl.byRole (← entries.mapM Acl.ofEntry) with
  | .ok [] => return []
  | .ok found =>
    let owner ← ownerKey owner
    return (found.sorted.filter fun e => e.1 != owner).map fun e => .ofAcl e.2
  | .error e => throw (.conflict e)

/-- What the catalog makes of the resource: the policies found take the place of the declared ones
where they differ. -/
def settle (database : String) (name owner : Value) (entries : List Value) (r : Resource) :
    Except Error Resource := do
  let found ← policyBeside owner entries
  let d ← PolicyDiff.of (← declaredBeside owner r) (found.map PolicyBlock.declaration)
  let r := if d.hasChanges then r.put "policy" (.list (found.map PolicyBlock.toValue)) else r
  let r := r.put "name" name
  let r := r.put "owner" owner
  let r := r.put "database" (.text database)
  return r.setId (idOf database name.plain)

end DeclaredAccess.Schema
