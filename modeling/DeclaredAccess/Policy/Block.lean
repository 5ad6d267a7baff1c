import DeclaredAccess.Declaration
import DeclaredAccess.Error

/-! The declared form of a policy on a schema: a role and four flags, which say whether it may
create objects in the schema or use it, without or with the option to grant that on. -/

namespace DeclaredAccess

/-- The flags of a role's policy on a schema. -/
structure PolicyBlock where
  role : String
  create : Bool
  createWithGrant : Bool
  usage : Bool
  usageWithGrant : Bool
  deriving DecidableEq

namespace PolicyBlock

/-- The block as the value of a field. -/
def toValue (b : PolicyBlock) : Value := .object [("role", .text b.role), ("create", .bool b.create),
  ("create_with_grant", .bool b.createWithGrant), ("usage", .bool b.usage),
  ("usage_with_grant", .bool b.usageWithGrant)]

/-- The block that a value denotes. A flag and the same flag with grant option exclude each other,
and a block without a role is one for `PUBLIC`. -/
def ofValue (v : Value) : Except Error PolicyBlock := match v with
  | .object fields =>
    let flag (key : String) : Bool := (Fields.value fields key).truthy
    if flag "create" && flag "create_with_grant" then
      .error (.config (.policyOverlap "create" "create_with_grant"))
    else if flag "usage" && flag "usage_with_grant" then
      .error (.config (.policyOverlap "usage" "usage_with_grant"))
    else
      let block (role : String) : PolicyBlock :=
        ⟨role, flag "create", flag "create_with_grant", flag "usage", flag "usage_with_grant"⟩
      match Fields.value fields "role" with
      | .text role => .ok (block role)
      | role => if role.truthy then .error (.config (.policyRole role)) else .ok (block "")
  | v => .error (.shape (.notAnObject v))

/-- What the block declares. -/
def declaration (b : PolicyBlock) : Declaration where
  role := b.role
  privileges := .ofList ((if b.create || b.createWithGrant then [.create] else []) ++
    if b.usage || b.usageWithGrant then [.usage] else [])
  grantOptions := .ofList ((if b.createWithGrant then [.create] else []) ++
    if b.usageWithGrant then [.usage] else [])

/-- The block for what a role holds on a schema. -/
def ofAcl (a : Acl) : PolicyBlock where
  role := a.role
  create := a.privileges.has .create && !a.grantOptions.has .create
  createWithGrant := a.grantOptions.has .create
  usage := a.privileges.has .usage && !a.grantOptions.has .usage
  usageWithGrant := a.grantOptions.has .usage

end PolicyBlock

namespace Declaration

/-- The declaration that a policy block makes. -/
def ofBlock (v : Value) : Except Error Declaration := (PolicyBlock.ofValue v).map (·.declaration)

/-- The declarations of a list of policy blocks. -/
def ofBlocks (v : Value) : Except Error (List Declaration) := match v.items? with
  | none => .error (.shape (.notAList v))
  | some items => items.mapM ofBlock

end Declaration

end DeclaredAccess
