import DeclaredAccess.Extension.Reconcile
import DeclaredAccess.Grant.Reconcile
import DeclaredAccess.Membership.Reconcile
import DeclaredAccess.Schema.Reconcile

/-! The operations on resources: each kind can be created, read, updated and deleted, and of some
it can be asked whether they exist. -/

namespace DeclaredAccess

inductive Operation
  | createGrant | readGrant | updateGrant | deleteGrant
  | createSchema | readSchema | updateSchema | deleteSchema | schemaExists
  | createMembership | readMembership | updateMembership | deleteMembership
  | createExtension | readExtension | updateExtension | deleteExtension | extensionExists
  deriving DecidableEq, Repr

namespace Operation

/-- How the operation holds the catalog lock: those that change the catalog hold it alone. -/
def mode : Operation → LockMode
  | readGrant | readSchema | schemaExists | readMembership | readExtension | extensionExists => .read
  | createGrant | updateGrant | deleteGrant | createSchema | updateSchema | deleteSchema
  | createMembership | updateMembership | deleteMembership
  | createExtension | updateExtension | deleteExtension => .write

/-- Runs the operation on the resource that the task works on. Only questions have an answer. -/
def run (c : Client) : Operation → Task Resource Value
  | createGrant | updateGrant => quiet (Grant.create c)
  | readGrant => quiet (Grant.read c)
  | deleteGrant => quiet (Grant.delete c)
  | createSchema => quiet (Schema.create c)
  | readSchema => quiet (Schema.read c)
  | updateSchema => quiet (Schema.update c)
  | deleteSchema => quiet (Schema.delete c)
  | schemaExists => Schema.exists c
  | createMembership => quiet (Membership.create c)
  | readMembership => quiet (Membership.read c)
  | updateMembership => quiet (Membership.update c)
  | deleteMembership => quiet (Membership.delete c)
  | createExtension => quiet (Extension.create c)
  | readExtension => quiet (Extension.read c)
  | updateExtension => quiet (Extension.update c)
  | deleteExtension => quiet (Extension.delete c)
  | extensionExists => return .bool (← Extension.exists c)
where
  quiet (t : Task Resource Unit) : Task Resource Value := do
    t
    return .null

end Operation

end DeclaredAccess
