import DeclaredAccess.Session.Catalog
import DeclaredAccess.Value.Order

/-! Membership in another role for the time of one block. A role that is no superuser can change
only what it owns; to act on what another role owns it is made a member of that role inside the
transaction, and the membership is taken back before the block returns. -/

namespace DeclaredAccess

variable {σ α : Type}

/-- Takes the membership back after a block that failed. The block's failure stays the outcome;
where taking back fails too, that is added to it as a note. -/
def Task.revokeAfter (failure : Failure) (revoke : Task σ Unit) : Task σ α := do
  match ← Task.attempt revoke with
  | .ok () => Task.settled (.error failure)
  | .error e =>
    if e.error.isFinding then
      let note := e.error.message?.getD ""
      Task.settled (.error { failure with notes := failure.notes ++ [note] })
    else Task.settled (.error e)

/-- Runs the block as a member of `role`. Nothing is granted where the role is empty or the actor
itself, where the actor has the role's privileges, or where it has a direct membership: granting
that again would change nothing, and taking it back would remove it. The block runs in a savepoint,
so that the membership can still be taken back when it fails. -/
def Task.elevated (role actor : Value) (block : Task σ α) : Task σ α := do
  if !role.truthy || role == actor then block
  else if (← Catalog.hasRole actor role).truthy then block
  else if (← Catalog.revocableMembership actor role).truthy then block
  else
    let group ← Catalog.name role
    let member ← Catalog.name actor
    Catalog.grantMemberships [group] member
      ("granting membership in role " ++ group ++ " to role " ++ member)
    let revoke := Catalog.revokeMemberships [group] member
      ("revoking membership in role " ++ group ++ " from role " ++ member)
    match ← Task.attempt (Task.savepoint block) with
    | .ok a =>
      revoke
      return a
    | .error failure => Task.revokeAfter failure revoke

/-- Runs the block as a member of each of the roles, entered in order and left in reverse. -/
def Task.elevatedAll (roles : List Value) (actor : Value) (block : Task σ α) : Task σ α := do
  let roles ← Value.inOrder (← Value.distinct (roles.filter Value.truthy))
  roles.foldr (fun r body => Task.elevated r actor body) block

/-- The roles whose membership is needed to change privileges in a schema: the owners of the
relations in it, and its own. -/
def Catalog.ownersIn (schema : String) : Task σ (List Value) := do
  let owners ← Value.distinct (← Catalog.relationOwners schema)
  match ← Catalog.schema schema with
  | some (owner, _) => Value.inOrder (← Value.distinct (owners ++ [owner]))
  | none => Value.inOrder owners

end DeclaredAccess
