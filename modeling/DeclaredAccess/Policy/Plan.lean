import DeclaredAccess.Acl.Statements
import DeclaredAccess.Policy.Diff

/-! The statements that move a target from an old policy to a new one. All revokes come first, for
dropped roles and then for the old side of updated ones; the grants follow, for added roles and
then for the new side of updated ones. In each group roles are taken in the order of their keys. -/

namespace DeclaredAccess.PolicyDiff

open Sql

variable {m : Type → Type} [Monad m]

/-- The revokes for one dropped role. A role that is gone has nothing left to revoke; `PUBLIC` is
never gone, so nobody is asked about it. -/
def dropRole (target : Target) (roleExists : String → m Bool) (d : Declaration) :
    ExceptT Conflict m (List Change) := do
  if d.role.isEmpty then
    return (← d.toAcl).revokes target
  else if ← roleExists d.role then
    return (← d.toAcl).revokes target
  else
    return []

/-- The plan, asking `roleExists` about each dropped role. -/
def plan (diff : PolicyDiff) (target : Target) (roleExists : String → m Bool) :
    ExceptT Conflict m (List Change) := do
  let dropped ← diff.dropped.sorted.mapM fun e => dropRole target roleExists e.2
  let lowered ← diff.updated.sorted.mapM fun e => return (← e.2.1.toAcl).revokes target
  let added ← diff.added.sorted.mapM fun e => do Acl.grants target (← e.2.toAcl)
  let raised ← diff.updated.sorted.mapM fun e => do Acl.grants target (← e.2.2.toAcl)
  return dropped.flatten ++ lowered.flatten ++ added.flatten ++ raised.flatten

end DeclaredAccess.PolicyDiff
