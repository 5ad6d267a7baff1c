import DeclaredAccess.Policy.Plan
import DeclaredAccess.Session.Catalog

/-! Moving a target in the catalog from an old policy to a new one. -/

namespace DeclaredAccess

/-- The difference of two lists of declarations. -/
def PolicyDiff.of (old new : List Declaration) : Except Error PolicyDiff :=
  match ofLists old new with
  | .ok d => .ok d
  | .error e => .error (.conflict e)

/-- Plans all statements first, asking the catalog which dropped roles exist, and then sends them.
Tells how many there were. -/
def Catalog.movePolicy {σ : Type} (old new : List Declaration) (target : Target)
    (intent : String) : Task σ Nat := do
  let d ← PolicyDiff.of old new
  let plan : ExceptT Conflict (Task σ) (List Sql.Change) := d.plan target fun role => do
    return (← Catalog.roleExists role).truthy
  let changes ← Task.ofConflict (← plan.run)
  changes.forM fun c => Catalog.change c intent
  return changes.length

end DeclaredAccess
