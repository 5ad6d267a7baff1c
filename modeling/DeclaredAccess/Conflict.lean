import DeclaredAccess.ObjectKind
import DeclaredAccess.Role
import DeclaredAccess.Text.Quoted

/-! Two values that have to agree and do not. -/

namespace DeclaredAccess

inductive Conflict
  /-- A grant option for privileges that are not held themselves. -/
  | looseOption (role : String) (loose : PrivilegeSet)
  /-- Holdings of two roles are merged. -/
  | holders (role other : String)
  /-- Declarations for two roles are merged. -/
  | declared (role other : String)
  /-- One role is declared twice, with two lists of objects. -/
  | objects (role : String) (first second : List String)
  /-- Privileges that the target's kind does not have. -/
  | notGrantable (privileges : PrivilegeSet) (target : Target)

namespace Conflict

/-- Names in quotes between brackets. -/
def quotedNames (names : List String) : String :=
  "[" ++ ", ".intercalate (names.map Text.quoted) ++ "]"

def message : Conflict → String
  | looseOption role loose =>
    "Role " ++ Role.label role ++ " cannot hold grant option for " ++
      ", ".intercalate loose.keywords ++ " without the privilege itself"
  | holders role other =>
    "Cannot merge privileges of role " ++ Role.label other ++ " into role " ++ Role.label role
  | declared role other =>
    "Cannot merge policy of role " ++ Role.label other ++ " into role " ++ Role.label role
  | objects role first second =>
    "Role " ++ Role.label role ++ " is declared twice with different objects: " ++
      quotedNames first ++ " and " ++ quotedNames second
  | notGrantable privileges target =>
    "Privileges " ++ ", ".intercalate privileges.keywords ++ " cannot be granted on " ++
      target.describe

end Conflict

end DeclaredAccess
