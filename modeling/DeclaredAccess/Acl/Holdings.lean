import DeclaredAccess.Error

/-! What one role holds on each of several objects, as rows of the catalog tell it in any order. -/

namespace DeclaredAccess

/-- What a role holds by the object's name, each object once. A name is what the catalog answers,
which need not be a text. -/
abbrev Holdings := List (Value × Acl)

namespace Holdings

def names (h : Holdings) : List Value := h.map (·.1)

/-- The privilege that a row about an object tells, with whether it is held with grant option; a
row without one only says that the object exists. -/
def ofRow : List Value → Except Error (Value × Option (Privilege × Bool))
  | [object, privilege, grantable] =>
    if object.isCollection then .error (.shape (.notAMember object))
    else match privilege with
      | .null => .ok (object, none)
      | .text name => (Privilege.named name).map fun p => (object, some (p, grantable.truthy))
      | v => .error (.shape (.noLetters v))
  | _ => .error (.shape .rowWidth)

/-- What the rows say about each object, in the order in which the objects first came. -/
def ofRows (role : String) (rows : List (List Value)) : Except Error Holdings := do
  let held ← rows.mapM ofRow
  return (held.map (·.1)).eraseDups.map fun object =>
    (object, Acl.Entry.ofHoldings role ((held.filter (·.1 == object)).filterMap (·.2)) "")

end Holdings

end DeclaredAccess
