import DeclaredAccess.Declaration

/-! The roles of an old and a new list of declarations, parted by what happens to them. -/

namespace DeclaredAccess

/-- Each role key of two lists in one part: with its old declaration where only the old list has
it, its new one where only the new list has it, both where they differ, and the common one where
they are equal. -/
structure PolicyDiff where
  dropped : Keyed Declaration
  added : Keyed Declaration
  updated : Keyed (Declaration × Declaration)
  unchanged : Keyed Declaration

namespace PolicyDiff

/-- What becomes of lists in which every role key stands once. -/
def between (old new : Keyed Declaration) : PolicyDiff where
  dropped := old.filter fun e => !new.contains e.1
  added := new.filter fun e => !old.contains e.1
  updated := old.filterMap fun e => match new.get? e.1 with
    | some n => if n = e.2 then none else some (e.1, e.2, n)
    | none => none
  unchanged := old.filter fun e => new.get? e.1 == some e.2

/-- The difference of two lists of declarations; each is merged by role first. -/
def ofLists (old new : List Declaration) : Except Conflict PolicyDiff := do
  let old ← Declaration.byRole old
  let new ← Declaration.byRole new
  return between old new

def hasChanges (d : PolicyDiff) : Bool :=
  !(d.dropped.isEmpty && d.added.isEmpty && d.updated.isEmpty)

end PolicyDiff

end DeclaredAccess
