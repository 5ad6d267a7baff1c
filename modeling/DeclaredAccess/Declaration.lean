import DeclaredAccess.Acl

/-! What a role shall hold on a target. -/

namespace DeclaredAccess

/-- A role's declared privileges, with those that it shall be able to grant on; a list of objects
restricts the declaration to them. -/
structure Declaration where
  role : String := ""
  privileges : PrivilegeSet := ∅
  grantOptions : PrivilegeSet := ∅
  objects : List String := []
  deriving DecidableEq

namespace Declaration

def key (d : Declaration) : String := Role.key d.role

/-- The declaration as something that can be held. -/
def toAcl (d : Declaration) : Except Conflict Acl := Acl.make d.role d.privileges d.grantOptions

/-- The union of two declarations for one role, as when it is declared in two places. -/
def merge (a b : Declaration) : Except Conflict Declaration :=
  if a.key ≠ b.key then .error (.declared a.role b.role)
  else if a.objects ≠ b.objects then .error (.objects a.role a.objects b.objects)
  else .ok ⟨a.role, a.privileges ∪ b.privileges, a.grantOptions ∪ b.grantOptions, a.objects⟩

/-- The declarations by role key. -/
def byRole (ds : List Declaration) : Except Conflict (Keyed Declaration) :=
  Keyed.gather key merge ds

theorem merge_eq_ok_iff {a b : Declaration} :
    (∃ c, merge a b = .ok c) ↔ a.key = b.key ∧ a.objects = b.objects := by
  unfold merge
  split
  · simp_all
  · split <;> simp_all

theorem key_merge {a b c : Declaration} (h : merge a b = .ok c) : c.key = a.key := by
  unfold merge at h
  split at h
  · cases h
  · split at h <;> cases h
    rfl

end Declaration

end DeclaredAccess
