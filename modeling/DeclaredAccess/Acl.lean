import DeclaredAccess.Conflict
import DeclaredAccess.Keyed

/-! What one role holds on one object, as an access control list says it. -/

namespace DeclaredAccess

/-- The privileges of a role, those that it may grant on, and who granted them. A grant option
is held only together with its privilege. -/
structure Acl where
  role : String := ""
  privileges : PrivilegeSet := ∅
  grantOptions : PrivilegeSet := ∅
  grantor : String := ""
  covered : grantOptions ⊆ privileges := by exact fun _ h => h

namespace Acl

def key (a : Acl) : String := Role.key a.role

def make (role : String) (privileges grantOptions : PrivilegeSet) (grantor : String := "") :
    Except Conflict Acl :=
  if h : grantOptions ⊆ privileges then .ok ⟨role, privileges, grantOptions, grantor, h⟩
  else .error (.looseOption role (grantOptions \ privileges))

/-- The union of what one role holds by two entries; the first one's spelling and grantor stay. -/
def merge (a b : Acl) : Except Conflict Acl :=
  if a.key = b.key then
    .ok ⟨a.role, a.privileges ∪ b.privileges, a.grantOptions ∪ b.grantOptions, a.grantor,
      PrivilegeSet.union_subset_union a.covered b.covered⟩
  else .error (.holders a.role b.role)

/-- Whether the same role, spelt the same, holds the same: the grantor does not matter. -/
def agrees (a b : Acl) : Bool :=
  a.role == b.role && a.privileges == b.privileges && a.grantOptions == b.grantOptions

/-- The holdings by role key. -/
def byRole (acls : List Acl) : Except Conflict (Keyed Acl) := Keyed.gather key merge acls

theorem make_eq_ok_iff {role grantor : String} {privileges options : PrivilegeSet} {a : Acl} :
    make role privileges options grantor = .ok a ↔
      a.role = role ∧ a.privileges = privileges ∧ a.grantOptions = options ∧ a.grantor = grantor := by
  unfold make
  split
  · rename_i h
    obtain ⟨r, p, o, g, c⟩ := a
    simp only [Except.ok.injEq, Acl.mk.injEq]
    constructor <;> rintro ⟨rfl, rfl, rfl, rfl⟩ <;> exact ⟨rfl, rfl, rfl, rfl⟩
  · rename_i h
    refine ⟨fun e => by simp at e, ?_⟩
    intro h
    obtain ⟨_, rfl, rfl, _⟩ := h
    exact absurd a.covered h

theorem merge_eq_ok_iff {a b : Acl} : (∃ c, merge a b = .ok c) ↔ a.key = b.key := by
  unfold merge
  split <;> simp_all

theorem key_merge {a b c : Acl} (h : merge a b = .ok c) : c.key = a.key := by
  unfold merge at h
  split at h
  · cases h; rfl
  · cases h

end Acl

end DeclaredAccess
