import DeclaredAccess.Acl
import DeclaredAccess.Sql.Statement

/-! The statements that give a role what an access control list says, and those that take
everything from it. -/

namespace DeclaredAccess.Acl

open Sql

/-- The privileges of `a` that the target's kind does not have. -/
def misplaced (a : Acl) (target : Target) : PrivilegeSet := a.privileges \ target.kind.allowed

/-- One grant for the plain privileges and one for those with grant option, each only where there
is something to grant. -/
def grants (target : Target) (a : Acl) : Except Conflict (List Change) :=
  if (a.misplaced target).isEmpty then
    let plain := a.privileges \ a.grantOptions
    .ok ((if plain.isEmpty then [] else [.grant plain target a.role false]) ++
      if a.grantOptions.isEmpty then [] else [.grant a.grantOptions target a.role true])
  else .error (.notGrantable (a.misplaced target) target)

/-- One revoke of everything, since a grant option cannot be lowered on its own; nothing for a
role that holds nothing. -/
def revokes (target : Target) (a : Acl) : List Change :=
  if a.privileges.isEmpty then [] else [.revokeAll target a.role]

variable {target : Target} {a : Acl} {cs : List Change} {c : Change}

/-- Nothing but privileges on the target is granted, and to the role alone. -/
theorem mem_grants (h : a.grants target = .ok cs) (hc : c ∈ cs) :
    ∃ privileges option, c = .grant privileges target a.role option := by
  unfold grants at h
  split at h
  · cases h
    rcases List.mem_append.mp hc with hp | ho
    · split at hp
      · cases hp
      · exact ⟨_, _, List.mem_singleton.mp hp⟩
    · split at ho
      · cases ho
      · exact ⟨_, _, List.mem_singleton.mp ho⟩
  · cases h

theorem mem_revokes (hc : c ∈ a.revokes target) : c = .revokeAll target a.role := by
  unfold revokes at hc
  split at hc
  · cases hc
  · exact List.mem_singleton.mp hc

end DeclaredAccess.Acl
