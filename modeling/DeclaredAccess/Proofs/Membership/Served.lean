import DeclaredAccess.Proofs.Catalog.Directory
import DeclaredAccess.Proofs.Grant.Applied
import DeclaredAccess.Membership.Reconcile

/-! What is done about the members of a role against a server with group roles. The names that are
sent are a set in order, whatever list they come from, so each list has one rule. -/

namespace DeclaredAccess

open Sql (Change)

/-! ## Names in order, each once -/

theorem toFinset_eraseDups (names : List String) : names.eraseDups.toFinset = names.toFinset := by
  ext n
  simp

theorem sortNames_eq_inOrder {names : List String} (h : names.Nodup) :
    sortNames names = inOrder names.toFinset := by
  have same : (sortNames names).toFinset = names.toFinset := by
    ext n
    simp [mem_sortNames]
  have once : (sortNames names).Nodup := (List.mergeSort_perm names _).nodup_iff.mpr h
  rw [← same]
  exact ((List.toFinset_sort _ once).mpr (pairwise_sortNames names)).symm

theorem sortedSet_eq_inOrder (names : List String) : sortedSet names = inOrder names.toFinset := by
  rw [sortedSet, sortNames_eq_inOrder (nodup_eraseDups names), toFinset_eraseDups]

namespace Membership

variable {c : Client} {role : String}

theorem sortNames_without (names others : List String) :
    sortNames (without names others) = inOrder (names.toFinset \ others.toFinset) := by
  have left : (names.filter fun n => !others.contains n).toFinset =
      names.toFinset \ others.toFinset := by
    ext n
    simp
  rw [without, sortNames_eq_inOrder (nodup_eraseDups _), toFinset_eraseDups, left]

/-- A set of members that is given as names. -/
theorem memberSet_texts (names : List String) :
    memberSet (.list (names.map .text)) = .ok (names.eraseDups.map .text) := by
  unfold memberSet
  cases names with
  | nil => rfl
  | cons n names => exact Value.distinct_texts (n :: names)

theorem memberNames_texts (names : List String) :
    memberNames (names.map .text) = .ok names := by
  have read : (names.map Value.text).mapM Catalog.name = .ok (names.map id) :=
    mapM_map_ok fun _ _ => rfl
  rwa [List.map_id] at read

/-- The changes that take a role from members. -/
def revokes (role : String) (names : Finset String) : List Change :=
  (inOrder names).map (.revokeMembership [role])

/-- The changes that give a role to members. -/
def grants (role : String) (names : Finset String) : List Change :=
  (inOrder names).map (.grantMembership [role])

/-- The changes that turn the old members of a role into the new ones. -/
def replacing (role : String) (old new : Finset String) : List Change :=
  revokes role (old \ new) ++ grants role (new \ old)

/-- A resource once it has taken over the members of a role. -/
def takenOver (role : String) (members : Finset String) (r : Resource) : Resource :=
  (r.put "role" (.text role)).put "members" (.list ((inOrder members).map .text))

/-! ## Tasks -/

variable {σ : Type} {directory : Directory} {k : Register}

section

variable {s : Standing σ} {Q : Unit → Standing σ → Register → Prop}

theorem leads_addMembers {members : List String}
    (h : Q () s (k.makeAll ((sortNames members).map (.grantMembership [role])))) :
    directory.server.Leads (addMembers role members) s k Q :=
  Directory.leads_changes (fun _ => rfl) h

theorem leads_removeMembers {members : List String}
    (h : Q () s (k.makeAll ((sortNames members).map (.revokeMembership [role])))) :
    directory.server.Leads (removeMembers role members) s k Q :=
  Directory.leads_changes (fun _ => rfl) h

/-- Those who are in one set only are the ones that a change is sent for. -/
theorem leads_replaceMembers {old new : List String}
    (h : Q () s (k.makeAll (replacing role old.toFinset new.toFinset))) :
    directory.server.Leads (replaceMembers role (old.map .text) (new.map .text)) s k Q := by
  rw [replacing, Register.makeAll_append, revokes, grants, ← sortNames_without, ← sortNames_without] at h
  refine .bind (.ofExcept (memberNames_texts old) (.bind (.ofExcept (memberNames_texts new) ?_)))
  exact .bind (leads_removeMembers (leads_addMembers h))

end

/-- Members are taken over from what is kept, in a transaction that changes nothing. Where the role is
gone the identifier is cleared. -/
structure TookOver (directory : Directory) (role : String) (r r' : Resource) (k k' : Register) :
    Prop where
  kept : k'.kept = k.kept
  log : k'.log = k.log ++ [.mark .begin]
  there : directory.roles role → r' = takenOver role (k.kept role) r
  gone : ¬directory.roles role → r' = r.setId ""

theorem leads_refresh {s : Standing Resource} (hw : '\x00' ∉ role.toList) :
    directory.server.Leads (refresh c role) s k fun _ s' k' =>
      TookOver directory role s.work s'.work k k' := by
  refine .bind (directory.willing.leads_transaction fun s₀ h₀ => ?_)
  refine .bind (Directory.leads_roleExists hw fun v hv => ?_)
  split
  · rename_i ht
    refine .bind (Directory.leads_roleMembers hw (.pure fun s₂ h₂ => .changeWork ?_))
    refine ⟨rfl, rfl, fun _ => ?_, fun hn => absurd (hv.mp ht) hn⟩
    rw [takenOver, ← h₀.1, ← h₂.1]
    rfl
  · rename_i hn
    refine .bind (.changeWork (.pure fun s₂ h₂ => .pure ?_))
    refine ⟨rfl, rfl, fun ht => absurd (hv.mpr ht) hn, fun _ => ?_⟩
    rw [h₂.1, ← h₀.1]

end Membership

end DeclaredAccess
