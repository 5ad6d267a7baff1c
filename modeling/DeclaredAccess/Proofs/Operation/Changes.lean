import DeclaredAccess.Operation
import DeclaredAccess.Proofs.Policy.Planwise
import DeclaredAccess.Proofs.Session.Course

/-! What the operations change. The operations on memberships grant and revoke memberships, which
are what their resources declare; all others change anything but memberships, and act on what other
roles own as members of those. -/

namespace DeclaredAccess

open Sql

/-- Whether a change grants or revokes a membership. -/
def Sql.Change.isMembership : Change → Bool
  | grantMembership .. | revokeMembership .. => true
  | _ => false

def SparesMemberships (cs : List Change) : Prop := ∀ c ∈ cs, c.isMembership = false

/-- What a block may do that changes memberships as declared. -/
def Allowance.enrolling : Allowance := ⟨fun c => c.isMembership = true, False, False, False⟩

/-- What a block may do that changes anything else. -/
def Allowance.managing : Allowance := ⟨fun c => c.isMembership = false, True, True, False⟩

/-- What a block may do that changes anything else, on no connection but its own. -/
def Allowance.confined : Allowance := ⟨fun c => c.isMembership = false, True, False, False⟩

theorem Allowance.not_records_enrolling : ¬enrolling.records := fun h => h

theorem Allowance.not_records_managing : ¬managing.records := fun h => h

theorem Allowance.not_records_confined : ¬confined.records := fun h => h

theorem Acl.sparesMemberships_revokes (target : Target) (acl : Acl) :
    SparesMemberships (acl.revokes target) := by
  intro c hc
  rw [acl.mem_revokes hc]
  rfl

theorem Acl.sparesMemberships_grants {target : Target} {acl : Acl} {cs : List Change}
    (h : acl.grants target = .ok cs) : SparesMemberships cs := by
  intro c hc
  obtain ⟨_, _, rfl⟩ := Acl.mem_grants h hc
  rfl

namespace Task

variable {σ α β : Type}

theorem Block.managing {x : Task σ α} (h : Block .confined x) : Block .managing x :=
  h.weaken (fun _ h => h) id False.elim id

theorem Block.ofExceptOf {a : Allowance} {x : Except Conflict α} {f : α → Task σ β}
    (hf : ∀ v, x = .ok v → Block a (f v)) : Block a (Task.ofConflict x >>= f) := by
  refine .bindOf (.ofConflict x) fun v hv => ?_
  obtain ⟨s, t, s', h⟩ := hv
  cases x with
  | ok w => obtain ⟨_, hw, _⟩ := goes_pure.mp h; cases hw; exact hf _ rfl
  | error e => obtain ⟨_, hw, _⟩ := goes_fail.mp h; cases hw

/-! ## Plans -/

/-- A plan is made by asking alone, and all that it holds satisfies `p`. -/
def Plans (p : α → Prop) (x : ExceptT Conflict (Task σ) α) : Prop :=
  Block .asking x.run ∧ ∀ v, Returns x.run (.ok v) → p v

namespace Plans

variable {p : α → Prop} {q : β → Prop}

theorem pure {v : α} (h : p v) : Plans p (pure v : ExceptT Conflict (Task σ) α) := by
  refine ⟨.pure _, fun w ⟨s, t, s', hw⟩ => ?_⟩
  obtain ⟨_, he, _⟩ := goes_pure.mp hw
  cases he
  exact h

theorem ofExcept {x : Except Conflict α} (h : ∀ v, x = .ok v → p v) :
    Plans p (liftM x : ExceptT Conflict (Task σ) α) := by
  cases x with
  | ok v => exact .pure (h v rfl)
  | error e =>
    refine ⟨.pure _, fun w ⟨s, t, s', hw⟩ => ?_⟩
    obtain ⟨_, he, _⟩ := goes_pure.mp hw
    cases he

theorem lift {x : Task σ α} (h : Block .asking x) :
    Plans (fun _ => True) (liftM x : ExceptT Conflict (Task σ) α) :=
  ⟨.bind h fun _ => .pure _, fun _ _ => trivial⟩

theorem bind {x : ExceptT Conflict (Task σ) α} {f : α → ExceptT Conflict (Task σ) β}
    (hx : Plans p x) (hf : ∀ v, p v → Plans q (f v)) : Plans q (x >>= f) := by
  constructor
  · refine .bindOf hx.1 fun o ho => ?_
    cases o with
    | ok v => exact (hf v (hx.2 v ho)).1
    | error e => exact .pure _
  · intro w ⟨s, t, s', hw⟩
    rcases goes_bind.mp hw with ⟨t₁, t₂, o, s₁, _, h₁, h₂⟩ | ⟨f, _, he⟩
    · cases o with
      | ok v => exact (hf v (hx.2 v ⟨_, _, _, h₁⟩)).2 w ⟨_, _, _, h₂⟩
      | error e => obtain ⟨_, he, _⟩ := goes_pure.mp h₂; cases he
    · cases he

theorem planwise : Planwise fun {α} (x : ExceptT Conflict (Task σ) α) p => Plans p x where
  pure := pure
  bind := bind

end Plans

section

variable (target : Target)

theorem plans_toAcl (d : Declaration) :
    Plans (fun _ => True) (liftM d.toAcl : ExceptT Conflict (Task σ) Acl) :=
  .ofExcept fun _ _ => trivial

theorem plans_revokes (d : Declaration) : Plans SparesMemberships
    (do return (← d.toAcl).revokes target : ExceptT Conflict (Task σ) (List Change)) :=
  (plans_toAcl d).bind fun a _ => .pure (a.sparesMemberships_revokes target)

theorem plans_grants (d : Declaration) : Plans SparesMemberships
    (do Acl.grants target (← d.toAcl) : ExceptT Conflict (Task σ) (List Change)) :=
  (plans_toAcl d).bind fun _ _ => .ofExcept fun _ => Acl.sparesMemberships_grants

/-- A plan holds no change of a membership. -/
theorem plans_plan (d : PolicyDiff) (roleExists : String → Task σ Bool)
    (hr : ∀ role, Block .asking (roleExists role)) :
    Plans SparesMemberships (d.plan target roleExists) := by
  refine Plans.planwise.plan_forall (fun e _ => ?_) (fun e _ => plans_revokes target e.2.1)
    (fun e _ => plans_grants target e.2) fun e _ => plans_grants target e.2.2
  exact Plans.planwise.dropRole (.lift (hr e.2.role)) (fun _ => plans_revokes target e.2)
    fun _ _ _ hc => nomatch hc

end

end Task

end DeclaredAccess
