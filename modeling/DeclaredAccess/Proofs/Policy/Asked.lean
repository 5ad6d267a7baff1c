import DeclaredAccess.Proofs.Policy.Transition
import DeclaredAccess.Proofs.Session.Inversion
import DeclaredAccess.Session.Policy
import Mathlib.Data.List.Nodup

/-! A plan that is made by asking the catalog. Each dropped role is asked about once, so what the
catalog said of the roles can be read off the exchanges as a table. The plan is the one that is made
by who knows this table. -/

namespace DeclaredAccess

open Sql
open DeclaredAccess.Task (Goes goes_askOne_ok goes_bind goes_bind_ok goes_execute_ofExcept goes_pure)

variable {σ α β : Type} {s s' : Standing σ} {t u : List Exchange}

namespace Exchange

/-- The role that is asked about. -/
def roleAsked : Exchange → Option String
  | ⟨.execute (.query (.roleExists role)), _⟩ => some role
  | _ => none

/-- Whether the role is said to exist. -/
def findsRole (role : String) : Exchange → Bool
  | ⟨.execute (.query (.roleExists r)), .ok rows⟩ => match Catalog.firstCell rows with
    | .ok v => r == role && v.truthy
    | .error _ => false
  | _ => false

theorem roleAsked_of_findsRole {y : Exchange} {role : String} (h : y.findsRole role = true) :
    y.roleAsked = some role := by
  unfold findsRole at h
  split at h
  · split at h
    · rw [Bool.and_eq_true, beq_iff_eq] at h
      exact congrArg some h.1
    · cases h
  · cases h

end Exchange

/-- The roles that are asked about. -/
def rolesAsked (t : List Exchange) : List String := t.filterMap Exchange.roleAsked

/-- Whether a role is said to exist. -/
def told (t : List Exchange) (role : String) : Bool := t.any (Exchange.findsRole role)

theorem rolesAsked_append (t u : List Exchange) :
    rolesAsked (t ++ u) = rolesAsked t ++ rolesAsked u :=
  List.filterMap_append

theorem told_append (t u : List Exchange) (role : String) :
    told (t ++ u) role = (told t role || told u role) :=
  List.any_append

theorem told_of_not_asked {role : String} (h : role ∉ rolesAsked t) : told t role = false := by
  refine List.any_eq_false.mpr fun y hy hf => h ?_
  exact List.mem_filterMap.mpr ⟨y, hy, Exchange.roleAsked_of_findsRole hf⟩

/-- The answers about roles are those of a table. -/
def Confirms (there : String → Bool) (t : List Exchange) : Prop :=
  ∀ role rows v, ⟨.execute (.query (.roleExists role)), .ok rows⟩ ∈ t →
    Catalog.firstCell rows = .ok v → there role = v.truthy

theorem Confirms.left {there : String → Bool} (h : Confirms there (t ++ u)) : Confirms there t :=
  fun role rows v hy => h role rows v (List.mem_append_left u hy)

theorem Confirms.right {there : String → Bool} (h : Confirms there (t ++ u)) : Confirms there u :=
  fun role rows v hy => h role rows v (List.mem_append_right t hy)

/-- Where no role is asked about twice, there is such a table. -/
theorem confirms_told (h : (rolesAsked t).Nodup) : Confirms (told t) t := by
  intro role rows v hy hv
  obtain ⟨u, w, rfl⟩ := List.append_of_mem hy
  rw [rolesAsked_append] at h
  have apart : role ∉ rolesAsked u ∧ role ∉ rolesAsked w := by
    obtain ⟨_, hw, hne⟩ := List.nodup_append.mp h
    exact ⟨fun hu => hne role hu role List.mem_cons_self rfl, (List.nodup_cons.mp hw).1⟩
  rw [told_append, told_of_not_asked apart.1, Bool.false_or]
  change (Exchange.findsRole role _ || told w role) = _
  rw [told_of_not_asked apart.2, Bool.or_false]
  simp [Exchange.findsRole, hv]

theorem asks_roleExists {role : String} {r : Except Failure Bool}
    (h : Goes (do return (← Catalog.roleExists role).truthy) s t r s') :
    (rolesAsked t).Sublist [role] := by
  have asked {o : Except Failure Value} {t : List Exchange} {s₁ : Standing σ}
      (h : Goes (Catalog.roleExists role) s t o s₁) : (rolesAsked t).Sublist [role] := by
    obtain ⟨_, ⟨_, rfl, _⟩ | ⟨a, rfl, _⟩⟩ := goes_execute_ofExcept h
    · exact List.nil_sublist _
    · exact List.Sublist.refl _
  rcases goes_bind.mp h with ⟨t₁, t₂, v, s₁, rfl, h₁, h₂⟩ | ⟨e, h₁, _⟩
  · rw [(goes_pure.mp h₂).1, List.append_nil]
    exact asked h₁
  · exact asked h₁

/-- `Knows x roles y`: the plan `x` asks at most about these roles, about each of them once, and is
made as `y` is with a table of the answers. -/
structure Knows (x : ExceptT Conflict (Task σ) α) (roles : List String)
    (y : (String → Bool) → ExceptT Conflict Id α) : Prop where
  asks : ∀ (s : Standing σ) (t : List Exchange) (o : Except Failure (Except Conflict α))
    (s' : Standing σ), Goes x.run s t o s' → (rolesAsked t).Sublist roles
  made : ∀ (s : Standing σ) (t : List Exchange) (v : Except Conflict α) (s' : Standing σ),
    Goes x.run s t (.ok v) s' → ∀ there, Confirms there t → v = (y there).run

namespace Knows

variable {roles roles' : List String}

theorem pure (v : α) :
    Knows (pure v : ExceptT Conflict (Task σ) α) [] fun _ => (pure v : ExceptT Conflict Id α) where
  asks s t o s' hg := by
    rw [(goes_pure.mp hg).1]
    exact List.nil_sublist _
  made s t w s' hg there _ := by
    cases (goes_pure.mp hg).2.1
    rfl

theorem ofExcept (x : Except Conflict α) :
    Knows (liftM x : ExceptT Conflict (Task σ) α) [] fun _ => (liftM x : ExceptT Conflict Id α) where
  asks s t o s' hg := by
    cases x with
    | ok v =>
      rw [(goes_pure.mp hg).1]
      exact List.nil_sublist _
    | error e =>
      rw [(goes_pure.mp hg).1]
      exact List.nil_sublist _
  made s t w s' hg there _ := by
    cases x with
    | ok v => cases (goes_pure.mp hg).2.1; rfl
    | error e => cases (goes_pure.mp hg).2.1; rfl

theorem bind {x : ExceptT Conflict (Task σ) α} {f : α → ExceptT Conflict (Task σ) β}
    {y : (String → Bool) → ExceptT Conflict Id α}
    {g : (String → Bool) → α → ExceptT Conflict Id β} (hx : Knows x roles y)
    (hf : ∀ v, Knows (f v) roles' fun there => g there v) :
    Knows (x >>= f) (roles ++ roles') fun there => y there >>= g there where
  asks s t o s' hg := by
    rcases goes_bind.mp hg with ⟨t₁, t₂, v, s₁, rfl, h₁, h₂⟩ | ⟨e, h₁, _⟩
    · rw [rolesAsked_append]
      refine (hx.asks _ _ _ _ h₁).append ?_
      cases v with
      | ok v => exact (hf v).asks _ _ _ _ h₂
      | error e =>
        rw [(goes_pure.mp h₂).1]
        exact List.nil_sublist _
    · exact (hx.asks _ _ _ _ h₁).trans (List.sublist_append_left roles roles')
  made s t w s' hg there ht := by
    rcases goes_bind.mp hg with ⟨t₁, t₂, v, s₁, rfl, h₁, h₂⟩ | ⟨e, _, he⟩
    · have hy : v = (y there).run := hx.made _ _ _ _ h₁ there ht.left
      change w = ExceptT.bindCont (g there) (y there).run
      rw [← hy]
      cases v with
      | ok v => exact (hf v).made _ _ _ _ h₂ there ht.right
      | error e => cases (goes_pure.mp h₂).2.1; rfl
    · cases he

theorem mono {x : ExceptT Conflict (Task σ) α} {y : (String → Bool) → ExceptT Conflict Id α}
    (h : Knows x roles y) (hr : roles.Sublist roles') : Knows x roles' y where
  asks s t o s' hg := (h.asks s t o s' hg).trans hr
  made := h.made

theorem mapM {f : α → ExceptT Conflict (Task σ) β} {r : α → List String}
    {g : (String → Bool) → α → ExceptT Conflict Id β}
    (hf : ∀ v, Knows (f v) (r v) fun there => g there v) (l : List α) :
    Knows (l.mapM f) (l.flatMap r) fun there => l.mapM (g there) := by
  induction l with
  | nil => exact .pure []
  | cons v l ih =>
    simp only [List.mapM_cons, List.flatMap_cons]
    refine .bind (hf v) fun w => ?_
    rw [← List.append_nil (l.flatMap r)]
    exact .bind ih fun ws => .pure (w :: ws)

theorem roleExists (role : String) :
    Knows (liftM (do return (← Catalog.roleExists role).truthy : Task σ Bool) :
      ExceptT Conflict (Task σ) Bool) [role] fun there =>
        (liftM (Pure.pure (there role) : Id Bool) : ExceptT Conflict Id Bool) where
  asks s t o s' hg := by
    rcases goes_bind.mp hg with ⟨t₁, t₂, b, s₁, rfl, h₁, h₂⟩ | ⟨e, h₁, _⟩
    · rw [(goes_pure.mp h₂).1, List.append_nil]
      exact asks_roleExists h₁
    · exact asks_roleExists h₁
  made s t w s' hg there ht := by
    rcases goes_bind.mp hg with ⟨t₁, t₂, b, s₁, rfl, h₁, h₂⟩ | ⟨e, _, he⟩
    · cases (goes_pure.mp h₂).2.1
      obtain ⟨u₁, u₂, v, s₂, rfl, h₃, h₄⟩ := goes_bind_ok.mp h₁
      obtain ⟨rfl, hb, rfl⟩ := goes_pure.mp h₄
      cases hb
      obtain ⟨_, rows, rfl, hv⟩ := goes_askOne_ok h₃
      exact congrArg Except.ok (ht role rows v (by simp) hv).symm
    · cases he

end Knows

namespace PolicyDiff

open Declaration

variable {target : Target} {diff : PolicyDiff} {old new : Keyed Declaration}

/-- The word of the catalog on whether a role exists. -/
def word (role : String) : Task σ Bool := do return (← Catalog.roleExists role).truthy

theorem knows_lower (target : Target) (d : Declaration) : Knows
    (do return (← d.toAcl).revokes target : ExceptT Conflict (Task σ) (List Change)) [] fun _ =>
      (do return (← d.toAcl).revokes target : ExceptT Conflict Id (List Change)) :=
  .bind (.ofExcept _) fun _ => .pure _

theorem knows_raise (target : Target) (d : Declaration) : Knows
    (do Acl.grants target (← d.toAcl) : ExceptT Conflict (Task σ) (List Change)) [] fun _ =>
      (do Acl.grants target (← d.toAcl) : ExceptT Conflict Id (List Change)) :=
  .bind (.ofExcept _) fun _ => .ofExcept _

theorem knows_dropRole (target : Target) (d : Declaration) :
    Knows (dropRole target (word (σ := σ)) d) [d.role] fun there =>
      dropRole target (fun role => pure (there role)) d := by
  by_cases he : d.role.isEmpty = true
  · simp only [dropRole, he, if_true]
    exact (knows_lower target d).mono (List.nil_sublist _)
  · simp only [dropRole, he, Bool.false_eq_true, if_false]
    refine .bind (.roleExists d.role) fun found => ?_
    cases found with
    | true => exact knows_lower target d
    | false => exact .pure []

theorem knows_plan (diff : PolicyDiff) (target : Target) :
    Knows (diff.plan target (word (σ := σ))) (diff.dropped.sorted.map (·.2.role)) fun there =>
      diff.plan target fun role => pure (there role) := by
  have dropped := Knows.mapM fun e : String × Declaration =>
    knows_dropRole (σ := σ) target e.2
  have lowered := Knows.mapM fun e : String × Declaration × Declaration =>
    knows_lower (σ := σ) target e.2.1
  have added := Knows.mapM fun e : String × Declaration =>
    knows_raise (σ := σ) target e.2
  have raised := Knows.mapM fun e : String × Declaration × Declaration =>
    knows_raise (σ := σ) target e.2.2
  -- only the first of the four groups asks
  have none {γ : Type} (l : List γ) : l.flatMap (fun _ => ([] : List String)) = [] :=
    List.flatMap_eq_nil_iff.mpr fun _ _ => rfl
  have roles : diff.dropped.sorted.map (·.2.role) =
      diff.dropped.sorted.flatMap (fun e => [e.2.role]) ++
        (diff.updated.sorted.flatMap (fun _ => []) ++ (diff.added.sorted.flatMap (fun _ => []) ++
          (diff.updated.sorted.flatMap (fun _ => []) ++ []))) := by
    simp only [none, List.map_eq_flatMap, List.append_nil]
  rw [roles]
  exact .bind (dropped _) fun _ => .bind (lowered _) fun _ => .bind (added _) fun _ =>
    .bind (raised _) fun _ => .pure _

/-- The statements that apply a difference, for who knows which roles exist. -/
def changes (diff : PolicyDiff) (target : Target) (there : String → Bool) : List Change :=
  (diff.lowered there).flatMap (lowering target) ++ diff.raised.flatMap (raising target)

theorem nodup_dropped {P : Declaration → Prop} (ho : old.Indexed key P) :
    ((between old new).dropped.sorted.map (·.2.role)).Nodup := by
  have roles : (old.map (·.2.role)).Nodup := by
    refine List.Nodup.of_map Role.key ?_
    rw [List.map_map]
    refine (List.map_congr_left fun e he => ?_ : _ = old.map Prod.fst) ▸ ho.nodup
    exact (ho.entry e he).1
  have dropped : ((between old new).dropped.map (·.2.role)).Nodup :=
    roles.sublist (List.filter_sublist.map _)
  exact ((Keyed.sorted_perm _).map _).nodup_iff.mpr dropped

/-- The plan that is made by asking, by what was said. -/
theorem goes_plan {P : Declaration → Prop} (hf : (between old new).Fits target.kind)
    (ho : old.Indexed key P) {v : Except Conflict (List Change)}
    (h : Goes ((between old new).plan target word).run s t (.ok v) s') :
    v = .ok ((between old new).changes target (told t)) := by
  have knows := knows_plan (σ := σ) (between old new) target
  have once : (rolesAsked t).Nodup := (nodup_dropped ho).sublist (knows.asks _ _ _ _ h)
  rw [knows.made _ _ _ _ h (told t) (confirms_told once), plan_eq hf]
  rfl

theorem mem_changes {there : String → Bool} {place : Target} {role : String} :
    .revokeAll place role ∈ diff.changes target there ↔
      place = target ∧ ∃ d ∈ diff.lowered there, d.role = role ∧ d.privileges.isEmpty = false := by
  unfold changes
  rw [List.mem_append, List.mem_flatMap, List.mem_flatMap]
  constructor
  · rintro (⟨d, hd, h⟩ | ⟨d, _, h⟩)
    · cases mem_lowering h
      refine ⟨rfl, d, hd, rfl, Bool.eq_false_iff.mpr fun he => ?_⟩
      rw [lowering, if_pos he] at h
      cases h
    · obtain ⟨_, _, he⟩ := mem_raising h
      cases he
  · rintro ⟨rfl, d, hd, rfl, hp⟩
    exact .inl ⟨d, hd, by simp [lowering, hp]⟩

end PolicyDiff

end DeclaredAccess
