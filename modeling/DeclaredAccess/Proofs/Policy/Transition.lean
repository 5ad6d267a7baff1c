import DeclaredAccess.Policy.Plan
import DeclaredAccess.Proofs.Policy.Merge

/-! A plan moves a place of the catalog from what the old declarations give to what the new ones
give. The revokes leave nothing to a role whose declaration changes, since a grant option is never
declared without its privilege; so the grants build the new holding from nothing. A role in the
part of unchanged keys is named by no statement, in no spelling. -/

namespace DeclaredAccess

open Sql

namespace Declaration

variable {covers : Target → Bool} {target : Target} {held : String → Holding}

/-- The revoke that a declaration's role needs before it can hold less. -/
def lowering (target : Target) (d : Declaration) : List Change :=
  if d.privileges.isEmpty then [] else [.revokeAll target d.role]

/-- The grants that give a declaration's role what it declares. -/
def raising (target : Target) (d : Declaration) : List Change :=
  (if (d.privileges \ d.grantOptions).isEmpty then []
    else [.grant (d.privileges \ d.grantOptions) target d.role false]) ++
    if d.grantOptions.isEmpty then [] else [.grant d.grantOptions target d.role true]

/-- A declaration that fits becomes an access control list, and this one's statements are the
declaration's. -/
theorem exists_toAcl {d : Declaration} (h : d.Fits target.kind) :
    ∃ a, d.toAcl = .ok a ∧ a.revokes target = d.lowering target ∧
      a.grants target = .ok (d.raising target) := by
  have hmake : d.toAcl = .ok ⟨d.role, d.privileges, d.grantOptions, "", h.covered⟩ :=
    Acl.make_eq_ok_iff.mpr ⟨rfl, rfl, rfl, rfl⟩
  refine ⟨_, hmake, rfl, ?_⟩
  have hplaced : (Acl.misplaced ⟨d.role, d.privileges, d.grantOptions, "", h.covered⟩
      target).isEmpty = true := by
    refine PrivilegeSet.isEmpty_iff.mpr (PrivilegeSet.ext_mem fun p => ?_)
    have hp : p ∈ d.privileges → p ∈ target.kind.allowed := h.allowed p
    simpa [Acl.misplaced] using hp
  simp only [Acl.grants, hplaced, if_true]
  rfl

theorem mem_lowering {d : Declaration} {c : Change} (h : c ∈ d.lowering target) :
    c = .revokeAll target d.role := by
  unfold lowering at h
  split at h
  · cases h
  · exact List.mem_singleton.mp h

theorem mem_raising {d : Declaration} {c : Change} (h : c ∈ d.raising target) :
    ∃ privileges option, c = .grant privileges target d.role option := by
  unfold raising at h
  rcases List.mem_append.mp h with h | h
  · split at h
    · cases h
    · exact ⟨_, _, List.mem_singleton.mp h⟩
  · split at h
    · cases h
    · exact ⟨_, _, List.mem_singleton.mp h⟩

/-- Without privileges there is nothing to take, and no revoke. -/
theorem holding_eq_empty {d : Declaration} {kind : ObjectKind} (h : d.Fits kind)
    (he : d.privileges.isEmpty = true) : d.holding = ∅ := by
  have hp : d.privileges = ∅ := PrivilegeSet.isEmpty_iff.mp he
  refine Holding.ext hp (PrivilegeSet.ext_mem fun p => ⟨fun ho => ?_, fun hn => ?_⟩)
  · have hm : p ∈ d.privileges := h.covered p ho
    rwa [hp] at hm
  · exact absurd hn PrivilegeSet.mem_empty

theorem effects_lowering (hc : covers target = true) {d : Declaration}
    (he : d.privileges.isEmpty = false) :
    Change.effects covers (d.lowering target) held d.role = ∅ := by
  simp [lowering, he, Change.effect, hc]

theorem effects_grant_some (hc : covers target = true) (privileges : PrivilegeSet) (role : String)
    (option : Bool) : Change.effects covers
      (if privileges.isEmpty then [] else [.grant privileges target role option]) held role =
      held role ∪ .ofGrant privileges option := by
  split
  · rename_i he
    have hp : privileges = ∅ := PrivilegeSet.isEmpty_iff.mp he
    have hn : Holding.ofGrant privileges option = ∅ := by
      subst hp
      cases option <;> rfl
    simp [hn]
  · simp [Change.effect, hc]

/-- The two grants of a declaration add up to what it declares. -/
theorem effects_raising (hc : covers target = true) {d : Declaration} (h : d.Fits target.kind) :
    Change.effects covers (d.raising target) held d.role = held d.role ∪ d.holding := by
  have hsum : Holding.ofGrant (d.privileges \ d.grantOptions) false ∪
      .ofGrant d.grantOptions true = d.holding := by
    refine Holding.ext (PrivilegeSet.ext_mem fun p => ?_) (PrivilegeSet.ext_mem fun p => ?_)
    · change p ∈ d.privileges \ d.grantOptions ∪ d.grantOptions ↔ p ∈ d.privileges
      have hp : p ∈ d.grantOptions → p ∈ d.privileges := h.covered p
      by_cases ho : p ∈ d.grantOptions <;> simp [ho, hp]
    · change p ∈ ∅ ∪ d.grantOptions ↔ p ∈ d.grantOptions
      simp
  rw [raising, Change.effects_append, effects_grant_some hc, effects_grant_some hc,
    Holding.union_assoc, hsum]

/-! ## Statements for several declarations -/

theorem effects_lowering_of_ne {d : Declaration} {role : String} (h : d.role ≠ role) :
    Change.effects covers (d.lowering target) held role = held role := by
  refine Change.effects_of_not_grantee fun c hc hg => h ?_
  rw [mem_lowering hc] at hg
  exact Option.some.inj hg

theorem effects_raising_of_ne {d : Declaration} {role : String} (h : d.role ≠ role) :
    Change.effects covers (d.raising target) held role = held role := by
  refine Change.effects_of_not_grantee fun c hc hg => h ?_
  obtain ⟨privileges, option, rfl⟩ := mem_raising hc
  exact Option.some.inj hg

/-- Whom the revokes name, and who held nothing before, holds nothing after them. -/
theorem effects_lowerings (hc : covers target = true) {ds : List Declaration} {role : String}
    (h : held role = ∅ ∨ ∃ d ∈ ds, d.role = role ∧ d.privileges.isEmpty = false) :
    Change.effects covers (ds.flatMap (lowering target)) held role = ∅ := by
  induction ds generalizing held with
  | nil => exact h.resolve_right (by simp)
  | cons d ds ih =>
    rw [List.flatMap_cons, Change.effects_append]
    apply ih
    by_cases hd : d.role = role ∧ d.privileges.isEmpty = false
    · obtain ⟨rfl, hp⟩ := hd
      exact .inl (effects_lowering hc hp)
    · rcases h with h | ⟨x, hx, hr⟩
      · left
        by_cases hr : d.role = role
        · have hp : d.privileges.isEmpty = true := by simpa [hr] using hd
          rw [lowering, if_pos hp]
          exact h
        · rw [effects_lowering_of_ne hr]
          exact h
      · rcases List.mem_cons.mp hx with rfl | hx
        · exact absurd hr hd
        · exact .inr ⟨x, hx, hr⟩

theorem effects_raisings_of_forall_ne {ds : List Declaration} {role : String}
    (h : ∀ d ∈ ds, d.role ≠ role) :
    Change.effects covers (ds.flatMap (raising target)) held role = held role := by
  refine Change.effects_of_not_grantee fun c hc hg => ?_
  obtain ⟨d, hd, hc⟩ := List.mem_flatMap.mp hc
  obtain ⟨privileges, option, rfl⟩ := mem_raising hc
  exact h d hd (Option.some.inj hg)

/-- Where one declaration of the list is for the role, its grants are all that the role gets. -/
theorem effects_raisings (hc : covers target = true) {ds : List Declaration} {d : Declaration}
    (hfit : d.Fits target.kind) (hd : d ∈ ds) (hone : ∀ x ∈ ds, x.role = d.role → x = d) :
    Change.effects covers (ds.flatMap (raising target)) held d.role =
      held d.role ∪ d.holding := by
  induction ds generalizing held with
  | nil => cases hd
  | cons x ds ih =>
    rw [List.flatMap_cons, Change.effects_append]
    have hrest : ∀ y ∈ ds, y.role = d.role → y = d :=
      fun y hy => hone y (List.mem_cons_of_mem x hy)
    by_cases hx : x.role = d.role
    · obtain rfl : x = d := hone x List.mem_cons_self hx
      by_cases hmem : x ∈ ds
      · rw [ih hmem hrest, effects_raising hc hfit, Holding.union_assoc, Holding.union_self]
      · have hne : ∀ y ∈ ds, y.role ≠ x.role := fun y hy hr => hmem (hrest y hy hr ▸ hy)
        rw [effects_raisings_of_forall_ne hne, effects_raising hc hfit]
    · have hmem : d ∈ ds := (List.mem_cons.mp hd).resolve_left fun e => hx (congrArg _ e.symm)
      rw [ih hmem hrest, effects_raising_of_ne hx]

end Declaration

namespace PolicyDiff

open Declaration

variable {covers : Target → Bool} {target : Target} {held : String → Holding}

/-- Whether a role is there; `PUBLIC` always is. -/
def stands (roleExists : String → Bool) (role : String) : Bool := role.isEmpty || roleExists role

/-- The declarations that a plan takes back: of dropped roles that are still there, and the old ones
of updated roles. -/
def lowered (diff : PolicyDiff) (roleExists : String → Bool) : List Declaration :=
  (diff.dropped.sorted.map (·.2)).filter (fun d => stands roleExists d.role) ++
    diff.updated.sorted.map (·.2.1)

/-- The declarations that a plan makes. -/
def raised (diff : PolicyDiff) : List Declaration :=
  diff.added.sorted.map (·.2) ++ diff.updated.sorted.map (·.2.2)

/-- Every declaration of a difference can be made on a kind. -/
structure Fits (kind : ObjectKind) (diff : PolicyDiff) : Prop where
  dropped : ∀ e ∈ diff.dropped, e.2.Fits kind
  added : ∀ e ∈ diff.added, e.2.Fits kind
  updated : ∀ e ∈ diff.updated, e.2.1.Fits kind ∧ e.2.2.Fits kind

theorem mapM_eq_pure {m : Type → Type} [Monad m] [LawfulMonad m] {α β : Type} {f : α → m β}
    {g : α → β} (xs : List α) (h : ∀ x ∈ xs, f x = pure (g x)) : xs.mapM f = pure (xs.map g) := by
  induction xs with
  | nil => simp
  | cons x xs ih =>
    have hx : f x = pure (g x) := h x List.mem_cons_self
    have hxs : xs.mapM f = pure (xs.map g) := ih fun y hy => h y (List.mem_cons_of_mem x hy)
    simp [List.mapM_cons, hx, hxs]

theorem lower_eq {d : Declaration} (h : d.Fits target.kind) :
    (liftM d.toAcl >>= fun a => pure (a.revokes target) : ExceptT Conflict Id (List Change)) =
      pure (d.lowering target) := by
  obtain ⟨a, ha, hr, _⟩ := exists_toAcl h
  rw [ha, ← hr]
  rfl

theorem raise_eq {d : Declaration} (h : d.Fits target.kind) :
    (liftM d.toAcl >>= fun a => liftM (a.grants target) : ExceptT Conflict Id (List Change)) =
      pure (d.raising target) := by
  obtain ⟨a, ha, _, hg⟩ := exists_toAcl h
  rw [ha]
  change (liftM (a.grants target) : ExceptT Conflict Id (List Change)) = _
  rw [hg]
  rfl

theorem dropRole_eq (roleExists : String → Bool) {d : Declaration} (h : d.Fits target.kind) :
    (dropRole target (fun r => pure (roleExists r)) d : ExceptT Conflict Id (List Change)) =
      pure (if stands roleExists d.role then d.lowering target else []) := by
  simp only [dropRole, lower_eq h, stands]
  by_cases he : d.role.isEmpty = true
  · simp [he]
  · simp only [he, Bool.false_or]
    change (pure (roleExists d.role) >>= fun there => if there = true then _ else _ :
      ExceptT Conflict Id (List Change)) = _
    cases roleExists d.role <;> rfl

theorem flatten_dropped (roleExists : String → Bool) (ds : Keyed Declaration) :
    (ds.map fun e => if stands roleExists e.2.role then e.2.lowering target else []).flatten =
      ((ds.map (·.2)).filter fun d => stands roleExists d.role).flatMap (lowering target) := by
  induction ds with
  | nil => rfl
  | cons e ds ih =>
    rw [List.map_cons, List.flatten_cons, ih, List.map_cons, List.filter_cons]
    cases stands roleExists e.2.role <;> rfl

/-- The plan in one piece. -/
theorem plan_eq {diff : PolicyDiff} {roleExists : String → Bool} (h : diff.Fits target.kind) :
    (diff.plan target (fun r => pure (roleExists r)) : ExceptT Conflict Id (List Change)) =
      pure ((diff.lowered roleExists).flatMap (lowering target) ++
        diff.raised.flatMap (raising target)) := by
  have hdropped := mapM_eq_pure diff.dropped.sorted fun e he =>
    dropRole_eq roleExists (h.dropped e ((Keyed.sorted_perm _).mem_iff.mp he))
  have hlowered := mapM_eq_pure diff.updated.sorted fun e he =>
    lower_eq (h.updated e ((Keyed.sorted_perm _).mem_iff.mp he)).1
  have hadded := mapM_eq_pure diff.added.sorted fun e he =>
    raise_eq (h.added e ((Keyed.sorted_perm _).mem_iff.mp he))
  have hraised := mapM_eq_pure diff.updated.sorted fun e he =>
    raise_eq (h.updated e ((Keyed.sorted_perm _).mem_iff.mp he)).2
  unfold plan
  rw [hdropped, pure_bind, hlowered, pure_bind, hadded, pure_bind, hraised, pure_bind,
    flatten_dropped]
  simp only [lowered, raised, List.flatMap_append, List.flatMap_map, List.append_assoc]
  simp only [List.flatMap_def]

/-! ## The parts of a difference -/

section Parts

variable {old new : Keyed Declaration} {kind : ObjectKind}

theorem mem_sorted_map {α β : Type} {m : Keyed α} {f : String × α → β} {b : β} :
    b ∈ m.sorted.map f ↔ ∃ e ∈ m, f e = b := by
  simp only [List.mem_map, (Keyed.sorted_perm m).mem_iff]

theorem mem_updated (ho : old.keys.Nodup) {k : String} {a b : Declaration} :
    (k, a, b) ∈ (between old new).updated ↔
      old.get? k = some a ∧ new.get? k = some b ∧ b ≠ a := by
  simp only [between, List.mem_filterMap]
  constructor
  · rintro ⟨e, he, h⟩
    have hold : old.get? e.1 = some e.2 := Keyed.get?_of_mem ho he
    cases hg : new.get? e.1 with
    | none => simp [hg] at h
    | some n =>
      simp only [hg] at h
      split at h
      · cases h
      · rename_i hne
        cases h
        exact ⟨hold, hg, hne⟩
  · rintro ⟨hold, hg, hne⟩
    exact ⟨(k, a), Keyed.mem_of_get? hold, by simp [hg, hne]⟩

theorem mem_between_filter (ho : old.keys.Nodup) {keep : String × Declaration → Bool} {k : String}
    {d : Declaration} :
    (k, d) ∈ old.filter keep ↔ old.get? k = some d ∧ keep (k, d) = true := by
  rw [List.mem_filter]
  exact and_congr_left' ⟨fun h => Keyed.get?_of_mem ho h, Keyed.mem_of_get?⟩

/-- Nothing changes exactly if the same stands under every key. -/
theorem hasChanges_eq_false_iff (ho : old.keys.Nodup) (hn : new.keys.Nodup) :
    (between old new).hasChanges = false ↔ ∀ k, old.get? k = new.get? k := by
  have hparts : (between old new).hasChanges = false ↔ (between old new).dropped = [] ∧
      (between old new).added = [] ∧ (between old new).updated = [] := by
    simp [hasChanges, and_assoc]
  rw [hparts]
  simp only [List.eq_nil_iff_forall_not_mem]
  constructor
  · intro ⟨hdropped, hadded, hupdated⟩ k
    cases hold : old.get? k with
    | none =>
      cases hnew : new.get? k with
      | none => rfl
      | some b =>
        exact absurd ((mem_between_filter hn).mpr ⟨hnew, Keyed.not_contains_iff.mpr hold⟩)
          (hadded (k, b))
    | some a =>
      cases hnew : new.get? k with
      | none =>
        exact absurd ((mem_between_filter ho).mpr ⟨hold, Keyed.not_contains_iff.mpr hnew⟩)
          (hdropped (k, a))
      | some b =>
        refine congrArg some (Classical.byContradiction fun hne => ?_)
        exact hupdated (k, a, b) ((mem_updated ho).mpr ⟨hold, hnew, fun he => hne he.symm⟩)
  · intro h
    refine ⟨fun e he => ?_, fun e he => ?_, fun e he => ?_⟩
    · obtain ⟨hg, hc⟩ := (mem_between_filter ho).mp he
      cases hg.symm.trans ((h e.1).trans (Keyed.not_contains_iff.mp hc))
    · obtain ⟨hg, hc⟩ := (mem_between_filter hn).mp he
      cases hg.symm.trans ((h e.1).symm.trans (Keyed.not_contains_iff.mp hc))
    · obtain ⟨hold, hnew, hne⟩ := (mem_updated (k := e.1) ho).mp he
      exact hne (Option.some.inj (hnew.symm.trans ((h e.1).symm.trans hold)))

theorem mem_raised (ho : old.keys.Nodup) (hn : new.keys.Nodup) {d : Declaration} :
    d ∈ (between old new).raised ↔ ∃ k, new.get? k = some d ∧ old.get? k ≠ some d := by
  simp only [raised, List.mem_append, mem_sorted_map, Prod.exists]
  constructor
  · rintro (⟨k, d, h, rfl⟩ | ⟨k, a, d, h, rfl⟩)
    · obtain ⟨hg, hc⟩ := (mem_between_filter hn).mp h
      refine ⟨k, hg, ?_⟩
      rw [Keyed.not_contains_iff.mp hc]
      exact fun e => nomatch e
    · obtain ⟨ha, hb, hne⟩ := (mem_updated ho).mp h
      refine ⟨k, hb, ?_⟩
      rw [ha]
      exact fun e => hne (Option.some.inj e).symm
  · rintro ⟨k, hg, hne⟩
    cases ho' : old.get? k with
    | none =>
      left
      exact ⟨k, d, (mem_between_filter hn).mpr ⟨hg, Keyed.not_contains_iff.mpr ho'⟩, rfl⟩
    | some a =>
      right
      exact ⟨k, a, d, (mem_updated ho).mpr ⟨ho', hg, fun e => hne (e ▸ ho')⟩, rfl⟩

theorem mem_lowered (ho : old.keys.Nodup) {roleExists : String → Bool}
    {d : Declaration} : d ∈ (between old new).lowered roleExists ↔
      ∃ k, old.get? k = some d ∧ new.get? k ≠ some d ∧
        (new.get? k = none → stands roleExists d.role = true) := by
  simp only [lowered, List.mem_append, List.mem_filter, mem_sorted_map, Prod.exists]
  constructor
  · rintro (⟨⟨k, d, h, rfl⟩, hs⟩ | ⟨k, d, b, h, rfl⟩)
    · obtain ⟨hg, hc⟩ := (mem_between_filter ho).mp h
      refine ⟨k, hg, ?_, fun _ => hs⟩
      rw [Keyed.not_contains_iff.mp hc]
      exact (Option.some_ne_none d).symm
    · obtain ⟨ha, hb, hne⟩ := (mem_updated ho).mp h
      refine ⟨k, ha, ?_, fun hnone => by rw [hnone] at hb; cases hb⟩
      rw [hb]
      exact fun e => hne (Option.some.inj e)
  · rintro ⟨k, hg, hne, hs⟩
    cases hn : new.get? k with
    | none =>
      left
      exact ⟨⟨k, d, (mem_between_filter ho).mpr ⟨hg, Keyed.not_contains_iff.mpr hn⟩, rfl⟩, hs hn⟩
    | some b =>
      right
      exact ⟨k, d, b, (mem_updated ho).mpr ⟨hg, hn, fun e => hne (e ▸ hn)⟩, rfl⟩

theorem mem_unchanged (ho : old.keys.Nodup) {k : String} {d : Declaration} :
    (k, d) ∈ (between old new).unchanged ↔ old.get? k = some d ∧ new.get? k = some d := by
  simp only [between, mem_between_filter ho, beq_iff_eq]

end Parts

/-! ## What the plan reaches -/

section Reach

variable {old new : Keyed Declaration} {roleExists : String → Bool} {role : String}

theorem fits_between {kind : ObjectKind} (ho : old.Indexed key (Declaration.Fits kind))
    (hn : new.Indexed key (Declaration.Fits kind)) : (between old new).Fits kind where
  dropped e he := (ho.entry e (List.mem_filter.mp he).1).2
  added e he := (hn.entry e (List.mem_filter.mp he).1).2
  updated := by
    rintro ⟨k, a, b⟩ he
    obtain ⟨ha, hb, _⟩ := (mem_updated ho.nodup).mp he
    exact ⟨(ho.entry _ (Keyed.mem_of_get? ha)).2, (hn.entry _ (Keyed.mem_of_get? hb)).2⟩

/-- A declaration that a plan takes back or makes is not the other side's. -/
theorem get?_ne_of_mem {P : Declaration → Prop} (ho : old.Indexed key P) (hn : new.Indexed key P)
    {d : Declaration}
    (hd : d ∈ (between old new).lowered roleExists ∨ d ∈ (between old new).raised) :
    old.get? d.key ≠ new.get? d.key := by
  rcases hd with hd | hd
  · obtain ⟨k, hg, hne, _⟩ := (mem_lowered ho.nodup).mp hd
    obtain rfl : d.key = k := (ho.entry _ (Keyed.mem_of_get? hg)).1
    rw [hg]
    exact hne.symm
  · obtain ⟨k, hg, hne⟩ := (mem_raised ho.nodup hn.nodup).mp hd
    obtain rfl : d.key = k := (hn.entry _ (Keyed.mem_of_get? hg)).1
    rw [hg]
    exact hne

/-- After the revokes, a role whose declaration changes holds nothing. -/
theorem effects_lowered (ho : old.Indexed key (Declaration.Fits target.kind))
    (hc : covers target = true) (hs : stands roleExists role = true)
    (hheld : held role = given old role) (hne : old.get? (Role.key role) ≠ new.get? (Role.key role)) :
    Change.effects covers (((between old new).lowered roleExists).flatMap (lowering target)) held
      role = ∅ := by
  apply effects_lowerings hc
  rw [hheld, given_eq ho]
  cases hg : old.get? (Role.key role) with
  | none => exact .inl rfl
  | some d =>
    by_cases hr : d.role = role
    · cases he : d.privileges.isEmpty with
      | true =>
        have hfit : d.Fits target.kind := (ho.entry _ (Keyed.mem_of_get? hg)).2
        exact .inl (by simp [hr, holding_eq_empty hfit he])
      | false =>
        rw [hg] at hne
        exact .inr ⟨d, (mem_lowered ho.nodup).mpr ⟨_, hg, hne.symm, fun _ => hr ▸ hs⟩, hr, he⟩
    · exact .inl (by simp [hr])

/-- From nothing, the grants give a role whose declaration changes what the new one says. -/
theorem effects_raised (ho : old.keys.Nodup) (hn : new.Indexed key (Declaration.Fits target.kind))
    (hc : covers target = true) (hheld : held role = ∅)
    (hne : old.get? (Role.key role) ≠ new.get? (Role.key role)) :
    Change.effects covers ((between old new).raised.flatMap (raising target)) held role =
      given new role := by
  have hfrom : ∀ d ∈ (between old new).raised, d.role = role → new.get? (Role.key role) = some d := by
    rintro d hd rfl
    obtain ⟨k, hg, _⟩ := (mem_raised ho hn.nodup).mp hd
    obtain rfl : d.key = k := (hn.entry _ (Keyed.mem_of_get? hg)).1
    exact hg
  rw [given_eq hn]
  cases hg : new.get? (Role.key role) with
  | none =>
    rw [effects_raisings_of_forall_ne fun d hd hr => by simp [hfrom d hd hr] at hg, hheld]
  | some d =>
    by_cases hr : d.role = role
    · subst hr
      have hd : d ∈ (between old new).raised := (mem_raised ho hn.nodup).mpr ⟨_, hg, hg ▸ hne⟩
      have hone : ∀ x ∈ (between old new).raised, x.role = d.role → x = d := fun x hx hr =>
        Option.some.inj ((hfrom x hx hr).symm.trans hg)
      rw [effects_raisings hc (hn.entry _ (Keyed.mem_of_get? hg)).2 hd hone, hheld]
      simp
    · have hnone : ∀ x ∈ (between old new).raised, x.role ≠ role := fun x hx hx' => by
        rw [hfrom x hx hx'] at hg
        cases hg
        exact hr hx'
      rw [effects_raisings_of_forall_ne hnone, hheld]
      simp [hr]

/-- Where a role holds nothing, the grants of merged declarations give it what they say of it. -/
theorem effects_raised_all {m : Keyed Declaration}
    (hm : m.Indexed key (Declaration.Fits target.kind)) (hc : covers target = true)
    (hheld : held role = ∅) :
    Change.effects covers ((m.sorted.map (·.2)).flatMap (raising target)) held role = given m role := by
  have added : (between [] m).added = m := List.filter_eq_self.mpr fun _ _ => rfl
  have updated : (between [] m).updated = [] := rfl
  have all : (between [] m).raised = m.sorted.map (·.2) := by
    simp [raised, added, updated, Keyed.sorted]
  rw [← all]
  by_cases hne : Keyed.get? [] (Role.key role) ≠ m.get? (Role.key role)
  · exact effects_raised List.nodup_nil hm hc hheld hne
  · have hnone : m.get? (Role.key role) = none := (Classical.not_not.mp hne).symm
    rw [given_eq hm, hnone, all, effects_raisings_of_forall_ne, hheld]
    intro d hd hr
    obtain ⟨e, he, rfl⟩ := mem_sorted_map.mp hd
    have hk : e.2.key = e.1 := (hm.entry e he).1
    rw [← hr, show Role.key e.2.role = e.1 from hk, Keyed.get?_of_mem hm.nodup he] at hnone
    cases hnone

theorem grantee_of_mem {diff : PolicyDiff} {c : Change}
    (hc : c ∈ (diff.lowered roleExists).flatMap (lowering target) ++
      diff.raised.flatMap (raising target)) :
    ∃ d, (d ∈ diff.lowered roleExists ∨ d ∈ diff.raised) ∧ c.grantee? = some d.role := by
  rcases List.mem_append.mp hc with h | h
  · obtain ⟨d, hd, h⟩ := List.mem_flatMap.mp h
    exact ⟨d, .inl hd, by rw [mem_lowering h]; rfl⟩
  · obtain ⟨d, hd, h⟩ := List.mem_flatMap.mp h
    obtain ⟨privileges, option, rfl⟩ := mem_raising h
    exact ⟨d, .inr hd, rfl⟩

/-- A plan between two lists of declarations succeeds, takes before it gives, names no role of the
unchanged part in any spelling, and moves every role that is there from what the old list gives to
its spelling to what the new list gives to it. -/
theorem plan_reaches {old new : List Declaration} {diff : PolicyDiff}
    (hold : ∀ d ∈ old, d.Fits target.kind) (hnew : ∀ d ∈ new, d.Fits target.kind)
    (hdiff : ofLists old new = .ok diff) (hc : covers target = true)
    (hheld : ∀ role, stands roleExists role = true → held role = givenBy old role) :
    ∃ revokes grants : List Change,
      Id.run (diff.plan target fun r => pure (roleExists r)).run = .ok (revokes ++ grants) ∧
      (∀ c ∈ revokes, ∃ role, c = .revokeAll target role) ∧
      (∀ c ∈ grants, ∃ privileges role option, c = .grant privileges target role option) ∧
      (∀ c ∈ revokes ++ grants, ∀ role, c.grantee? = some role →
        ∀ e ∈ diff.unchanged, Role.key e.2.role ≠ Role.key role) ∧
      ∀ role, stands roleExists role = true →
        Change.effects covers (revokes ++ grants) held role = givenBy new role := by
  obtain ⟨o, ho⟩ : ∃ o, byRole old = .ok o := by
    cases h : byRole old with
    | error e => simp only [ofLists, h] at hdiff; cases hdiff
    | ok o => exact ⟨o, rfl⟩
  obtain ⟨n, hn⟩ : ∃ n, byRole new = .ok n := by
    cases h : byRole new with
    | error e => simp only [ofLists, ho, h] at hdiff; cases hdiff
    | ok n => exact ⟨n, rfl⟩
  obtain rfl : between o n = diff := by
    simp only [ofLists, ho, hn] at hdiff
    exact Except.ok.inj hdiff
  have hoi : o.Indexed key (Declaration.Fits target.kind) := indexed_byRole ho hold
  have hni : n.Indexed key (Declaration.Fits target.kind) := indexed_byRole hn hnew
  have hnamed : ∀ c ∈ ((between o n).lowered roleExists).flatMap (lowering target) ++
      (between o n).raised.flatMap (raising target), ∀ role, c.grantee? = some role →
        o.get? (Role.key role) ≠ n.get? (Role.key role) := by
    intro c hmem role hr
    obtain ⟨d, hd, hg⟩ := grantee_of_mem hmem
    obtain rfl : d.role = role := Option.some.inj (hg.symm.trans hr)
    exact get?_ne_of_mem hoi hni hd
  refine ⟨_, _, congrArg (fun x => Id.run (ExceptT.run x)) (plan_eq (fits_between hoi hni)),
    ?_, ?_, ?_, ?_⟩
  · intro c hmem
    obtain ⟨d, _, h⟩ := List.mem_flatMap.mp hmem
    exact ⟨_, mem_lowering h⟩
  · intro c hmem
    obtain ⟨d, _, h⟩ := List.mem_flatMap.mp hmem
    obtain ⟨privileges, option, h⟩ := mem_raising h
    exact ⟨_, _, _, h⟩
  · rintro c hmem role hr ⟨k, d⟩ he hk
    obtain ⟨h₁, h₂⟩ := (mem_unchanged hoi.nodup).mp he
    obtain rfl : d.key = k := (hoi.entry _ (Keyed.mem_of_get? h₁)).1
    apply hnamed c hmem role hr
    rw [← hk]
    exact h₁.trans h₂.symm
  · intro role hs
    have hgiven : ∀ {ds m}, byRole ds = .ok m → givenBy ds role = given m role := fun h => by
      simp [givenBy, h]
    have hbefore : held role = given o role := (hheld role hs).trans (hgiven ho)
    rw [hgiven hn]
    by_cases hne : o.get? (Role.key role) = n.get? (Role.key role)
    · -- no statement names a role with this key, and both sides say the same of it
      rw [Change.effects_of_not_grantee fun c hmem hr => hnamed c hmem role hr hne, hbefore,
        given_eq hoi, given_eq hni, hne]
    · rw [Change.effects_append]
      exact effects_raised hoi.nodup hni hc (effects_lowered hoi hc hs hbefore hne) hne

/-- Ann is declared in two spellings and keeps one privilege; Bob is dropped, and Cay is new. -/
def respeltOld : List Declaration :=
  [⟨"Ann", .ofList [.select], .ofList [.select], []⟩, ⟨"ann", .ofList [.update], ∅, []⟩,
    ⟨"bob", .ofList [.insert], ∅, []⟩, ⟨"", .ofList [.select], ∅, []⟩]

def respeltNew : List Declaration :=
  [⟨"ann", .ofList [.select], ∅, []⟩, ⟨"cay", .ofList [.delete], .ofList [.delete], []⟩,
    ⟨"", .ofList [.select], ∅, []⟩]

def respeltTarget : Target := { kind := .table, schema := "app", objects := ["orders"] }

def isRespeltTarget (t : Target) : Bool := t == respeltTarget

def isNotBob (role : String) : Bool := role != "bob"

theorem plan_reaches_respelt : ∃ diff revokes grants,
    ofLists respeltOld respeltNew = .ok diff ∧
    Id.run (diff.plan respeltTarget fun r => pure (isNotBob r)).run = .ok (revokes ++ grants) ∧
    Change.effects isRespeltTarget (revokes ++ grants) (givenBy respeltOld) "Ann" = ∅ ∧
    Change.effects isRespeltTarget (revokes ++ grants) (givenBy respeltOld) "ann" =
      ⟨.ofList [.select], ∅⟩ := by
  obtain ⟨diff, hdiff⟩ : ∃ diff, ofLists respeltOld respeltNew = .ok diff := ⟨_, rfl⟩
  have hold : ∀ d ∈ respeltOld, d.Fits .table := by
    intro d hd
    constructor <;> revert d <;> decide
  have hnew : ∀ d ∈ respeltNew, d.Fits .table := by
    intro d hd
    constructor <;> revert d <;> decide
  have hc : isRespeltTarget respeltTarget = true := by decide
  have hheld : ∀ role, stands isNotBob role = true →
      givenBy respeltOld role = givenBy respeltOld role := fun _ _ => rfl
  obtain ⟨revokes, grants, hplan, _, _, _, hreach⟩ := plan_reaches hold hnew hdiff hc hheld
  refine ⟨diff, revokes, grants, hdiff, hplan, ?_, ?_⟩
  · rw [hreach "Ann" (by decide)]
    decide
  · rw [hreach "ann" (by decide)]
    decide

end Reach

end PolicyDiff

end DeclaredAccess
