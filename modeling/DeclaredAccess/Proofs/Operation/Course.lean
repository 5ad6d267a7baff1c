import DeclaredAccess.Proofs.Operation.Changes

/-! Every operation has its course: it takes the catalog lock in its own mode, and under it
commits at most one transaction. -/

namespace DeclaredAccess

open DeclaredAccess.Task (Block Course Goes goes_bind goes_pure)

variable {σ : Type} {mode : LockMode} {a : Allowance} {held : Bool} {n : Nat}

/-- What the operation may do in the transaction that it commits. -/
def Operation.allowance : Operation → Allowance
  | createMembership | readMembership | updateMembership | deleteMembership => .enrolling
  | _ => .managing

/-- An operation without an answer of its own goes as what it does. -/
theorem Operation.goes_quiet_iff {x : Task Resource Unit} {s s' : Standing Resource}
    {t : List Exchange} {r : Except Failure Value} :
    Goes (run.quiet x) s t r s' ↔ ∃ o, Goes x s t o s' ∧ r = o.map fun _ => .null := by
  constructor
  · intro hg
    rcases goes_bind.mp hg with ⟨t₁, t₂, _, s₁, rfl, h, hp⟩ | ⟨e, h, rfl⟩
    · obtain ⟨rfl, rfl, rfl⟩ := goes_pure.mp hp
      rw [List.append_nil]
      exact ⟨_, h, rfl⟩
    · exact ⟨_, h, rfl⟩
  · rintro ⟨o, h, rfl⟩
    cases o with
    | ok v =>
      refine goes_bind.mpr (.inl ⟨t, [], v, s', (List.append_nil t).symm, h, ?_⟩)
      exact goes_pure.mpr ⟨rfl, rfl, rfl⟩
    | error e => exact goes_bind.mpr (.inr ⟨e, h, rfl⟩)

theorem Operation.goes_quiet_ok {x : Task Resource Unit} {s s' : Standing Resource}
    {t : List Exchange} {v : Value} (hg : Goes (run.quiet x) s t (.ok v) s') :
    Goes x s t (.ok ()) s' := by
  obtain ⟨o, h, ho⟩ := goes_quiet_iff.mp hg
  cases o with
  | ok v => exact h
  | error e => cases ho

theorem Operation.goes_quiet_error {x : Task Resource Unit} {s s' : Standing Resource}
    {t : List Exchange} {f : Failure} (hg : Goes (run.quiet x) s t (.error f) s') :
    Goes x s t (.error f) s' := by
  obtain ⟨o, h, ho⟩ := goes_quiet_iff.mp hg
  cases o with
  | ok v => cases ho
  | error e =>
    cases ho
    exact h

namespace Grant

theorem block_owners (g : Grant) : Block a (g.owners : Task σ _) := by
  unfold owners
  split
  · exact .pure _
  · exact .ownersIn _

theorem block_statements (g : Grant) (declared : Acl) (regrant : Bool) :
    Block .confined (g.statements declared regrant : Task σ Unit) := by
  refine .bind (.forM fun s hs => .send (declared.sparesMemberships_revokes _ s hs) _) fun _ => ?_
  split
  · refine .ofExceptOf fun granted hg => .forM fun s hs => ?_
    exact .send (Acl.sparesMemberships_grants hg s hs) _
  · exact .pure _

theorem block_apply (c : Client) (g : Grant) (regrant : Bool) :
    Block .confined (g.apply c regrant : Task σ Unit) := by
  refine .bind (block_owners g) fun owners => .bind (.ofConflict _) fun declared => ?_
  exact .bind (.actorRole c) fun actor =>
    .elevatedAll trivial owners actor (block_statements g declared regrant)

theorem block_findsRole (g : Grant) : Block .asking (g.findsRole : Task σ Bool) := by
  have database : Block .asking (do
      return (← Catalog.databaseExists g.database).truthy : Task σ Bool) :=
    .bind (.askOne _ _) fun _ => .pure _
  unfold findsRole
  split
  · refine .bind (.askOne _ _) fun there => ?_
    split
    · exact .pure _
    · exact database
  · exact database

theorem block_findsSchema (g : Grant) : Block .asking (g.findsSchema : Task σ Bool) :=
  .bind (.askOne _ _) fun _ => .pure _

theorem course_isPresent (c : Client) (g : Grant) :
    Course mode a true 0 (g.isPresent c : Task σ Bool) := by
  refine .after (.asks c "" (block_findsRole g)) fun found => ?_
  split
  · exact .pure _
  · split
    · exact .pure _
    · exact .asks c _ (block_findsSchema g)

theorem course_refresh (c : Client) (g : Grant) : Course mode a true 0 (g.refresh c) := by
  unfold refresh
  refine .after (course_isPresent c g) fun found => ?_
  split
  · refine .after (.changeWork _) fun _ => .after (.asks c _ (.objectPrivileges _ _)) fun found => ?_
    exact .after (.after (.ofExcept _) fun _ => .pure _) fun _ => .changeWork _
  · exact .changeWork _

theorem course_create (c : Client) : Course .write .confined false 1 (create c) := by
  refine .after (.require c _ _) fun _ => .after .work fun r => .after (.ofExcept _) fun g => ?_
  refine .locked (.before (.committed rfl c _ (block_apply c g true)) fun _ => ?_)
  exact .after (.changeWork _) fun _ => course_refresh c g

theorem course_read (c : Client) : Course .read .confined false 0 (read c) := by
  refine .after (.require c _ _) fun _ => .after .work fun r => .after (.ofExcept _) fun g => ?_
  exact .locked (course_refresh c g)

theorem course_delete (c : Client) : Course .write .confined false 1 (delete c) := by
  refine .after (.require c _ _) fun _ => .after .work fun r => .after (.ofExcept _) fun g => ?_
  exact .before (.locked (.unlessMissing (.committed rfl c _ (block_apply c g false))))
    fun _ => .changeWork _

end Grant

namespace Schema

theorem course_refresh (c : Client) (database : String) (name : Value) :
    Course mode a true 0 (refresh c database name) := by
  unfold refresh
  refine .after (.asks c _ (.schema name)) fun found => ?_
  split
  · exact .changeWork _
  · exact .after .work fun r => .after (.ofExcept _) fun r => .changeWork _

theorem block_grantPolicies (s : Schema) : Block .confined (s.grantPolicies : Task σ Unit) := by
  refine .bind (.ofConflict _) fun policies => .forM fun e _ => ?_
  refine .bind (.ofConflict _) fun declared => .ofExceptOf fun granted hg => .forM fun c hc => ?_
  exact .send (Acl.sparesMemberships_grants hg c hc) _

theorem block_establish (s : Schema) (c : Client) :
    Block .managing (s.establish c : Task σ Unit) := by
  refine .bind (.askOne _ _) fun there => ?_
  split
  · split
    · exact .send rfl _
    · exact .pure _
  · split
    · exact .bind (.bind (.version trivial c) fun _ => .pure _) fun _ => .send rfl _
    · exact .bind (.pure _) fun _ => .send rfl _

theorem block_creation (s : Schema) (c : Client) : Block .managing (do
    Task.elevated s.owner (← c.actorRole) do
      s.establish c
      s.grantPolicies : Task σ Unit) :=
  .bind (.actorRole c) fun _ => .elevated trivial _ _
    (.bind (block_establish s c) fun _ => (block_grantPolicies s).managing)

theorem course_create (c : Client) : Course .write .managing false 1 (create c) := by
  refine .after .work fun r => .after (.ofExcept _) fun s => .locked ?_
  refine .before (.committed rfl c _ (block_creation s c)) fun _ => ?_
  exact .after (.changeWork _) fun _ => course_refresh c _ _

theorem course_read (c : Client) : Course .read .confined false 0 (read c) := by
  refine .after .work fun r => .after (.ofExcept _) fun d => .locked ?_
  exact .after (.ofExcept _) fun database => course_refresh c _ _

theorem neverMissing_ofBlocks (v : Value) : NeverMissing (Declaration.ofBlocks v) := by
  unfold Declaration.ofBlocks
  split
  · exact .error rfl
  · refine .mapM (fun v => ?_) _
    unfold Declaration.ofBlock PolicyBlock.ofValue
    split
    · dsimp only
      split
      · exact .error rfl
      · split
        · exact .error rfl
        · split
          · exact .ok _
          · split
            · exact .error rfl
            · exact .ok _
    · exact .error rfl

theorem neverMissing_changedPolicies (v : Value) : NeverMissing (changedPolicies v) := by
  unfold changedPolicies
  split
  · exact neverMissing_ofBlocks v
  · exact .ok _

theorem neverMissing_diff (old new : List Declaration) : NeverMissing (PolicyDiff.of old new) := by
  unfold PolicyDiff.of
  split
  · exact .ok _
  · exact .error rfl

theorem block_movePolicy (old new : List Declaration) (target : Target) (intent : String) :
    Block .confined (Catalog.movePolicy old new target intent : Task σ Nat) := by
  refine .bind (.ofExcept (neverMissing_diff old new)) fun d => ?_
  have plan := Task.plans_plan target d
    (fun role => do return (← Catalog.roleExists role).truthy : String → Task σ Bool)
    fun role => .bind (.askOne _ _) fun _ => .pure _
  refine .bindOf (plan.1.weaken (fun _ h => h.elim) False.elim False.elim False.elim) fun o ho => ?_
  refine .ofExceptOf fun changes hc => .bind (.forM fun c hm => .send ?_ _) fun _ => .pure _
  exact plan.2 changes (hc ▸ ho) c hm

theorem block_movePolicies (name : String) (old new : Value) :
    Block .confined (movePolicies name old new : Task σ Unit) := by
  refine .bind (.ofExcept (neverMissing_changedPolicies old)) fun _ => ?_
  refine .bind (.ofExcept (neverMissing_changedPolicies new)) fun _ => ?_
  exact .bind (block_movePolicy _ _ _ _) fun _ => .pure _

theorem neverMissing_owners (previous : Value) (owner : String) :
    NeverMissing (owners previous owner) :=
  Block.neverMissing_distinct _

theorem block_alter (s : Schema) (r : Resource) : Block .confined (s.alter r : Task σ Unit) := by
  have policies : Block .confined (if r.hasChange "policy" then
      movePolicies s.name (r.change "policy").1 (r.change "policy").2 else pure () :
      Task σ Unit) := by
    split
    · exact block_movePolicies _ _ _
    · exact .pure _
  have owner (u : Unit) : Block .confined (do
      if r.hasChange "owner" then Catalog.setSchemaOwner s.name s.owner
      if r.hasChange "policy" then
        movePolicies s.name (r.change "policy").1 (r.change "policy").2 : Task σ Unit) :=
    .whenThen (.send rfl _) fun _ => policies
  unfold alter
  dsimp only
  split
  · refine .bind (.ofExcept (Block.neverMissing_name _)) fun old => ?_
    exact .bind (.ofExcept (Block.neverMissing_name _)) fun new => .bind (.send rfl _) owner
  · exact owner ()

theorem block_alteration (s : Schema) (c : Client) (r : Resource) (previous : Value) :
    Block .confined (do
      let owners ← owners previous s.owner
      Task.elevatedAll owners (← c.actorRole) (s.alter r) : Task σ Unit) :=
  .bind (.ofExcept (neverMissing_owners _ _)) fun _ => .bind (.actorRole c) fun _ =>
    .elevatedAll trivial _ _ (block_alter s r)

theorem course_update (c : Client) : Course .write .confined false 1 (update c) := by
  refine .after .work fun r => .after (.ofExcept _) fun s => .whenThen (.settled _) fun _ => ?_
  refine .locked (.before (.committed rfl c _ (block_alteration s c r _)) fun _ => ?_)
  exact .after (.changeWork _) fun _ => course_refresh c _ _

theorem block_removal (s : Schema) (c : Client) : Block .confined (do
    Task.elevated s.owner (← c.actorRole) (Catalog.dropSchema s.name s.dropCascade) :
    Task σ Unit) :=
  .bind (.actorRole c) fun _ => .elevated trivial _ _ (.send rfl _)

theorem course_delete (c : Client) : Course .write .confined false 1 (delete c) := by
  refine .after .work fun r => .after (.ofExcept _) fun s => ?_
  exact .before (.locked (.unlessMissing (.committed rfl c _ (block_removal s c))))
    fun _ => .changeWork _

theorem course_exists (c : Client) : Course .read .confined false 0 («exists» c) := by
  refine .after .work fun r => .after (.ofExcept _) fun d => .locked ?_
  refine .after (.asks c _ (.askOne _ _)) fun found => ?_
  split
  · exact .pure _
  · exact .after (.ofExcept _) fun database => .asks c _ (.askOne _ _)

end Schema

namespace Membership

theorem block_look (role : String) : Block .looking (look role) := by
  refine .bind (.askOne _ _) fun there => ?_
  split
  · exact .bind (.roleMembers role) fun _ => .pure _
  · exact .bind (.changeWork trivial _) fun _ => .pure _

theorem course_refresh (c : Client) (role : String) : Course mode a true 0 (refresh c role) := by
  refine .after (.look c _ (block_look role)) fun found => ?_
  split
  · exact .pure _
  · exact .changeWork _

theorem block_addMembers (role : String) (members : List String) :
    Block .enrolling (addMembers role members : Task σ Unit) :=
  .forM fun _ _ => .send rfl _

theorem block_removeMembers (role : String) (members : List String) :
    Block .enrolling (removeMembers role members : Task σ Unit) :=
  .forM fun _ _ => .send rfl _

theorem neverMissing_memberNames (members : List Value) : NeverMissing (memberNames members) :=
  .mapM Block.neverMissing_name members

theorem block_replaceMembers (role : String) (old new : List Value) :
    Block .enrolling (replaceMembers role old new : Task σ Unit) := by
  refine .bind (.ofExcept (neverMissing_memberNames old)) fun old => ?_
  refine .bind (.ofExcept (neverMissing_memberNames new)) fun new => ?_
  exact .bind (block_removeMembers _ _) fun _ => block_addMembers _ _

theorem course_create (c : Client) : Course .write .enrolling false 1 (create c) := by
  refine .after .work fun r => .after (.ofExcept _) fun m => .locked (.before ?_ fun _ => ?_)
  · exact .committed rfl c _ (block_addMembers _ _)
  · exact .after (.changeWork _) fun _ => course_refresh c _

theorem course_read (c : Client) : Course .read .enrolling false 0 (read c) :=
  .after .work fun _ => .after (.ofExcept _) fun m => .locked (course_refresh c m.role)

theorem course_update (c : Client) : Course .write .enrolling false 1 (update c) := by
  refine .after .work fun r => .after (.ofExcept _) fun m => .locked ?_
  have refresh : ∀ u : Unit, Course .write .enrolling true 0 (refresh c m.role) :=
    fun _ => course_refresh c m.role
  dsimp only
  split
  · refine .after (.ofExcept _) fun old => .after (.ofExcept _) fun new => .before ?_ refresh
    exact .committed rfl c _ (block_replaceMembers _ _ _)
  · exact (refresh ()).mono (Nat.zero_le 1)

theorem course_delete (c : Client) : Course .write .enrolling false 1 (delete c) := by
  refine .after .work fun r => .after (.ofExcept _) fun m => .before (.locked ?_)
    fun _ => .changeWork _
  exact .committed rfl c _ (block_removeMembers _ _)

end Membership

namespace Extension

theorem course_declared (c : Client) : Course mode a held 0 (declared c) :=
  .after (.require c _ _) fun _ => .after .work fun _ => .ofExcept _

theorem course_refresh (c : Client) (e : Extension) : Course mode a true 0 (e.refresh c) := by
  unfold refresh
  refine .after (.asks c _ (.extension _)) fun found => ?_
  split
  · exact .changeWork _
  · exact .changeWork _

theorem block_alter (e : Extension) (r : Resource) :
    Block .confined (e.alter r : Task σ Unit) := by
  have version : Block .confined (if r.hasChange "version" then
      Catalog.updateExtension e.name e.version else pure () : Task σ Unit) := by
    split
    · exact .send rfl _
    · exact .pure _
  unfold alter
  exact .whenThen (.send rfl _) fun _ => version

theorem course_create (c : Client) : Course .write .confined false 1 (create c) := by
  refine .after (course_declared c) fun e => .locked (.before ?_ fun _ => ?_)
  · exact .committed rfl c _ (.send rfl _)
  · exact .after (.changeWork _) fun _ => course_refresh c e

theorem course_read (c : Client) : Course .read .confined false 0 (read c) :=
  .after (course_declared c) fun e => .locked (course_refresh c e)

theorem course_update (c : Client) : Course .write .confined false 1 (update c) := by
  refine .after (course_declared c) fun e => .after .work fun r => ?_
  refine .whenThen (.settled _) fun _ => .locked (.before ?_ fun _ => course_refresh c e)
  exact .committed rfl c _ (block_alter e r)

theorem course_delete (c : Client) : Course .write .confined false 1 (delete c) := by
  refine .after (course_declared c) fun e => ?_
  exact .before (.locked (.unlessMissing (.committed rfl c _ (.send rfl _))))
    fun _ => .changeWork _

theorem course_exists (c : Client) : Course .read .confined false 0 («exists» c) :=
  .after (course_declared c) fun _ => .locked (.after (.asks c _ (.extension _)) fun _ => .pure _)

end Extension

namespace Operation

/-- What every operation but the creation of a schema may do in the transaction that it commits. -/
def confinement : Operation → Allowance
  | createMembership | readMembership | updateMembership | deleteMembership => .enrolling
  | _ => .confined

theorem not_inquires_confinement (op : Operation) : ¬op.confinement.inquires := by
  cases op <;> exact id

theorem course_quiet {mode : LockMode} {a : Allowance} {n : Nat} {x : Task Resource Unit}
    (hn : n ≤ 1) (hx : Course mode a false n x) : Course mode a false 1 (run.quiet x) :=
  (hx.mono hn).before fun _ => .pure _

/-- Only the creation of a schema may ask for the server's version inside a transaction. -/
theorem course_confined {op : Operation} (h : op ≠ createSchema) (c : Client) :
    Course op.mode op.confinement false 1 (op.run c) := by
  cases op with
  | createGrant => exact course_quiet (by decide) (Grant.course_create c)
  | readGrant => exact course_quiet (by decide) (Grant.course_read c)
  | updateGrant => exact course_quiet (by decide) (Grant.course_create c)
  | deleteGrant => exact course_quiet (by decide) (Grant.course_delete c)
  | createSchema => exact absurd rfl h
  | readSchema => exact course_quiet (by decide) (Schema.course_read c)
  | updateSchema => exact course_quiet (by decide) (Schema.course_update c)
  | deleteSchema => exact course_quiet (by decide) (Schema.course_delete c)
  | schemaExists => exact (Schema.course_exists c).mono (by decide)
  | createMembership => exact course_quiet (by decide) (Membership.course_create c)
  | readMembership => exact course_quiet (by decide) (Membership.course_read c)
  | updateMembership => exact course_quiet (by decide) (Membership.course_update c)
  | deleteMembership => exact course_quiet (by decide) (Membership.course_delete c)
  | createExtension => exact course_quiet (by decide) (Extension.course_create c)
  | readExtension => exact course_quiet (by decide) (Extension.course_read c)
  | updateExtension => exact course_quiet (by decide) (Extension.course_update c)
  | deleteExtension => exact course_quiet (by decide) (Extension.course_delete c)
  | extensionExists =>
    exact ((Extension.course_exists c).before fun _ => .pure _).mono (by decide)

theorem course (op : Operation) (c : Client) : Course op.mode op.allowance false 1 (op.run c) := by
  by_cases h : op = createSchema
  · subst h
    exact course_quiet (by decide) (Schema.course_create c)
  · refine (course_confined h c).weaken ?_ ?_ (fun hi => absurd hi op.not_inquires_confinement) ?_
    · cases op <;> exact fun _ hs => hs
    · cases op <;> exact fun he => he
    · cases op <;> exact fun hr => hr

end Operation

end DeclaredAccess
