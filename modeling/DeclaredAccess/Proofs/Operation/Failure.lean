import DeclaredAccess.Proofs.Grant.Id
import DeclaredAccess.Proofs.Grant.Refresh
import DeclaredAccess.Proofs.Session.Transcript

/-! What a failed operation leaves behind. Nearly all operations are careful. A read of a grant that
has no identifier gives it one before it knows what the role holds, and a refresh of a role that is
gone clears the identifier before its transaction is over; these are the only runs that can fail
without a commit and with a changed resource. -/

namespace DeclaredAccess

variable {σ : Type}

open DeclaredAccess.Task (Spares Careful Goes goes_bind goes_pure goes_changeWork
  goes_changeWork_bind goes_work_bind goes_locked goes_ofExcept goes_ofExcept_bind_ok goes_ask_bind)
open Allowance (not_records_confined not_records_enrolling not_records_managing)

variable {c : Client} {t : List Exchange}

/-! ## Grants -/

namespace Grant

/-- A refresh that fails has either found nothing out yet, or it has already given the resource its
identifier where it had none. -/
theorem refresh_fails {g : Grant} {s s' : Standing Resource} {f : Failure}
    (hg : Goes (g.refresh c) s t (.error f) s') :
    (Goes (g.isPresent c) s t (.error f) s' ∧ s'.work = s.work) ∨
      ∃ u v s₁, t = u ++ v ∧ Goes (g.isPresent c) s u (.ok true) s₁ ∧
        s'.work = g.identified s.work := by
  rcases goes_refresh hg with ⟨e, he, hw, h⟩ | ⟨he, _⟩ | ⟨u, v, s₁, rfl, h, hv⟩
  · cases he
    exact .inl ⟨h, hw⟩
  · cases he
  · rcases hv with ⟨e, _, hw⟩ | ⟨_, _, _, he, _⟩
    · exact .inr ⟨u, v, s₁, rfl, h, hw⟩
    · cases he

/-- What a read does until it knows whether the role, the database and the schema exist. -/
def probe (c : Client) (g : Grant) : Task Resource Bool := do
  c.require .privileges resourceName
  Task.ask (.acquire .read)
  g.isPresent c

/-- The exchanges of a read have found the role, the database and the schema. -/
def Found (c : Client) (s : Standing Resource) (t : List Exchange) : Prop :=
  ∃ (g : Grant) (u v : List Exchange) (s₁ : Standing Resource),
    applied s.work = .ok g ∧ t = u ++ v ∧ Goes (g.probe c) s u (.ok true) s₁

theorem goes_probe {g : Grant} {s s' : Standing Resource} {b : Bool}
    (hg : Goes (g.probe c) s t (.ok b) s') : ∃ u v s₁,
      t = u ++ ⟨.acquire .read, ()⟩ :: v ∧
        Goes (c.require .privileges resourceName) s u (.ok ()) s₁ ∧
          Goes (g.isPresent c) s₁ v (.ok b) s' := by
  rcases goes_bind.mp hg with ⟨u, v, _, s₁, rfl, h₁, h₂⟩ | ⟨_, _, he⟩
  · obtain ⟨_, v, rfl, h₃⟩ := goes_ask_bind.mp h₂
    exact ⟨u, v, s₁, rfl, h₁, h₃⟩
  · cases he

/-- A read that fails has changed the resource only where it had found everything. -/
theorem read_fails {s s' : Standing Resource} {f : Failure}
    (hg : Goes (read c) s t (.error f) s') :
    (Found c s t ∧ ∃ g : Grant, s'.work = g.identified s.work) ∨
      (¬Found c s t ∧ s'.work = s.work) := by
  rcases goes_bind.mp hg with ⟨t₁, t₂, _, s₁, rfl, h₁, h₂⟩ | ⟨e, h₁, he⟩
  · have hw : s₁.work = s.work := Spares.require c _ _ _ _ _ _ h₁
    rw [goes_work_bind, hw] at h₂
    cases ha : applied s.work with
    | error e =>
      rw [ha] at h₂
      rcases goes_bind.mp h₂ with ⟨_, _, g, _, _, h₃, _⟩ | ⟨_, h₃, _⟩
      · cases (goes_ofExcept.mp h₃).2.2
      · refine .inr ⟨fun ⟨g, _, _, _, hg, _⟩ => ?_, ?_⟩
        · rw [ha] at hg
          cases hg
        · rw [(goes_ofExcept.mp h₃).2.1, hw]
    | ok g =>
      rw [ha] at h₂
      rcases goes_bind.mp h₂ with ⟨t₃, t₄, g', s₂, rfl, h₃, h₄⟩ | ⟨_, h₃, _⟩
      · obtain ⟨rfl, rfl, hg'⟩ := goes_ofExcept.mp h₃
        cases hg'
        obtain ⟨w, rfl, h₅⟩ := goes_locked.mp h₄
        rcases refresh_fails h₅ with ⟨h₆, hr⟩ | ⟨u, v, s₃, rfl, h₆, hr⟩
        · refine .inr ⟨fun ⟨g', u, v, s₃, hg', hu, hp⟩ => ?_, hr.trans hw⟩
          -- the exchanges that would have found everything begin the ones that failed
          rw [ha] at hg'
          cases hg'
          obtain ⟨u₁, u₂, s₄, rfl, h₇, h₈⟩ := goes_probe hp
          obtain ⟨rfl, _, rfl⟩ := h₁.eq_of_append h₇ (by simpa using hu)
          have hu : w ++ [⟨.release .read, ()⟩] = u₂ ++ v := by simpa using hu
          obtain ⟨_, hb, _⟩ := h₆.eq_of_append h₈ hu
          cases hb
        · refine .inl ⟨⟨g, t₁ ++ ⟨.acquire .read, ()⟩ :: u, v ++ [⟨.release .read, ()⟩], s₃, ha,
            by simp, ?_⟩, g, by rw [hr, hw]⟩
          exact goes_bind.mpr (.inl ⟨t₁, _, (), _, rfl, h₁, goes_ask_bind.mpr ⟨(), u, rfl, h₆⟩⟩)
      · cases (goes_ofExcept.mp h₃).2.2
  · refine .inr ⟨fun ⟨g, u, v, s₃, _, hu, hp⟩ => ?_, Spares.require c _ _ _ _ _ _ h₁⟩
    obtain ⟨u₁, u₂, s₄, rfl, h₇, _⟩ := goes_probe hp
    have hu : t ++ [] = u₁ ++ ⟨.acquire .read, ()⟩ :: (u₂ ++ v) := by simpa using hu
    obtain ⟨_, hb, _⟩ := h₁.eq_of_append h₇ hu
    cases hb

theorem careful_create : Careful (create c) := by
  refine .after (.require c _ _) fun _ => .after .work fun r => .after (.ofExcept _) fun g => ?_
  exact .locked (.committed not_records_confined (block_apply c g true))

theorem careful_delete : Careful (delete c) := by
  refine .after (.require c _ _) fun _ => .after .work fun r => .after (.ofExcept _) fun g => ?_
  exact .before (.spares (.locked (.unlessMissing
    (.committed not_records_confined (block_apply c g false))))) fun _ => .changeWork _

end Grant

/-! ## Schemas -/

namespace Schema

/-- A comparison with the catalog looks for the schema in one transaction, and asks nothing else. -/
theorem goes_refresh {s s' : Standing Resource} {database : String} {name : Value}
    {r : Except Failure Unit} (hg : Goes (refresh c database name) s t r s') : ∃ found s₁,
      Goes (c.transaction database do Catalog.schema name) s t found s₁ ∧
        (r = .ok () → found = .ok none ∨ ∃ owner entries, found = .ok (some (owner, entries)) ∧
          settle database name owner entries s₁.work = .ok s'.work) := by
  rcases goes_bind.mp hg with ⟨t₁, t₂, found, s₁, rfl, h₁, h₂⟩ | ⟨e, h₁, rfl⟩
  · have silent : t₂ = [] := by
      cases found with
      | none => exact (goes_changeWork.mp h₂).1
      | some found =>
        rcases goes_bind.mp (goes_work_bind.mp h₂) with ⟨u, v, w, _, rfl, h₃, h₄⟩ | ⟨_, h₃, _⟩
        · obtain ⟨rfl, _⟩ := goes_ofExcept.mp h₃
          exact (goes_changeWork.mp h₄).1
        · exact (goes_ofExcept.mp h₃).1
    obtain rfl := silent
    refine ⟨.ok found, s₁, by rwa [List.append_nil], fun hr => ?_⟩
    subst hr
    cases found with
    | none => exact .inl rfl
    | some found =>
      obtain ⟨r, hr, h₃⟩ := goes_ofExcept_bind_ok.mp (goes_work_bind.mp h₂)
      obtain ⟨_, _, rfl⟩ := goes_changeWork.mp h₃
      exact .inr ⟨_, _, rfl, hr⟩
  · exact ⟨.error e, s', h₁, fun hr => by cases hr⟩

theorem careful_refresh {database : String} {name : Value} : Careful (refresh c database name) := by
  refine .after (.asks (.schema name)) fun found => ?_
  split
  · exact .succeeds (.changeWork _)
  · exact .after .work fun r => .after (.ofExcept _) fun r => .succeeds (.changeWork _)

theorem careful_create : Careful (create c) :=
  .after .work fun _ => .after (.ofExcept _) fun s =>
    .locked (.committed not_records_managing (block_creation s c))

theorem careful_read : Careful (read c) :=
  .after .work fun _ => .after (.ofExcept _) fun _ => .locked
    (.after (.ofExcept _) fun _ => careful_refresh)

theorem careful_update : Careful (update c) :=
  .after .work fun r => .after (.ofExcept _) fun s => .whenThen (.settled _) fun _ =>
    .locked (.committed not_records_confined (block_alteration s c r _))

theorem careful_delete : Careful (delete c) := by
  refine .after .work fun r => .after (.ofExcept _) fun s => ?_
  exact .before (.spares (.locked (.unlessMissing
    (.committed not_records_confined (block_removal s c))))) fun _ => .changeWork _

theorem careful_exists : Careful («exists» c) := by
  refine .spares (.bind .work fun r => .bind (.ofExcept _) fun d => .locked ?_)
  refine .bind (.asks (.askOne _ _)) fun found => ?_
  split
  · exact .pure _
  · exact .bind (.ofExcept _) fun database => .asks (.askOne _ _)

end Schema

/-! ## Memberships -/

/-- Whether a role was looked for and not found. -/
def Exchange.findsNoRole : Exchange → Bool
  | ⟨.execute (.query (.roleExists _)), .ok rows⟩ => match Catalog.firstCell rows with
    | .ok v => !v.truthy
    | .error _ => false
  | _ => false

namespace Membership

theorem goes_roleMembers {role : String} {s s' : Standing Resource}
    {r : Except Failure (List Value)} (hg : Goes (Catalog.roleMembers role) s t r s') :
    s' = s ∧ t.any Exchange.findsNoRole = false := by
  obtain ⟨rfl, ⟨_, rfl, _⟩ | ⟨b, rfl, _⟩⟩ := Task.goes_execute_ofExcept hg
  · exact ⟨rfl, rfl⟩
  · exact ⟨rfl, rfl⟩

/-- Where the role is looked for and not found, the identifier is cleared. -/
theorem look_work {role : String} {s s' : Standing Resource}
    {r : Except Failure (Option (List Value))} (hg : Goes (look role) s t r s') :
    s'.work = if t.any Exchange.findsNoRole then s.work.setId "" else s.work := by
  rcases goes_bind.mp hg with ⟨t₁, t₂, v, s₁, rfl, h₁, h₂⟩ | ⟨e, h₁, _⟩
  · obtain ⟨rfl, ⟨_, _, hr⟩ | ⟨b, rfl, hr⟩⟩ := Task.goes_execute_ofExcept h₁
    · cases hr
    · cases b with
      | error e => cases hr
      | ok rows =>
        change _ = (Catalog.firstCell rows).mapError Failure.of at hr
        cases hc : Catalog.firstCell rows with
        | error e => rw [hc] at hr; cases hr
        | ok w =>
          rw [hc] at hr
          cases hr
          cases hv : v.truthy with
          | true =>
            simp only [hv, if_true] at h₂
            have ht : t₂.any Exchange.findsNoRole = false ∧ s' = s₁ := by
              rcases goes_bind.mp h₂ with ⟨u, w, _, _, rfl, h₃, h₄⟩ | ⟨_, h₃, _⟩
              · obtain ⟨rfl, hu⟩ := goes_roleMembers h₃
                obtain ⟨rfl, _, rfl⟩ := goes_pure.mp h₄
                exact ⟨by simpa using hu, rfl⟩
              · obtain ⟨rfl, hu⟩ := goes_roleMembers h₃
                exact ⟨hu, rfl⟩
            rw [ht.2]
            simp [Exchange.findsNoRole, hc, hv, ht.1]
          | false =>
            simp only [hv, Bool.false_eq_true, if_false] at h₂
            rw [goes_changeWork_bind] at h₂
            obtain ⟨rfl, _, rfl⟩ := goes_pure.mp h₂
            simp [Exchange.findsNoRole, hc, hv]
  · obtain ⟨rfl, ⟨_, rfl, _⟩ | ⟨b, rfl, hr⟩⟩ := Task.goes_execute_ofExcept h₁
    · rfl
    · cases b with
      | error e => rfl
      | ok rows =>
        change _ = (Catalog.firstCell rows).mapError Failure.of at hr
        cases hc : Catalog.firstCell rows with
        | error e => simp [Exchange.findsNoRole, hc]
        | ok w => rw [hc] at hr; cases hr

/-- A refresh that fails has cleared the identifier exactly where the role was not found. -/
theorem refresh_fails {role : String} {s s' : Standing Resource} {f : Failure}
    (hg : Goes (refresh c role) s t (.error f) s') :
    s'.work = if t.any Exchange.findsNoRole then s.work.setId "" else s.work := by
  rcases goes_bind.mp hg with ⟨t₁, t₂, found, s₁, _, _, h₂⟩ | ⟨e, h₁, _⟩
  · cases found with
    | none => obtain ⟨_, hr, _⟩ := goes_pure.mp h₂; cases hr
    | some members => obtain ⟨_, hr, _⟩ := goes_changeWork.mp h₂; cases hr
  · obtain ⟨t₀, s₀, he, h⟩ := Task.goes_transaction h₁
    have hw : s₀.work = s.work := (Task.setUp_frame he).1
    have ht : t₀.any Exchange.findsNoRole = false := by
      cases he with
      | known _ => rfl
      | new _ => rfl
    rcases h with ⟨_, rfl, rfl, _⟩ | ⟨peer, u, rfl, h⟩
    · simpa [ht, Exchange.findsNoRole] using hw
    · rcases h with ⟨_, rfl, rfl, _⟩ | ⟨_, rfl, rfl, _⟩ | ⟨v, w, o, o', s₁, rfl, hv, hr, _⟩
      · simpa [ht, Exchange.findsNoRole] using hw
      · simpa [ht, Exchange.findsNoRole] using hw
      · have hl : s₁.work = if v.any Exchange.findsNoRole then s₀.work.setId "" else s₀.work :=
          look_work (s := s₀.within true) hv
        have hs : s'.work = s₁.work := by
          rcases Task.goes_rollback.mp hr with ⟨_, _, _, rfl⟩ | ⟨_, rfl, _⟩
          · rfl
          · rfl
        have hn : w.any Exchange.findsNoRole = false := by
          rcases Task.goes_rollback.mp hr with ⟨_, rfl, _, _⟩ | ⟨_, _, _, rfl, _⟩
          · rfl
          · rfl
        rw [hs, hl, hw]
        simp [ht, hn, Exchange.findsNoRole]

theorem locked_refresh_fails {role : String} {mode : LockMode} {s s' : Standing Resource}
    {f : Failure} (hg : Goes (Task.locked mode (refresh c role)) s t (.error f) s') :
    s'.work = if t.any Exchange.findsNoRole then s.work.setId "" else s.work := by
  obtain ⟨u, rfl, h⟩ := goes_locked.mp hg
  rw [refresh_fails h]
  simp [Exchange.findsNoRole]

theorem read_fails {s s' : Standing Resource} {f : Failure}
    (hg : Goes (read c) s t (.error f) s') :
    s'.work = if t.any Exchange.findsNoRole then s.work.setId "" else s.work := by
  rcases goes_bind.mp (goes_work_bind.mp hg) with ⟨t₁, t₂, m, s₁, rfl, h₁, h₂⟩ | ⟨e, h₁, _⟩
  · obtain ⟨rfl, rfl, _⟩ := goes_ofExcept.mp h₁
    exact locked_refresh_fails h₂
  · obtain ⟨rfl, rfl, _⟩ := goes_ofExcept.mp h₁
    rfl

theorem careful_replace {r : Resource} {m : Membership} : Careful (do
    let old ← memberSet (r.change "members").1
    let new ← memberSet (r.change "members").2
    c.committed "" (replaceMembers m.role old new)
    refresh c m.role : Task Resource Unit) :=
  .after (.ofExcept _) fun _ => .after (.ofExcept _) fun _ =>
    .committed not_records_enrolling (block_replaceMembers _ _ _)

/-- An update that fails before it has committed has cleared the identifier only where there were
no members to replace. -/
theorem update_fails {s s' : Standing Resource} {f : Failure}
    (hg : Goes (update c) s t (.error f) s') (hu : Uncommitted t) :
    s'.work = if s.work.hasChange "members" = false ∧ t.any Exchange.findsNoRole then
      s.work.setId "" else s.work := by
  rcases goes_bind.mp (goes_work_bind.mp hg) with ⟨t₁, t₂, m, s₁, rfl, h₁, h₂⟩ | ⟨e, h₁, _⟩
  · obtain ⟨rfl, rfl, _⟩ := goes_ofExcept.mp h₁
    cases hc : s₁.work.hasChange "members" with
    | false =>
      simp only [hc, Bool.false_eq_true, if_false] at h₂
      simpa using locked_refresh_fails h₂
    | true =>
      simp only [hc, if_true] at h₂
      simpa using careful_replace.locked _ _ _ _ h₂ hu.right
  · obtain ⟨rfl, rfl, _⟩ := goes_ofExcept.mp h₁
    simp

theorem careful_create : Careful (create c) :=
  .after .work fun _ => .after (.ofExcept _) fun _ => .locked
    (.committed not_records_enrolling (block_addMembers _ _))

theorem careful_delete : Careful (delete c) :=
  .after .work fun _ => .after (.ofExcept _) fun _ => .before
    (.spares (.locked (.committed not_records_enrolling (block_removeMembers _ _))))
    fun _ => .changeWork _

end Membership

/-! ## Extensions -/

namespace Extension

theorem spares_declared : Spares (declared c) :=
  .bind (.require c _ _) fun _ => .bind .work fun _ => .ofExcept _

theorem careful_refresh {e : Extension} : Careful (e.refresh c) := by
  refine .after (.asks (.extension _)) fun found => ?_
  split
  · exact .succeeds (.changeWork _)
  · exact .succeeds (.changeWork _)

theorem careful_create : Careful (create c) :=
  .after spares_declared fun _ => .locked (.committed not_records_confined (.send rfl _))

theorem careful_read : Careful (read c) :=
  .after spares_declared fun _ => .locked careful_refresh

theorem careful_update : Careful (update c) :=
  .after spares_declared fun e => .after .work fun r => .whenThen (.settled _) fun _ =>
    .locked (.committed not_records_confined (block_alter e r))

theorem careful_delete : Careful (delete c) := by
  refine .after spares_declared fun e => ?_
  exact .before (.spares (.locked (.unlessMissing
    (.committed not_records_confined (.send rfl _))))) fun _ => .changeWork _

theorem careful_exists : Careful («exists» c) :=
  .spares (.bind spares_declared fun _ => .locked (.bind (.asks (.extension _)) fun _ => .pure _))

end Extension

namespace Resource

theorem setId_eq_self_iff {r : Resource} {id : String} : r.setId id = r ↔ r.id = id := by
  constructor
  · intro h
    rw [← h]
    rfl
  · intro h
    obtain rfl := h
    rfl

end Resource

namespace Operation

/-- A run of the operation writes down the identifier before it is over. -/
def Lapses (op : Operation) (c : Client) (s : Standing Resource) (t : List Exchange) : Prop :=
  match op with
  | readGrant => s.work.id = "" ∧ Grant.Found c s t
  | readMembership => s.work.id ≠ "" ∧ t.any Exchange.findsNoRole = true
  | updateMembership => s.work.id ≠ "" ∧ s.work.hasChange "members" = false ∧
      t.any Exchange.findsNoRole = true
  | _ => False

/-- Every operation but three leaves the resource as it was where it fails without a commit. -/
theorem careful (op : Operation) (hg : op ≠ readGrant) (hm : op ≠ readMembership)
    (hu : op ≠ updateMembership) : Careful (op.run c) := by
  have quiet {x : Task Resource Unit} (hx : Careful x) : Careful (run.quiet x) :=
    hx.before fun _ => .pure _
  cases op with
  | createGrant => exact quiet Grant.careful_create
  | readGrant => exact absurd rfl hg
  | updateGrant => exact quiet Grant.careful_create
  | deleteGrant => exact quiet Grant.careful_delete
  | createSchema => exact quiet Schema.careful_create
  | readSchema => exact quiet Schema.careful_read
  | updateSchema => exact quiet Schema.careful_update
  | deleteSchema => exact quiet Schema.careful_delete
  | schemaExists => exact Schema.careful_exists
  | createMembership => exact quiet Membership.careful_create
  | readMembership => exact absurd rfl hm
  | updateMembership => exact absurd rfl hu
  | deleteMembership => exact quiet Membership.careful_delete
  | createExtension => exact quiet Extension.careful_create
  | readExtension => exact quiet Extension.careful_read
  | updateExtension => exact quiet Extension.careful_update
  | deleteExtension => exact quiet Extension.careful_delete
  | extensionExists => exact Extension.careful_exists.before fun _ => .pure _

theorem lapse_iff {r r' : Resource} {p : Prop} (hn : ¬p → r' = r)
    (hp : p → ∃ id, id ≠ r.id ∧ r' = r.setId id) :
    (r' = r ↔ ¬p) ∧ ∃ id, r' = r.setId id := by
  by_cases hc : p
  · obtain ⟨id, hne, rfl⟩ := hp hc
    exact ⟨⟨fun hr => absurd (Resource.setId_eq_self_iff.mp hr).symm hne, fun h => absurd hc h⟩,
      id, rfl⟩
  · obtain rfl := hn hc
    exact ⟨⟨fun _ => hc, fun _ => rfl⟩, r'.id, rfl⟩

/-- Where the identifier is cleared under a condition, it changes unless it was clear before. -/
theorem clear_iff {r r' : Resource} {p : Prop} [Decidable p]
    (h : r' = if p then r.setId "" else r) :
    (r' = r ↔ ¬(r.id ≠ "" ∧ p)) ∧ ∃ id, r' = r.setId id := by
  refine lapse_iff (fun hn => ?_) fun hl => ⟨"", hl.1.symm, h.trans (if_pos hl.2)⟩
  by_cases hp : p
  · rw [h, if_pos hp]
    exact Resource.setId_eq_self_iff.mpr (Classical.byContradiction fun he => hn ⟨he, hp⟩)
  · rw [h, if_neg hp]

theorem readGrant_fails {s s' : Standing Resource} {f : Failure}
    (h : Goes (readGrant.run c) s t (.error f) s') :
    (s'.work = s.work ↔ ¬readGrant.Lapses c s t) ∧ ∃ id, s'.work = s.work.setId id := by
  rcases Grant.read_fails (goes_quiet_error h) with ⟨hf, g, hw⟩ | ⟨hf, hw⟩
  · refine lapse_iff (fun hn => ?_) fun hl => ⟨g.id, ?_, ?_⟩
    · have hne : s.work.id ≠ "" := fun he => hn ⟨he, hf⟩
      simpa [Grant.identified, hne] using hw
    · rw [hl.1]
      exact g.id_ne_empty
    · simpa [Grant.identified, hl.1] using hw
  · exact lapse_iff (fun _ => hw) fun hl => absurd hl.2 hf

/-- An operation that fails without a commit leaves fields and former fields as they were, and the
identifier too unless the run lapses. -/
theorem failed_run_unchanged_iff (op : Operation) (c : Client) (s s' : Standing Resource)
    (t : List Exchange) (f : Failure) (h : Goes (op.run c) s t (.error f) s')
    (hu : Uncommitted t) :
    (s'.work = s.work ↔ ¬op.Lapses c s t) ∧ ∃ id, s'.work = s.work.setId id := by
  by_cases hg : op = readGrant
  · subst hg
    exact readGrant_fails h
  by_cases hm : op = readMembership
  · subst hm
    exact clear_iff (Membership.read_fails (goes_quiet_error h))
  by_cases hp : op = updateMembership
  · subst hp
    exact clear_iff (Membership.update_fails (goes_quiet_error h) hu)
  · refine lapse_iff (fun _ => op.careful hg hm hp _ _ _ _ h hu) fun hl => ?_
    cases op with
    | readGrant => exact absurd rfl hg
    | readMembership => exact absurd rfl hm
    | updateMembership => exact absurd rfl hp
    | _ => exact hl.elim

/-- The members of a role, as they were last applied. -/
def appliedGroup : Standing Resource where
  session := {}
  work := { id := "m", values := [("name", .text "m"), ("role", .text "r"),
    ("members", .list [.text "a"])] }

/-- The role of `appliedGroup` is gone, and the connection is lost before the transaction that
found this out is over. -/
def lostRead : List Exchange :=
  [⟨.acquire .read, ()⟩, ⟨.openEngine "app" (some ⟨4, 0, 180, "sync-grants"⟩), ()⟩,
    ⟨.connect "app", .ok ⟨"postgresql", "psycopg", some [16, 2]⟩⟩, ⟨.mark .begin, .ok ()⟩,
    ⟨.execute (.query (.roleExists "r")), .ok [[.bool false]]⟩, ⟨.mark .rollback, .error {}⟩,
    ⟨.disconnect, ()⟩, ⟨.release .read, ()⟩]

/-- A server that answers as in `lostRead`. -/
def lostAnswer : (q : Request) → q.Answer
  | .execute (.query (.roleExists _)) => .ok [[.bool false]]
  | .mark .rollback => .error {}
  | q => q.granted

theorem goes_lostRead : Goes (readMembership.run .admin) appliedGroup lostRead
    (.error (Failure.of (.database {})))
    { session := { engines := [("app", 0)], engineCount := 1 }
      work := appliedGroup.work.setId "" } :=
  Task.goes_exchanges lostAnswer (readMembership.run .admin) appliedGroup

theorem failed_run_unchanged_iff_lost :
    Uncommitted lostRead ∧ readMembership.Lapses .admin appliedGroup lostRead ∧
      (appliedGroup.work.setId "" = appliedGroup.work ↔
        ¬readMembership.Lapses .admin appliedGroup lostRead) :=
  ⟨by decide, ⟨by decide, rfl⟩,
    (failed_run_unchanged_iff _ _ _ _ _ _ goes_lostRead (by decide)).1⟩

/-- Operations can fail without a commit and leave another identifier. -/
theorem failed_run_clears_identifier :
    ¬∀ (op : Operation) (c : Client) (s s' : Standing Resource) (t : List Exchange) (f : Failure),
      Goes (op.run c) s t (.error f) s' → Uncommitted t → s'.work = s.work := by
  intro h
  have hw := h _ _ _ _ _ _ goes_lostRead (by decide)
  have hi : "" = "m" := congrArg Resource.id hw
  exact absurd hi (by decide)

end Operation

end DeclaredAccess
