import DeclaredAccess.Proofs.Operation.Course
import DeclaredAccess.Proofs.Operation.Questions

/-! Each operation surfaces: its failures are no conflicts, and are accounted for by the driver's
faults where the server keeps to what it is asked for. The removals forgive that something is
missing. -/

namespace DeclaredAccess

open DeclaredAccess.Task (Surfaces Forgives Spares)
open Sql (Writable writable_cons writable_append writable_nil)

variable {σ : Type} {k : Prop} {s : Standing σ} {c : Client}

/-- The client's names can be written. -/
structure Client.Writable (c : Client) : Prop where
  actor : '\x00' ∉ c.actor.toList
  database : '\x00' ∉ c.defaultDatabase.toList

/-! ## Grants -/

theorem Acl.sendable_revokes {target : Target} (a : Acl) : Sendable (a.revokes target) := by
  intro c hc
  rw [a.mem_revokes hc]
  rfl

theorem Acl.sendable_grants {target : Target} {a : Acl} {cs : List Sql.Change}
    (h : a.grants target = .ok cs) : Sendable cs := by
  intro c hc
  obtain ⟨_, _, rfl⟩ := Acl.mem_grants h hc
  rfl

namespace Grant

variable {g : Grant}

theorem surfaces_owners (hg : k → g.Writable) :
    Surfaces k (g.owners : Task σ (List Value)) s fun vs => k → ∀ v ∈ vs, v.IsWritable := by
  unfold owners
  split
  · exact .pure fun _ _ hv => nomatch hv
  · exact Catalog.surfaces_ownersIn fun hk => hg hk _ (by simp)

theorem surfaces_statements (hp : g.privileges ⊆ g.kind.allowed) {declared : Acl}
    (hd : g.declaration.toAcl = .ok declared) (regrant : Bool) :
    Surfaces k (g.statements declared regrant : Task σ Unit) s fun _ => True := by
  obtain ⟨granted, hgranted⟩ := exists_grants hp hd
  refine .bind (.changes declared.sendable_revokes) fun _ _ _ => ?_
  split
  · exact .ofConflict_bind hgranted (.changes (Acl.sendable_grants hgranted))
  · exact .pure trivial

theorem surfaces_apply (hc : k → c.Writable) (hg : k → g.Writable)
    (hp : g.privileges ⊆ g.kind.allowed) (regrant : Bool) :
    Surfaces k (g.apply c regrant : Task σ Unit) s fun _ => True := by
  obtain ⟨declared, hd⟩ := g.exists_toAcl
  refine .bind (surfaces_owners hg) fun owners _ ho => ?_
  refine .ofConflict_bind hd ?_
  refine .bind (Client.surfaces_actorRole fun hk => (hc hk).actor) fun actor _ hactor => ?_
  exact .elevatedAll ho hactor fun _ => surfaces_statements hp hd regrant

theorem surfaces_findsRole (hg : k → g.Writable) :
    Surfaces k (g.findsRole : Task σ Bool) s fun _ => True := by
  have database (s : Standing σ) : Surfaces k (do
      return (← Catalog.databaseExists g.database).truthy : Task σ Bool) s fun _ => True :=
    .bind (Catalog.surfaces_databaseExists fun hk => ⟨_, rfl, hg hk _ (by simp)⟩)
      fun _ _ _ => .pure trivial
  unfold findsRole
  split
  · refine .bind (Catalog.surfaces_roleExists fun hk => hg hk _ (by simp)) fun there _ _ => ?_
    split
    · exact .pure trivial
    · exact database _
  · exact database _

theorem surfaces_findsSchema (hg : k → g.Writable) :
    Surfaces k (g.findsSchema : Task σ Bool) s fun _ => True :=
  .bind (Catalog.surfaces_schemaExists fun hk => ⟨_, rfl, hg hk _ (by simp)⟩)
    fun _ _ _ => .pure trivial

theorem surfaces_isPresent (hg : k → g.Writable) :
    Surfaces k (g.isPresent c : Task σ Bool) s fun _ => True := by
  unfold isPresent
  refine .bind (.transaction fun _ _ => surfaces_findsRole hg) fun found _ _ => ?_
  split
  · exact .pure trivial
  · split
    · exact .pure trivial
    · exact .transaction fun _ _ => surfaces_findsSchema hg

theorem surfaces_refresh {s : Standing Resource} (hg : k → g.Writable) :
    Surfaces k (g.refresh c) s fun _ => True := by
  unfold refresh
  refine .bind (surfaces_isPresent hg) fun there _ _ => ?_
  split
  · refine .changeWork_bind ?_
    refine .bind (.transaction fun _ _ => Catalog.surfaces_objectPrivileges fun hk =>
      legible_objectPrivileges (hg hk)) fun found _ hf => ?_
    exact .bind (P := fun _ => True) (.bind (.ofFine (fine_inOrder hf))
      fun _ _ _ => .pure trivial) fun _ _ _ => .changeWork trivial
  · exact .changeWork trivial

variable {s : Standing Resource}

theorem surfaces_create (hc : k → c.Writable) (hs : k → s.work.Typed) :
    Surfaces k (create c) s fun _ => True := by
  refine .bindSpares (.require c _ _) (.require c _ _) fun _ s₁ _ hw => .work_bind ?_
  rw [hw]
  refine .bind (P := fun g => g.privileges ⊆ g.kind.allowed ∧ (k → g.Writable))
    (.ofExcept (fine_ofResource hs) fun g hg => ?_) fun g _ hg => .locked ?_
  · exact ⟨(placed_of_declared hg).1, fun hk => writable_ofResource (hs hk) hg⟩
  · refine .bind (.committed fun _ _ => surfaces_apply hc hg.2 hg.1 true) fun _ _ _ => ?_
    exact .changeWork_bind (surfaces_refresh hg.2)

theorem surfaces_applied (hs : k → s.work.Typed) : Surfaces k (Task.ofExcept (applied s.work)) s
    fun g => g.privileges ⊆ g.kind.allowed ∧ (k → g.Writable) :=
  .ofExcept (fine_applied hs) fun _ hg =>
    ⟨(placed_of_applied hg).1, fun hk => (placed_of_applied hg).2 (hs hk)⟩

theorem surfaces_read (hs : k → s.work.Typed) : Surfaces k (read c) s fun _ => True := by
  refine .bindSpares (.require c _ _) (.require c _ _) fun _ s₁ _ hw => .work_bind ?_
  rw [← hw] at hs
  exact .bind (surfaces_applied hs) fun g _ hg => .locked (surfaces_refresh hg.2)

theorem forgives_delete (hc : k → c.Writable) (hs : k → s.work.Typed) :
    Forgives k (delete c) s := by
  refine .bindSpares (.require c _ _) (.require c _ _) fun _ s₁ _ hw => .work_bind ?_
  rw [← hw] at hs
  refine .bindSpares (.ofExcept _) (surfaces_applied hs) fun g _ hg _ => .removal ?_
  exact .committed fun _ _ => surfaces_apply hc hg.2 hg.1 false

end Grant

/-! ## Schemas -/

namespace Schema

variable {sch : Schema} {s : Standing Resource}

theorem surfaces_refresh {database : String} {name : Value} (hn : k → name.IsWritable)
    (hs : k → (s.work.getD "policy" (.list [])).IsPolicies) :
    Surfaces k (refresh c database name) s fun _ => True := by
  unfold refresh
  refine .bindSpares (.asks (.schema name))
    (.transaction fun _ _ => Catalog.surfaces_schema hn) fun found s₁ hf hw => ?_
  split
  · exact .changeWork trivial
  · rename_i owner entries
    refine .work_bind (.bind (.ofFine ?_) fun _ _ _ => .changeWork trivial)
    rw [hw]
    exact fine_settle (fun hk => (hf _ _ rfl hk).1) (fun hk => (hf _ _ rfl hk).2) hs

theorem surfaces_grantPolicies {s : Standing σ} (hp : ∀ d ∈ sch.policies, d.OfPolicy) :
    Surfaces k (sch.grantPolicies : Task σ Unit) s fun _ => True := by
  obtain ⟨m, hm, hi⟩ := Declaration.exists_byRole hp
  unfold grantPolicies
  refine .ofConflict_bind hm ?_
  refine .forM fun e he s => ?_
  have hfits : e.2.Fits (target sch.name).kind :=
    (hi.entry e ((Keyed.sorted_perm m).mem_iff.mp he)).2.fits
  obtain ⟨a, ha, _, hgrants⟩ := Declaration.exists_toAcl hfits
  exact .ofConflict_bind ha (.ofConflict_bind hgrants (.changes e.2.sendable_raising))

theorem surfaces_establish {s : Standing σ} (hs : k → sch.Writable) :
    Surfaces k (sch.establish c : Task σ Unit) s fun _ => True := by
  refine .bind (Catalog.surfaces_schemaExists fun hk => ⟨_, rfl, hs hk _ (by simp)⟩)
    fun there _ _ => ?_
  split
  · split
    · exact .change rfl
    · exact .pure trivial
  · split
    · exact .bind (.supports c _) fun _ _ _ => .change rfl
    · exact .bind (P := fun _ => True) (.pure trivial) fun _ _ _ => .change rfl

theorem isWritable_owner (hs : sch.Writable) : (Value.text sch.owner).IsWritable :=
  ⟨_, rfl, hs _ (by simp)⟩

theorem isWritable_name (hs : sch.Writable) : (Value.text sch.name).IsWritable :=
  ⟨_, rfl, hs _ (by simp)⟩

theorem surfaces_ofResource {s₀ : Standing Resource} (hc : k → c.Writable) {r : Resource}
    (hr : k → r.Typed) : Surfaces k (Task.ofExcept (ofResource r c.defaultDatabase)) s₀
      fun sch => (∀ d ∈ sch.policies, d.OfPolicy) ∧ (k → sch.Writable) :=
  .ofExcept (fine_ofResource hr) fun _ h =>
    ⟨(spec_ofResource h).1, fun hk => (spec_ofResource h).2 (hr hk) (hc hk).database⟩

theorem surfaces_creation {s : Standing σ} (hc : k → c.Writable) (hs : k → sch.Writable)
    (hp : ∀ d ∈ sch.policies, d.OfPolicy) : Surfaces k (do
      Task.elevated sch.owner (← c.actorRole) do
        sch.establish c
        sch.grantPolicies : Task σ Unit) s fun _ => True := by
  refine .bind (Client.surfaces_actorRole fun hk => (hc hk).actor) fun actor _ ha => ?_
  refine .elevated (fun hk => isWritable_owner (hs hk)) ha fun _ => ?_
  exact .bind (surfaces_establish hs) fun _ _ _ => surfaces_grantPolicies hp

/-- A change is committed, and the catalog compared with the resource after it. -/
theorem surfaces_settled {x : Task Resource Unit} {a : Allowance} (ha : ¬a.records)
    (hb : Task.Block a x) {sch : Schema} (hs : k → sch.Writable) (hw : k → s.work.Typed)
    (hx : ∀ s₀ : Standing Resource, Surfaces k x s₀ fun _ => True) : Surfaces k (do
      c.committed sch.database x
      Task.changeWork (·.setId (idOf sch.database sch.name))
      refresh c sch.database (.text sch.name)) s fun _ => True := by
  refine .bindSpares (.committed ha hb) (.committed fun s₀ _ => hx s₀) fun _ s₁ _ he => ?_
  refine .changeWork_bind (surfaces_refresh (fun hk => isWritable_name (hs hk)) fun hk => ?_)
  show (s₁.work.getD "policy" (.list [])).IsPolicies
  rw [he]
  exact Resource.isPolicies_getD (hw hk)

theorem surfaces_create (hc : k → c.Writable) (hs : k → s.work.Typed) :
    Surfaces k (create c) s fun _ => True := by
  refine .work_bind (.bindSpares (.ofExcept _) (surfaces_ofResource hc hs)
    fun sch s₁ hsch hw => .locked ?_)
  rw [← hw] at hs
  exact surfaces_settled Allowance.not_records_managing (block_creation sch c) hsch.2 hs
    fun _ => surfaces_creation hc hsch.2 hsch.1

theorem surfaces_databaseAndName (hc : k → c.Writable) (hs : k → s.work.Typed) :
    Surfaces k (Task.ofExcept (databaseAndName c s.work)) s fun d =>
      k → d.1.IsWritable ∧ d.2.IsWritable :=
  .ofExcept fine_databaseAndName fun _ h hk =>
    isWritable_databaseAndName (hs hk) (hc hk).database h

theorem surfaces_read (hc : k → c.Writable) (hs : k → s.work.Typed) :
    Surfaces k (read c) s fun _ => True := by
  refine .work_bind (.bindSpares (.ofExcept _) (surfaces_databaseAndName hc hs)
    fun d s₁ hd hw => .locked ?_)
  refine .bindSpares (.ofExcept _) (.ofFine (fine_name fun hk => (hd hk).1))
    fun database s₂ _ hw₂ => ?_
  refine surfaces_refresh (fun hk => (hd hk).2) fun hk => ?_
  rw [hw₂, hw]
  exact Resource.isPolicies_getD (hs hk)

/-- The fields from before a change are like those after it. -/
theorem typed_change {r : Resource} (hr : r.Typed) : (r.change "owner").1.GivesText ∧
    ((r.change "policy").1 = .null ∨ (r.change "policy").1.IsPolicies) ∧
    ((r.change "policy").2 = .null ∨ (r.change "policy").2.IsPolicies) := by
  unfold Resource.change
  cases hp : r.previous with
  | none => exact ⟨hr.values.text _ (by decide), hr.values.policies, hr.values.policies⟩
  | some p =>
    obtain ⟨hprevious, _⟩ := hr.previous p hp
    exact ⟨hprevious.text _ (by decide), hprevious.policies, hr.values.policies⟩

theorem isWritable_change_name {r : Resource} (hr : r.Typed)
    (hn : Fields.value r.values "name" ≠ .null) :
    (r.change "name").1.IsWritable ∧ (r.change "name").2.IsWritable := by
  have new : (Fields.value r.values "name").IsWritable :=
    (hr.values.text _ (by decide)).resolve_left hn
  unfold Resource.change
  cases hp : r.previous with
  | none => exact ⟨new, new⟩
  | some p => exact ⟨(hr.previous p hp).2 hn, new⟩

theorem surfaces_movePolicies {s : Standing σ} {name : String} {old new : Value}
    (ho : k → old = .null ∨ old.IsPolicies) (hn : k → new = .null ∨ new.IsPolicies) :
    Surfaces k (movePolicies name old new : Task σ Unit) s fun _ => True := by
  refine .bind (.ofExcept (P := fun ds => ∀ d ∈ ds, d.Usable k) (fine_changedPolicies ho)
    fun _ h => usable_changedPolicies ho h) fun before _ hbefore => ?_
  refine .bind (.ofExcept (P := fun ds => ∀ d ∈ ds, d.Usable k) (fine_changedPolicies hn)
    fun _ h => usable_changedPolicies hn h) fun after _ hafter => ?_
  exact .bind (Catalog.surfaces_movePolicy hbefore fun d hd => (hafter d hd).ofPolicy)
    fun _ _ _ => .pure trivial

theorem surfaces_alter {s : Standing σ} {r : Resource} (hr : k → r.Typed)
    (hn : k → Fields.value r.values "name" ≠ .null) :
    Surfaces k (sch.alter r : Task σ Unit) s fun _ => True := by
  have policies (s : Standing σ) : Surfaces k (if r.hasChange "policy" then
      movePolicies sch.name (r.change "policy").1 (r.change "policy").2 else pure () :
      Task σ Unit) s fun _ => True := by
    split
    · exact surfaces_movePolicies (fun hk => (typed_change (hr hk)).2.1)
        fun hk => (typed_change (hr hk)).2.2
    · exact .pure trivial
  have owner (s : Standing σ) : Surfaces k (do
      if r.hasChange "owner" then Catalog.setSchemaOwner sch.name sch.owner
      if r.hasChange "policy" then
        movePolicies sch.name (r.change "policy").1 (r.change "policy").2 : Task σ Unit) s
      fun _ => True := by
    dsimp only
    split
    · exact .bind (.change rfl) fun _ _ _ => policies _
    · exact policies s
  unfold alter
  dsimp only
  split
  · have names (hk : k) := isWritable_change_name (hr hk) (hn hk)
    refine .bind (.ofFine (fine_name fun hk => (names hk).1)) fun _ _ _ => ?_
    refine .bind (.ofFine (fine_name fun hk => (names hk).2)) fun _ _ _ => ?_
    exact .bind (.change rfl) fun _ _ _ => owner _
  · exact owner s

theorem name_ne_null {r : Resource} {default : String} (h : ofResource r default = .ok sch) :
    Fields.value r.values "name" ≠ .null := by
  unfold ofResource at h
  obtain ⟨_, _, h⟩ := exists_of_bind_eq_ok h
  obtain ⟨name, hn, _⟩ := exists_of_bind_eq_ok h
  intro hnull
  unfold Resource.required Resource.get? at hn
  rw [hnull] at hn
  cases hn

theorem surfaces_alteration {s : Standing σ} {r : Resource} (hc : k → c.Writable)
    (hs : k → sch.Writable) (hr : k → r.Typed) (hn : k → Fields.value r.values "name" ≠ .null) :
    Surfaces k (do
      let owners ← owners (r.change "owner").1 sch.owner
      Task.elevatedAll owners (← c.actorRole) (sch.alter r) : Task σ Unit) s fun _ => True := by
  have given (hk : k) : ∀ v ∈ [if (r.change "owner").1.truthy then (r.change "owner").1 else "",
      Value.text sch.owner], v.IsWritable := by
    refine List.forall_mem_cons.mpr ⟨?_, List.forall_mem_singleton.mpr (isWritable_owner (hs hk))⟩
    split
    · rename_i ht
      refine (typed_change (hr hk)).1.resolve_left fun hnull => ?_
      rw [hnull] at ht
      cases ht
    · exact ⟨"", rfl, by decide⟩
  refine .bind (surfaces_distinct given) fun owners _ ho => ?_
  refine .bind (Client.surfaces_actorRole fun hk => (hc hk).actor) fun actor _ ha => ?_
  exact .elevatedAll ho ha fun _ => surfaces_alter hr hn

theorem surfaces_update (hc : k → c.Writable) (hs : k → s.work.Typed) :
    Surfaces k (update c) s fun _ => True := by
  refine .work_bind (.bindSpares (.ofExcept _) (P := fun sch =>
    ((∀ d ∈ sch.policies, d.OfPolicy) ∧ (k → sch.Writable)) ∧
      Fields.value s.work.values "name" ≠ .null) ?_ fun sch s₁ hsch hw => ?_)
  · refine .ofExcept (fine_ofResource hs) fun sch h => ⟨⟨(spec_ofResource h).1, fun hk => ?_⟩,
      name_ne_null h⟩
    exact (spec_ofResource h).2 (hs hk) (hc hk).database
  · have typed := hs
    rw [← hw] at hs
    split
    · exact .fail_bind rfl fun _ => rfl
    · exact .locked (surfaces_settled Allowance.not_records_confined
        (block_alteration sch c s.work _) hsch.1.2 hs
        fun _ => surfaces_alteration hc hsch.1.2 typed fun _ => hsch.2)

theorem forgives_delete (hc : k → c.Writable) (hs : k → s.work.Typed) :
    Forgives k (delete c) s := by
  refine .work_bind (.bindSpares (.ofExcept _) (surfaces_ofResource hc hs)
    fun sch s₁ hsch hw => .removal (.committed fun _ _ => ?_))
  refine .bind (Client.surfaces_actorRole fun hk => (hc hk).actor) fun actor _ ha => ?_
  exact .elevated (fun hk => isWritable_owner (hsch.2 hk)) ha fun _ => .change rfl

theorem surfaces_exists (hc : k → c.Writable) (hs : k → s.work.Typed) :
    Surfaces k («exists» c) s fun _ => True := by
  refine .work_bind (.bind (surfaces_databaseAndName hc hs) fun d s₁ hd => .locked ?_)
  refine .bind (.transaction fun _ _ => Catalog.surfaces_databaseExists fun hk => (hd hk).1)
    fun found _ _ => ?_
  split
  · exact .pure trivial
  · refine .bind (.ofFine (fine_name fun hk => (hd hk).1)) fun database _ _ => ?_
    exact .transaction fun _ _ => Catalog.surfaces_schemaExists fun hk => (hd hk).2

end Schema

/-! ## Memberships -/

namespace Membership

variable {s : Standing Resource}

theorem surfaces_addMembers {s : Standing σ} {role : String} {members : List String} :
    Surfaces k (addMembers role members : Task σ Unit) s fun _ => True :=
  .forM fun _ _ _ => .change rfl

theorem surfaces_removeMembers {s : Standing σ} {role : String} {members : List String} :
    Surfaces k (removeMembers role members : Task σ Unit) s fun _ => True :=
  .forM fun _ _ _ => .change rfl

theorem surfaces_refresh {role : String} (hr : k → '\x00' ∉ role.toList) :
    Surfaces k (refresh c role) s fun _ => True := by
  have look (s : Standing Resource) : Surfaces k (look role) s fun _ => True := by
    refine .bind (Catalog.surfaces_roleExists hr) fun there _ _ => ?_
    split
    · exact .bind (Catalog.surfaces_roleMembers hr) fun _ _ _ => .pure trivial
    · exact .changeWork_bind (.pure trivial)
  unfold refresh
  refine .bind (.transaction fun s _ => look s) fun found _ _ => ?_
  split
  · exact .pure trivial
  · exact .changeWork trivial

theorem surfaces_ofResource {s₀ : Standing Resource} {r : Resource} (hr : k → r.Typed) :
    Surfaces k (Task.ofExcept (ofResource r)) s₀ fun m => k → '\x00' ∉ m.role.toList :=
  .ofExcept (fine_ofResource hr) fun _ h hk => writable_ofResource (hr hk) h

theorem surfaces_create (hs : k → s.work.Typed) : Surfaces k (create c) s fun _ => True := by
  refine .work_bind (.bind (surfaces_ofResource hs) fun m _ hm => .locked ?_)
  refine .bind (.committed fun _ _ => surfaces_addMembers) fun _ _ _ => ?_
  exact .changeWork_bind (surfaces_refresh hm)

theorem surfaces_read (hs : k → s.work.Typed) : Surfaces k (read c) s fun _ => True :=
  .work_bind (.bind (surfaces_ofResource hs) fun _ _ hm => .locked (surfaces_refresh hm))

theorem givesTexts_change {r : Resource} (hr : r.Typed) :
    (r.change "members").1.GivesTexts ∧ (r.change "members").2.GivesTexts := by
  unfold Resource.change
  cases hp : r.previous with
  | none => exact ⟨hr.values.texts _ (by decide), hr.values.texts _ (by decide)⟩
  | some p => exact ⟨(hr.previous p hp).1.texts _ (by decide), hr.values.texts _ (by decide)⟩

theorem surfaces_replaceMembers {s : Standing σ} {role : String} {old new : List Value}
    (ho : k → ∀ v ∈ old, v.IsWritable) (hn : k → ∀ v ∈ new, v.IsWritable) :
    Surfaces k (replaceMembers role old new : Task σ Unit) s fun _ => True := by
  refine .bind (.ofFine (fine_memberNames ho)) fun _ _ _ => ?_
  refine .bind (.ofFine (fine_memberNames hn)) fun _ _ _ => ?_
  exact .bind surfaces_removeMembers fun _ _ _ => surfaces_addMembers

theorem surfaces_memberSet {v : Value} (hv : k → v.GivesTexts) :
    Surfaces k (Task.ofExcept (memberSet v)) s fun vs => k → ∀ w ∈ vs, w.IsWritable :=
  .ofExcept (fine_memberSet hv) fun _ h hk => writable_memberSet (hv hk) h

theorem surfaces_update (hs : k → s.work.Typed) : Surfaces k (update c) s fun _ => True := by
  refine .work_bind (.bind (surfaces_ofResource hs) fun m _ hm => .locked ?_)
  split
  · refine .bind (surfaces_memberSet fun hk => (givesTexts_change (hs hk)).1) fun _ _ ho => ?_
    refine .bind (surfaces_memberSet fun hk => (givesTexts_change (hs hk)).2) fun _ _ hn => ?_
    exact .bind (.committed fun _ _ => surfaces_replaceMembers ho hn)
      fun _ _ _ => surfaces_refresh hm
  · exact surfaces_refresh hm

theorem surfaces_delete (hs : k → s.work.Typed) : Surfaces k (delete c) s fun _ => True := by
  refine .work_bind (.bind (surfaces_ofResource hs) fun m _ _ => ?_)
  exact .bind (.locked (.committed fun _ _ => surfaces_removeMembers))
    fun _ _ _ => .changeWork trivial

end Membership

/-! ## Extensions -/

namespace Extension

variable {s : Standing Resource} {e : Extension}

theorem surfaces_declared (hc : k → c.Writable) (hs : k → s.work.Typed) :
    Surfaces k (declared c) s fun e => k → e.Writable := by
  refine .bindSpares (.require c _ _) (.require c _ _) fun _ s₁ _ hw => .work_bind ?_
  rw [hw]
  exact .ofExcept fine_ofResource fun e h hk => writable_ofResource (hs hk) (hc hk).database h

theorem surfaces_extension {s : Standing σ} (he : k → e.Writable) : Surfaces k
    (Catalog.extension e.name : Task σ (Option (Value × Value))) s fun _ => True :=
  Catalog.surfaces_extension fun hk => he hk _ (by simp)

theorem surfaces_refresh (he : k → e.Writable) : Surfaces k (e.refresh c) s fun _ => True := by
  unfold refresh
  refine .bind (.transaction fun _ _ => surfaces_extension he) fun found _ _ => ?_
  split
  · exact .changeWork trivial
  · exact .changeWork trivial

theorem surfaces_create (hc : k → c.Writable) (hs : k → s.work.Typed) :
    Surfaces k (create c) s fun _ => True := by
  refine .bind (surfaces_declared hc hs) fun e _ he => .locked ?_
  refine .bind (.committed fun _ _ => .changeOf fun hk => ?_) fun _ _ _ =>
    .changeWork_bind (surfaces_refresh he)
  have schema : Sql.Writable (Sql.unlessEmpty e.schema) := Sql.writable_unlessEmpty (he hk _ (by simp))
  have version : Sql.Writable (Sql.unlessEmpty e.version) := Sql.writable_unlessEmpty (he hk _ (by simp))
  exact Sql.Change.exists_text_of_writable
    (writable_cons.mpr ⟨he hk _ (by simp), writable_append.mpr ⟨schema, version⟩⟩)

theorem surfaces_read (hc : k → c.Writable) (hs : k → s.work.Typed) :
    Surfaces k (read c) s fun _ => True :=
  .bind (surfaces_declared hc hs) fun _ _ he => .locked (surfaces_refresh he)

theorem surfaces_alter {s : Standing σ} {r : Resource} (he : k → e.Writable) :
    Surfaces k (e.alter r : Task σ Unit) s fun _ => True := by
  have version (s : Standing σ) : Surfaces k (if r.hasChange "version" then
      Catalog.updateExtension e.name e.version else pure () : Task σ Unit) s fun _ => True := by
    split
    · refine .changeOf fun hk => Sql.Change.exists_text_of_writable ?_
      exact writable_cons.mpr ⟨he hk _ (by simp), Sql.writable_unlessEmpty (he hk _ (by simp))⟩
    · exact .pure trivial
  unfold alter
  dsimp only
  split
  · exact .bind (.change rfl) fun _ _ _ => version _
  · exact version s

theorem surfaces_update (hc : k → c.Writable) (hs : k → s.work.Typed) :
    Surfaces k (update c) s fun _ => True := by
  refine .bind (surfaces_declared hc hs) fun e s₁ he => .work_bind ?_
  have move (s₂ : Standing Resource) : Surfaces k (Task.locked .write do
      c.committed e.database (e.alter s₁.work)
      e.refresh c) s₂ fun _ => True :=
    .locked (.bind (.committed fun _ _ => surfaces_alter he) fun _ _ _ => surfaces_refresh he)
  dsimp only
  split
  · exact .fail_bind rfl fun _ => rfl
  · exact move s₁

theorem forgives_delete (hc : k → c.Writable) (hs : k → s.work.Typed) :
    Forgives k (delete c) s := by
  have spares : Spares (declared c) :=
    .bind (.require c _ _) fun _ => .bind .work fun _ => .ofExcept _
  exact .bindSpares spares (surfaces_declared hc hs) fun e _ _ _ =>
    .removal (.committed fun _ _ => .change rfl)

theorem surfaces_exists (hc : k → c.Writable) (hs : k → s.work.Typed) :
    Surfaces k («exists» c) s fun _ => True :=
  .bind (surfaces_declared hc hs) fun _ _ he => .locked
    (.bind (.transaction fun _ _ => surfaces_extension he) fun _ _ _ => .pure trivial)

end Extension

end DeclaredAccess
