import DeclaredAccess.Proofs.Operation.Answers
import DeclaredAccess.Proofs.Policy.Planwise
import DeclaredAccess.Session.Policy

/-! The parts that the operations share, by what they may fail with: questions to the catalog,
blocks run as a member of several roles, and plans that move a policy. A question can be sent where
its names can be written, and what comes out of it can be used in the next one. -/

namespace DeclaredAccess

open DeclaredAccess.Task (Surfaces)
open Sql (Writable writable_cons writable_append writable_nil)

variable {σ α β : Type} {k : Prop} {s : Standing σ}

/-! ## Texts -/

theorem Sql.Change.exists_text_of_writable {c : Change} (h : Writable c.quoted) :
    ∃ text, Statement.text c = .ok text := by
  obtain ⟨e, hj⟩ := Change.joins h
  obtain ⟨text, ht, _⟩ := Change.exists_read hj
  exact ⟨text, ht⟩

theorem Sql.writable_unlessEmpty {t : String} (h : '\x00' ∉ t.toList) : Writable (unlessEmpty t) := by
  unfold unlessEmpty
  split
  · exact writable_nil
  · exact writable_cons.mpr ⟨h, writable_nil⟩

theorem Value.IsWritable.textOf {v : Value} (h : v.IsWritable) :
    v.text?.isSome = true ∧ Writable (Sql.textOf v) := by
  obtain ⟨t, rfl, ht⟩ := h
  exact ⟨rfl, writable_cons.mpr ⟨ht, writable_nil⟩⟩

theorem Sql.writable_objectsQuoted {t : Target} (hn : '\x00' ∉ t.name.toList)
    (hs : '\x00' ∉ t.schema.toList) (ho : Writable t.objects) : Writable (objectsQuoted t) := by
  have listed (column : String) (hc : '\x00' ∉ column.toList) :
      Writable (listedQuoted column t.objects) := by
    unfold listedQuoted
    split
    · exact writable_nil
    · exact writable_cons.mpr ⟨hc, ho⟩
  unfold objectsQuoted
  split
  · exact writable_cons.mpr ⟨hn, writable_nil⟩
  · exact writable_cons.mpr ⟨hs, listed _ (by decide)⟩
  · exact writable_append.mpr ⟨writable_cons.mpr ⟨hs, writable_kinds.2⟩, listed _ (by decide)⟩
  all_goals
    exact writable_append.mpr ⟨writable_cons.mpr ⟨hs, writable_kinds.1⟩, listed _ (by decide)⟩

theorem Grant.legible_objectPrivileges {g : Grant} (hg : g.Writable) :
    (Sql.Query.objectPrivileges g.role g.target).Legible := by
  obtain ⟨hrole, hrest⟩ := writable_cons.mp hg
  obtain ⟨hdatabase, hrest⟩ := writable_cons.mp hrest
  obtain ⟨hschema, hobjects⟩ := writable_cons.mp hrest
  have hletter : ∀ kind : ObjectKind, '\x00' ∉ (Sql.defaultsLetter kind).toList := by
    intro kind
    cases kind <;> decide
  have hempty : '\x00' ∉ "".toList := by decide
  refine ⟨rfl, writable_append.mpr ⟨?_, writable_cons.mpr ⟨hletter _,
    Sql.writable_unlessEmpty hrole⟩⟩⟩
  unfold target
  split
  · exact Sql.writable_objectsQuoted hdatabase hempty writable_nil
  · exact Sql.writable_objectsQuoted hempty hschema hobjects

/-! ## Roles -/

section

variable {vs : List Value}

theorem surfaces_distinct (hv : k → ∀ v ∈ vs, v.IsWritable) :
    Surfaces k (Task.ofExcept (Value.distinct vs) : Task σ _) s fun ws =>
      k → ∀ v ∈ ws, v.IsWritable :=
  .ofExcept (fine_distinct hv) fun _ h hk => writable_distinct (hv hk) h

theorem surfaces_inOrder (hv : k → ∀ v ∈ vs, v.IsWritable) :
    Surfaces k (Task.ofExcept (Value.inOrder vs) : Task σ _) s fun ws =>
      k → ∀ v ∈ ws, v.IsWritable :=
  .ofExcept (fine_inOrder fun hk v hm => (hv hk v hm).imp fun _ h => h.1)
    fun _ h hk => writable_inOrder (hv hk) h

end

/-! ## Questions -/

namespace Catalog

theorem surfaces_roleExists {role : String} (hr : k → '\x00' ∉ role.toList) :
    Surfaces k (roleExists role : Task σ Value) s fun _ => True :=
  .asked (fun hk => ⟨rfl, writable_cons.mpr ⟨hr hk, writable_nil⟩⟩) fun _ h => h

theorem surfaces_databaseExists {v : Value} (hv : k → v.IsWritable) :
    Surfaces k (databaseExists v : Task σ Value) s fun _ => True :=
  .asked (fun hk => ⟨by simp [Sql.Query.values, (hv hk).textOf.1], (hv hk).textOf.2⟩)
    fun _ h => h

theorem surfaces_schemaExists {v : Value} (hv : k → v.IsWritable) :
    Surfaces k (schemaExists v : Task σ Value) s fun _ => True :=
  .asked (fun hk => ⟨by simp [Sql.Query.values, (hv hk).textOf.1], (hv hk).textOf.2⟩)
    fun _ h => h

/-- Owner and entries are texts. -/
theorem surfaces_schema {v : Value} (hv : k → v.IsWritable) :
    Surfaces k (schema v : Task σ (Option (Value × List Value))) s fun found =>
      ∀ owner entries, found = some (owner, entries) →
        k → owner.IsWritable ∧ ∀ w ∈ entries, ∃ t, w = .text t := by
  unfold schema
  have legible (hk : k) : (Sql.Query.schema v).Legible :=
    ⟨by simp [Sql.Query.values, (hv hk).textOf.1], writable_cons.mpr ⟨by decide, (hv hk).textOf.2⟩⟩
  refine .bind (.query legible) fun rows _ hr => ?_
  split
  · refine .pure fun owner entries h => ?_
    cases h
  · split
    · rename_i owner acl _ entries hi
      refine .pure fun owner' entries' h hk => ?_
      cases h
      rcases hr hk with h | ⟨owner, items, h, ho, hall⟩
      · cases h
      · cases h
        cases hi
        exact ⟨ho, hall⟩
    · rename_i hi
      refine .fail rfl fun hk => ?_
      rcases hr hk with h | ⟨owner, items, h, _⟩
      · cases h
      · cases h
        cases hi
  · rename_i hnil hcons
    refine .fail rfl fun hk => ?_
    rcases hr hk with h | ⟨owner, items, h, _⟩
    · exact absurd h hnil
    · exact absurd h (hcons _ _ _)

theorem surfaces_relationOwners {schema : String} (hs : k → '\x00' ∉ schema.toList) :
    Surfaces k (relationOwners schema : Task σ (List Value)) s fun vs =>
      k → ∀ v ∈ vs, v.IsWritable := by
  have kinds : Writable (Sql.tableKinds ++ Sql.sequenceKinds) :=
    writable_append.mpr ⟨Sql.writable_kinds.1, Sql.writable_kinds.2⟩
  refine .bind (.query fun hk => ⟨rfl, writable_cons.mpr ⟨hs hk, kinds⟩⟩) fun rows _ hr => ?_
  refine .ofExcept (fine_column fun hk => (hr hk).imp fun _ h => h.1) fun vs hvs hk => ?_
  obtain ⟨owners, rfl, ho⟩ := hr hk
  cases column_map.symm.trans hvs
  exact ho

theorem surfaces_ownersIn {schema : String} (hs : k → '\x00' ∉ schema.toList) :
    Surfaces k (ownersIn schema : Task σ (List Value)) s fun vs => k → ∀ v ∈ vs, v.IsWritable := by
  unfold ownersIn
  refine .bind (surfaces_relationOwners hs) fun found _ hf => ?_
  refine .bind (surfaces_distinct hf) fun owners _ ho => ?_
  refine .bind (surfaces_schema fun hk => ⟨schema, rfl, hs hk⟩) fun there _ ht => ?_
  split
  · rename_i owner entries
    have both (hk : k) : ∀ v ∈ owners ++ [owner], v.IsWritable :=
      List.forall_mem_append.mpr ⟨ho hk, List.forall_mem_singleton.mpr (ht _ _ rfl hk).1⟩
    exact .bind (surfaces_distinct both) fun _ _ ha => surfaces_inOrder ha
  · exact surfaces_inOrder ho

theorem surfaces_objectPrivileges {role : String} {target : Target}
    (hl : k → (Sql.Query.objectPrivileges role target).Legible) :
    Surfaces k (objectPrivileges role target : Task σ Holdings) s fun found =>
      k → ∀ v ∈ found.names, ∃ t, v = .text t :=
  .bind (.query hl) fun _ _ hr =>
    .ofExcept (fine_ofRows hr) fun _ hf hk => texts_ofRows (hr hk) hf

theorem surfaces_roleMembers {role : String} (hr : k → '\x00' ∉ role.toList) :
    Surfaces k (roleMembers role : Task σ (List Value)) s fun _ => True :=
  .bind (.query fun hk => ⟨rfl, writable_cons.mpr ⟨hr hk, writable_nil⟩⟩) fun _ _ ht =>
    .ofFine (fine_column ht)

theorem surfaces_extension {name : String} (hn : k → '\x00' ∉ name.toList) :
    Surfaces k (extension name : Task σ (Option (Value × Value))) s fun _ => True := by
  unfold extension
  refine .bind (.query fun hk => ⟨rfl, writable_cons.mpr ⟨hn hk, writable_nil⟩⟩) fun rows _ hr => ?_
  split
  · exact .pure trivial
  · exact .pure trivial
  · rename_i hnil hcons
    refine .fail rfl fun hk => ?_
    rcases hr hk with h | ⟨schema, version, h⟩
    · exact absurd h hnil
    · exact absurd h (hcons _ _ _)

end Catalog

theorem Client.surfaces_actorRole {c : Client} (hc : k → '\x00' ∉ c.actor.toList) :
    Surfaces k (c.actorRole : Task σ Value) s fun v => k → v.IsWritable := by
  unfold actorRole
  split
  · exact .askOne (fun _ => ⟨rfl, writable_nil⟩) fun _ h => h
  · exact .pure fun hk => ⟨c.actor, rfl, hc hk⟩

/-! ## Blocks and plans -/

namespace Task

theorem Surfaces.elevatedAll {roles : List Value} {actor : Value} {x : Task σ α} {P : α → Prop}
    (hr : k → ∀ v ∈ roles, v.IsWritable) (ha : k → actor.IsWritable)
    (hx : ∀ s, Surfaces k x s P) : Surfaces k (elevatedAll roles actor x) s P := by
  have kept (hk : k) : ∀ v ∈ roles.filter Value.truthy, v.IsWritable :=
    fun v hv => hr hk v (List.mem_filter.mp hv).1
  refine .bind (surfaces_distinct kept) fun each _ he => ?_
  refine .bind (surfaces_inOrder he) fun ordered s' ho => ?_
  have nested (rs : List Value) (hrs : k → ∀ v ∈ rs, v.IsWritable) (s : Standing σ) :
      Surfaces k (rs.foldr (fun r body => Task.elevated r actor body) x) s P := by
    induction rs generalizing s with
    | nil => exact hx s
    | cons v rs ih =>
      refine .elevated (fun hk => hrs hk v List.mem_cons_self) ha fun s => ?_
      exact ih (fun hk w hw => hrs hk w (List.mem_cons_of_mem v hw)) s
  exact nested ordered ho s'

/-- A plan that is made surfaces if making it does, and is never a conflict. -/
def Makes (k : Prop) (x : ExceptT Conflict (Task σ) α) (P : α → Prop) : Prop :=
  ∀ s : Standing σ, Surfaces k x.run s fun o => ∃ v, o = .ok v ∧ P v

namespace Makes

variable {P : α → Prop} {Q : β → Prop}

theorem pure {v : α} (h : P v) : Makes k (pure v : ExceptT Conflict (Task σ) α) P :=
  fun _ => .pure ⟨v, rfl, h⟩

theorem ofExcept {x : Except Conflict α} {v : α} (hx : x = .ok v) (h : P v) :
    Makes k (liftM x : ExceptT Conflict (Task σ) α) P := by
  subst hx
  exact .pure h

theorem lift {x : Task σ α} (h : ∀ s, Surfaces k x s P) :
    Makes k (liftM x : ExceptT Conflict (Task σ) α) P :=
  fun s => .bind (h s) fun v _ hv => .pure ⟨v, rfl, hv⟩

theorem bind {x : ExceptT Conflict (Task σ) α} {f : α → ExceptT Conflict (Task σ) β}
    (hx : Makes k x P) (hf : ∀ v, P v → Makes k (f v) Q) : Makes k (x >>= f) Q := by
  intro s
  refine .bind (hx s) fun o s' ho => ?_
  obtain ⟨v, rfl, hv⟩ := ho
  exact hf v hv s'

theorem planwise (k : Prop) :
    Planwise fun {α} (x : ExceptT Conflict (Task σ) α) p => Makes k x p where
  pure := pure
  bind := bind

end Makes

end Task

open DeclaredAccess.Task (Makes)

/-- Every change of a list can be sent, whatever its names are. -/
def Sendable (cs : List Sql.Change) : Prop := ∀ c ∈ cs, c.isVersioned = false

theorem Declaration.sendable_lowering {target : Target} (d : Declaration) :
    Sendable (d.lowering target) := by
  intro c hc
  rw [mem_lowering hc]
  rfl

theorem Declaration.sendable_raising {target : Target} (d : Declaration) :
    Sendable (d.raising target) := by
  intro c hc
  obtain ⟨_, _, rfl⟩ := mem_raising hc
  rfl

theorem Task.Surfaces.changes {cs : List Sql.Change} {intent : String} (h : Sendable cs) :
    Surfaces k (cs.forM fun c => Catalog.change c intent : Task σ PUnit) s fun _ => True :=
  .forM fun c hc _ => .change (h c hc)

section

variable {target : Target} {d : Declaration}

theorem makes_lowering (hd : d.Fits target.kind) : Makes k
    (do return (← d.toAcl).revokes target : ExceptT Conflict (Task σ) (List Sql.Change))
    Sendable := by
  obtain ⟨a, ha, hrevokes, _⟩ := Declaration.exists_toAcl hd
  refine .bind (P := fun b => b = a) (.ofExcept ha rfl) fun b hb => .pure ?_
  rw [hb, hrevokes]
  exact d.sendable_lowering

theorem makes_raising (hd : d.Fits target.kind) : Makes k
    (do Acl.grants target (← d.toAcl) : ExceptT Conflict (Task σ) (List Sql.Change)) Sendable := by
  obtain ⟨a, ha, _, hgrants⟩ := Declaration.exists_toAcl hd
  refine .bind (P := fun b => b = a) (.ofExcept ha rfl) fun b hb => ?_
  subst hb
  exact .ofExcept hgrants d.sendable_raising

/-- A plan for a difference that fits is made without a conflict. -/
theorem makes_plan {diff : PolicyDiff} (hd : diff.Fits target.kind)
    {roleExists : String → Task σ Bool}
    (hr : ∀ e ∈ diff.dropped, ∀ s, Surfaces k (roleExists e.2.role) s fun _ => True) :
    Makes k (diff.plan target roleExists) Sendable := by
  refine (Makes.planwise k).plan_forall (fun e he => ?_)
    (fun e he => makes_lowering (hd.updated e he).1) (fun e he => makes_raising (hd.added e he))
    fun e he => makes_raising (hd.updated e he).2
  exact (Makes.planwise k).dropRole (.lift (hr e he)) (fun _ => makes_lowering (hd.dropped e he))
    fun _ _ _ hc => nomatch hc

end

theorem Catalog.surfaces_movePolicy {old new : List Declaration} {name intent : String}
    (ho : ∀ d ∈ old, d.Usable k) (hn : ∀ d ∈ new, d.OfPolicy) :
    Surfaces k (movePolicy old new (Schema.target name) intent : Task σ Nat) s fun _ => True := by
  obtain ⟨diff, hdiff, hfits, hdropped⟩ := PolicyDiff.exists_usable ho hn
  unfold movePolicy
  refine .bind (P := fun d => d = diff) (.ofExcept (.of_ok hdiff) fun d hd => ?_) fun d s₁ hd => ?_
  · cases hd.symm.trans hdiff
    rfl
  · subst hd
    have made : Makes k (d.plan (Schema.target name) fun role => do
        return (← roleExists role).truthy : ExceptT Conflict (Task σ) (List Sql.Change)) Sendable :=
      makes_plan hfits fun e he _ => .bind (surfaces_roleExists (hdropped e he).writable)
        fun _ _ _ => .pure trivial
    refine .bind (made s₁) fun o _ ho => ?_
    obtain ⟨cs, rfl, hcs⟩ := ho
    exact .ofConflict_bind rfl (.bind (.changes hcs) fun _ _ _ => .pure trivial)

end DeclaredAccess
