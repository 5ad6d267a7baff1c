import DeclaredAccess.Proofs.Schema.Drift
import DeclaredAccess.Proofs.Schema.Establish

/-! What a created schema is read as. The entries of the new schema say of each role what is
declared for it; but of a role that is declared without anything they say nothing, while the
declaration stands for something that is missing. So a creation keeps the declared policies exactly
if they give something to every role that they name beside the owner. Either way what it leaves is
what the catalog says, and the reads that follow keep that. -/

namespace DeclaredAccess

open Sql (Writable writable_cons writable_nil)

variable {cluster : Cluster} {y : KeptSchema} {ds : List Declaration} {acls acls' : List Acl}

/-! ## What the entries of a created schema say -/

/-- Every declaration of a role key counts if one of them gives something. -/
theorem Declaration.merged_filter_eq_iff (hd : ∀ d ∈ ds, d.OfPolicy) {k : String} :
    (Share.merged (ds.map share) k).filter (fun x => x.holding ≠ ∅) =
        Share.merged (ds.map share) k ↔
      ∀ d ∈ ds, d.key = k → ∃ e ∈ ds, e.key = k ∧ e.privileges ≠ ∅ := by
  cases hx : Share.merged (ds.map share) k with
  | none =>
    refine iff_of_true rfl fun d hmem hk => ?_
    exact absurd hk (Share.merged_eq_none_iff.mp hx d.share (List.mem_map_of_mem hmem))
  | some x =>
    have something : x.holding ≠ ∅ ↔ ∃ e ∈ ds, e.key = k ∧ e.privileges ≠ ∅ := by
      rw [Share.merged_holding_ne_empty_iff hx]
      constructor
      · rintro ⟨z, hmem, hk, hz⟩
        obtain ⟨e, he, rfl⟩ := List.mem_map.mp hmem
        refine ⟨e, he, hk, fun hp => hz (holding_eq_empty (hd e he).fits ?_)⟩
        exact PrivilegeSet.isEmpty_iff.mpr hp
      · rintro ⟨e, he, hk, hp⟩
        exact ⟨e.share, List.mem_map_of_mem he, hk, fun h => hp (congrArg Holding.privileges h)⟩
    have named : ∃ d ∈ ds, d.share.key = k := by
      have hsome : ¬∀ z ∈ ds.map share, z.key ≠ k := fun h => by
        cases hx.symm.trans (Share.merged_eq_none_iff.mpr h)
      simpa using hsome
    rw [Option.filter_eq_some_iff, decide_eq_true_eq, and_iff_right rfl, something]
    obtain ⟨d, hmem, hk⟩ := named
    exact ⟨fun h _ _ _ => h, fun h => h d hmem hk⟩

namespace KeptSchema

/-- Whoever has an entry beside the owner has something declared, in this spelling. -/
theorem ListedBy.given (hl : y.ListedBy acls) (hy : y.Holds ds) {a : Acl} (ha : a ∈ acls)
    (ho : a.role ≠ y.owner) : Share.ofRole (acls.map Acl.share) a.role =
      Declaration.givenBy ds a.role ∧ Declaration.givenBy ds a.role ≠ ∅ := by
  have heq : Share.ofRole (acls.map Acl.share) a.role = Declaration.givenBy ds a.role :=
    (hl.held_eq _ ho).trans (hy _)
  refine ⟨heq, fun hempty => hl.nonempty a ha ho ?_⟩
  rw [← heq, Share.ofRole_eq_empty_iff] at hempty
  exact Acl.holding_eq_empty_iff.mp (hempty a.share (List.mem_map_of_mem ha) rfl)

/-- The entries say under a role key what is declared there, if that is something. -/
theorem ListedBy.merged_eq (hl : y.ListedBy acls) (hy : y.Holds ds) (hd : ∀ d ∈ ds, d.OfPolicy)
    {k : String} (hk : k ≠ Role.key y.owner) : Share.merged (acls.map Acl.share) k =
      (Share.merged (ds.map Declaration.share) k).filter fun x => x.holding ≠ ∅ := by
  have beside {a : Acl} (ha : a.key = k) : a.role ≠ y.owner :=
    fun he => hk (ha.symm.trans (congrArg Role.key he))
  cases hx : Share.merged (ds.map Declaration.share) k with
  | none =>
    refine Share.merged_eq_none_iff.mpr fun z hmem hz => ?_
    obtain ⟨a, ha, rfl⟩ := List.mem_map.mp hmem
    have hak : Role.key a.role = k := hz
    rw [← hak] at hx
    exact (hl.given hy ha (beside hz)).2 (Declaration.givenBy_of_merged_eq_none hd hx)
  | some x =>
    obtain ⟨hxk, _⟩ := Share.merged_spec hx
    have spelt : ∀ z ∈ acls.map Acl.share, z.key = Role.key x.role → z.role = x.role := by
      intro z hmem hz
      obtain ⟨a, ha, rfl⟩ := List.mem_map.mp hmem
      have hak : Role.key a.role = k := hz.trans hxk
      rw [← hak] at hx
      refine Classical.byContradiction fun hne => (hl.given hy ha (beside hak)).2 ?_
      rw [Declaration.givenBy_of_merged_eq_some hd hx]
      exact if_neg (Ne.symm hne)
    have hrole : x.role ≠ y.owner := fun he => hk (hxk.symm.trans (congrArg Role.key he))
    have held : Share.ofRole (acls.map Acl.share) x.role = x.holding := by
      rw [← show Role.key x.role = k from hxk] at hx
      rw [hl.held_eq _ hrole, hy, Declaration.givenBy_of_merged_eq_some hd hx, if_pos rfl]
    have told : ∀ z ∈ acls.map Acl.share, z.role = x.role → z.holding ≠ ∅ := by
      intro z hmem hz hempty
      obtain ⟨a, ha, rfl⟩ := List.mem_map.mp hmem
      have har : a.role = x.role := hz
      exact hl.nonempty a ha (har ▸ hrole) (Acl.holding_eq_empty_iff.mp hempty)
    rw [← show Role.key x.role = k from hxk, Share.merged_of_held spelt told, held]

/-- Entries stay within what can be held on a schema if the declarations do. -/
theorem ListedBy.subset (hl : y.ListedBy acls) (hy : y.Holds ds) (hd : ∀ d ∈ ds, d.OfPolicy) :
    ∀ a ∈ acls, a.privileges ⊆ ObjectKind.schema.allowed := by
  intro a ha
  by_cases ho : a.role = y.owner
  · exact hl.allowed a ha ho
  · intro p hp
    have held : p ∈ (Share.ofRole (acls.map Acl.share) a.role).privileges :=
      Share.mem_ofRole (List.mem_map_of_mem ha) hp
    rw [(hl.given hy ha ho).1] at held
    exact Declaration.givenBy_subset hd _ p held

/-- The declarations match the entries if each role key but the owner's is given something. -/
theorem ListedBy.matches_iff (hl : y.ListedBy acls) (hy : y.Holds ds) (hd : ∀ d ∈ ds, d.OfPolicy) :
    Schema.Matches y.owner ds acls ↔ ∀ d ∈ ds, d.key ≠ Role.key y.owner →
      ∃ e ∈ ds, e.key = d.key ∧ e.privileges ≠ ∅ := by
  have each (k : String) (hk : k ≠ Role.key y.owner) :
      Share.merged (ds.map Declaration.share) k = Share.merged (acls.map Acl.share) k ↔
        ∀ d ∈ ds, d.key = k → ∃ e ∈ ds, e.key = k ∧ e.privileges ≠ ∅ := by
    rw [hl.merged_eq hy hd hk, eq_comm, Declaration.merged_filter_eq_iff hd]
  constructor
  · exact fun h d hmem hk => (each _ hk).mp (h _ hk) d hmem rfl
  · exact fun h k hk => (each k hk).mpr fun d hmem hdk => hdk ▸ h d hmem (hdk ▸ hk)

/-- What was settled by some entries is accepted by all entries that tell of the same schema. -/
theorem ListedBy.matches_of_matches {ds' : List Declaration} (hl : y.ListedBy acls)
    (hl' : y.ListedBy acls') (hy : y.Holds ds) (hd : ∀ d ∈ ds, d.OfPolicy)
    (h : Schema.Matches y.owner ds' acls) : Schema.Matches y.owner ds' acls' :=
  fun k hk => (h k hk).trans ((hl.merged_eq hy hd hk).trans (hl'.merged_eq hy hd hk).symm)

end KeptSchema

/-! ## Runs -/

theorem Client.databaseOr_databaseOr (c : Client) (database : String) :
    c.databaseOr (c.databaseOr database) = c.databaseOr database := by
  cases hd : database.isEmpty <;> simp [databaseOr, hd]

namespace Schema

variable {c : Client} {database name owner : String} {r r' : Resource} {x : Schema}

theorem of_ofResource {default : String} (h : ofResource r default = .ok x) :
    x.name ≠ "" ∧ Declaration.ofBlocks (r.getD "policy" (.list [])) = .ok x.policies := by
  obtain ⟨_, _, h⟩ := exists_of_bind_eq_ok h
  obtain ⟨_, hname, h⟩ := exists_of_bind_eq_ok h
  obtain ⟨_, _, h⟩ := exists_of_bind_eq_ok h
  obtain ⟨_, hpolicies, h⟩ := exists_of_bind_eq_ok h
  cases h
  exact ⟨Resource.required_ne_empty hname, hpolicies⟩

/-- A resource with a name is read where its fields say. -/
theorem databaseAndName_of_get? (hname : r.get? "name" = some (.text name))
    (hdatabase : r.get? "database" = some (.text database)) (hn : name ≠ "") :
    databaseAndName c r = .ok (.text (c.databaseOr database), .text name) := by
  unfold databaseAndName
  dsimp only
  rw [Resource.getD_of_get? hname, Resource.getD_of_get? hdatabase,
    if_pos (by simpa [Value.truthy] using hn)]
  unfold Client.databaseOr
  cases hd : database.isEmpty <;> simp [Value.truthy, hd]

/-- Where a resource is read that was compared with the catalog. -/
theorem Settled.location (h : Settled database (.text name) owner ds acls r r') (hn : name ≠ "") :
    databaseAndName c r' = .ok (.text (c.databaseOr database), .text name) :=
  databaseAndName_of_get? (h.name_eq Value.noConfusion) h.database_eq hn

/-- The resource stands for the schema that is kept, and declares what is said by all entries that
tell of it. -/
structure Accepted (c : Client) (database name : String) (y : KeptSchema) (k : SchemaJournal)
    (r : Resource) : Prop where
  kept : k.kept (c.databaseOr database) name = some y
  location : databaseAndName c r = .ok (.text (c.databaseOr database), .text name)
  declared : ∃ ds, Declaration.ofBlocks (r.getD "policy" (.list [])) = .ok ds ∧
    ∀ acls, y.ListedBy acls → Matches y.owner ds acls

end Schema

namespace Cluster

variable {σ : Type} {k : SchemaJournal} {c : Client} {database name : String}

theorem leads_schema {s : Standing σ} (hn : '\x00' ∉ name.toList)
    (hy : k.seen k.database name = some y) :
    cluster.server.Leads (Catalog.schema (.text name) : Task σ _) s k fun found s' k' =>
      s' = s ∧ k' = k ∧ ∃ (texts : List String) (acls : List Acl),
        found = some (.text y.owner, texts.map .text) ∧ texts.mapM Acl.Entry.read = .ok acls ∧
          y.ListedBy acls := by
  have writable : Writable (Sql.Query.schema (.text name)).quoted :=
    writable_cons.mpr ⟨by decide, writable_cons.mpr ⟨hn, writable_nil⟩⟩
  refine .bind (cluster.willing.leads_query rfl writable fun rows hr => ?_)
  have hr : cluster.Tells k (.schema (.text name)) rows := hr
  simp only [Tells, hy] at hr
  obtain ⟨texts, acls, rfl, hread, hl⟩ := hr
  exact .pure ⟨rfl, rfl, texts, acls, rfl, hread, hl⟩

/-- What the creation of a schema makes of the resource and of what is kept. -/
structure Creates (cluster : Cluster) (c : Client) (x : Schema) (r : Resource) (k : SchemaJournal)
    (r' : Resource) (k' : SchemaJournal) : Prop where
  accepted : ∃ y : KeptSchema, y.owner = cluster.ownerOr x.owner ∧ y.Holds x.policies ∧
    k' = { k with kept := k.kept.put (c.databaseOr x.database) x.name y } ∧
    Schema.Accepted c x.database x.name y k' r'
  policy_iff : r'.get? "policy" = r.get? "policy" ↔
    ∀ d ∈ x.policies, d.key ≠ Role.key (cluster.ownerOr x.owner) →
      ∃ e ∈ x.policies, e.key = d.key ∧ e.privileges ≠ ∅

variable {s : Standing Resource} {ds' : List Declaration}

/-- A comparison with the catalog leaves the schemas as they are, and settles the policies by some
entries that tell of the schema. -/
theorem leads_refresh (hn : '\x00' ∉ name.toList) (hy : y.Holds ds) (hd : ∀ d ∈ ds, d.OfPolicy)
    (hkept : k.kept (c.databaseOr database) name = some y)
    (hd' : Declaration.ofBlocks (s.work.getD "policy" (.list [])) = .ok ds') :
    cluster.server.Leads (Schema.refresh c database (.text name)) s k fun _ s' k' => k' = k ∧
      ∃ acls, y.ListedBy acls ∧
        Schema.Settled database (.text name) y.owner ds' acls s.work s'.work := by
  have seen : ((k.opened (c.databaseOr database)).mark .begin).seen (c.databaseOr database) name =
    some y := hkept
  refine .bind (cluster.willing.leads_transaction fun s₀ h₀ => (leads_schema hn seen).mono ?_)
  rintro found s₁ k₁ ⟨rfl, rfl, texts, acls, rfl, hread, hl⟩ s₂ h₂
  obtain ⟨r', hsettle, settled⟩ := Schema.exists_settle database (.text name) y.owner hd'
    (Schema.mapM_ofEntry hread) (hl.subset hy hd)
  rw [← h₀.1, ← h₂.1] at hsettle
  exact .bind (.work (.bind (.ofExcept hsettle (.changeWork ⟨rfl, acls, hl, settled⟩))))

/-- A read of an accepted schema keeps the policies, and the schema stays accepted. -/
theorem leads_read (hn : '\x00' ∉ name.toList) (hne : name ≠ "") (hy : y.Holds ds)
    (hd : ∀ d ∈ ds, d.OfPolicy) (h : Schema.Accepted c database name y k s.work) :
    cluster.server.Leads (Schema.read c) s k fun _ s' k' => k' = k ∧
      s'.work.get? "policy" = s.work.get? "policy" ∧
        Schema.Accepted c database name y k s'.work := by
  obtain ⟨ds', hd', hmatches⟩ := h.declared
  have kept := h.kept
  rw [← c.databaseOr_databaseOr] at kept
  refine .bind (.work (.bind (.ofExcept h.location (cluster.willing.leads_locked ?_))))
  refine .bind (.ofExcept rfl ?_)
  refine (leads_refresh hn hy hd kept hd').mono ?_
  rintro _ s' k' ⟨rfl, acls, hl, settled⟩
  refine ⟨rfl, settled.policy_iff.mpr (hmatches acls hl), h.kept, ?_, ?_⟩
  · rw [settled.location hne, c.databaseOr_databaseOr]
  · obtain ⟨found, hfound, hm⟩ := settled.policy_matches
    exact ⟨found, hfound, fun acls' hl' => hl.matches_of_matches hl' hy hd hm⟩

/-- The creation of a schema that is not there. -/
theorem leads_create {x : Schema} (hx : Schema.ofResource s.work c.defaultDatabase = .ok x)
    (hw : Writable [x.name, x.owner, c.actor])
    (hnone : k.kept (c.databaseOr x.database) x.name = none) :
    cluster.server.Leads (Schema.create c) s k fun _ s' k' =>
      cluster.Creates c x s.work k s'.work k' := by
  obtain ⟨hname, hw⟩ := writable_cons.mp hw
  obtain ⟨howner, hw⟩ := writable_cons.mp hw
  obtain ⟨hactor, _⟩ := writable_cons.mp hw
  obtain ⟨hne, hpolicies⟩ := Schema.of_ofResource hx
  have hd := Declaration.ofPolicy_of_ofBlocks hpolicies
  refine .bind (.work (.bind (.ofExcept hx (cluster.willing.leads_locked ?_))))
  refine .bind (cluster.willing.leads_committed fun s₀ h₀ => ?_)
  refine .bind ((leads_actorRole hactor).mono ?_)
  rintro v s₁ k₁ ⟨rfl, rfl, actor, rfl, hv⟩
  have turned : cluster.Turns (c.databaseOr x.database)
      (Task.elevated (.text x.owner) (.text actor) do
        x.establish c
        x.grantPolicies : Task Resource Unit) _ _ :=
    (turns_creation hname hd _).elevated howner hv
  refine (turned s₁ ((k.opened (c.databaseOr x.database)).mark .begin) rfl hnone).mono ?_
  rintro _ s₂ k₂ ⟨h₂, w, rfl, y, rfl, hyo, hy⟩ s₃ h₃
  have work : s₃.work = s.work := (h₃.1.trans h₂).trans h₀.1
  refine .bind (.changeWork ?_)
  let s₄ : Standing Resource := { s₃ with work := s₃.work.setId (Schema.idOf x.database x.name) }
  let k₄ : SchemaJournal := { k with kept := k.kept.put (c.databaseOr x.database) x.name y }
  have kept : k₄.kept (c.databaseOr x.database) x.name = some y := Schemas.get_put ..
  have policies : Declaration.ofBlocks (s₄.work.getD "policy" (.list [])) = .ok x.policies := by
    rw [← hpolicies, ← work]
    rfl
  show cluster.server.Leads (Schema.refresh c x.database (.text x.name)) s₄ k₄ _
  refine (leads_refresh hname hy hd kept policies).mono ?_
  rintro _ s' k' ⟨rfl, acls, hl, settled⟩
  refine ⟨⟨y, hyo, hy, rfl, kept, settled.location hne, ?_⟩, ?_⟩
  · obtain ⟨found, hfound, hm⟩ := settled.policy_matches
    exact ⟨found, hfound, fun acls' hl' => hl.matches_of_matches hl' hy hd hm⟩
  · rw [← hyo, ← hl.matches_iff hy hd, ← settled.policy_iff, ← work]
    rfl

end Cluster

namespace Operation

open DeclaredAccess.Task (Goes)

variable {c : Client} {x : Schema} {s s' : Standing Resource} {k k' : SchemaJournal}

/-- The creation of a schema that is not there returns. -/
theorem leads_createSchema (cluster : Cluster) (k : SchemaJournal)
    (hx : Schema.ofResource s.work c.defaultDatabase = .ok x)
    (hw : Writable [x.name, x.owner, c.actor])
    (hnone : k.kept (c.databaseOr x.database) x.name = none) :
    cluster.server.Leads (createSchema.run c) s k fun v s' k' =>
      v = .null ∧ cluster.Creates c x s.work k s'.work k' :=
  .bind ((Cluster.leads_create hx hw hnone).mono fun _ _ _ h => .pure ⟨rfl, h⟩)

/-- Reads of the schema, one after the other. -/
inductive Rereads (cluster : Cluster) (c : Client) : Standing Resource → SchemaJournal →
    Standing Resource → SchemaJournal → Prop
  | refl {s : Standing Resource} {k : SchemaJournal} : Rereads cluster c s k s k
  | read {s s₁ s' : Standing Resource} {k k₁ k' : SchemaJournal} {t : List Exchange}
    {r : Except Failure Value} (h : Goes (readSchema.run c) s t r s₁)
    (hs : cluster.server.Serves k t k₁) (rest : Rereads cluster c s₁ k₁ s' k') :
    Rereads cluster c s k s' k'

section

variable {database name : String} (hn : '\x00' ∉ name.toList) (hne : name ≠ "") (hy : y.Holds ds)
  (hd : ∀ d ∈ ds, d.OfPolicy)

include hn hne hy hd

/-- One read of an accepted schema. -/
theorem read_accepted (h : Schema.Accepted c database name y k s.work) {t : List Exchange}
    {r : Except Failure Value} (hg : Goes (readSchema.run c) s t r s')
    (hs : cluster.server.Serves k t k') : r = .ok .null ∧ k' = k ∧
      s'.work.get? "policy" = s.work.get? "policy" ∧
        Schema.Accepted c database name y k s'.work := by
  have leads : cluster.server.Leads (readSchema.run c) s k fun v s' k' => v = .null ∧ k' = k ∧
      s'.work.get? "policy" = s.work.get? "policy" ∧ Schema.Accepted c database name y k s'.work :=
    .bind ((Cluster.leads_read hn hne hy hd h).mono fun _ _ _ hq => .pure ⟨rfl, hq⟩)
  obtain ⟨_, rfl, rfl, hq⟩ := leads.of_goes hg hs
  exact ⟨rfl, hq⟩

/-- Any number of reads. -/
theorem Rereads.accepted (h : Schema.Accepted c database name y k s.work)
    (hr : Rereads cluster c s k s' k') : k' = k ∧
      s'.work.get? "policy" = s.work.get? "policy" ∧
        Schema.Accepted c database name y k s'.work := by
  induction hr with
  | refl => exact ⟨rfl, rfl, h⟩
  | read hg hs _ ih =>
    obtain ⟨_, rfl, hpolicy, h₁⟩ := read_accepted hn hne hy hd h hg hs
    obtain ⟨rfl, hpolicy', h'⟩ := ih h₁
    exact ⟨rfl, hpolicy'.trans hpolicy, h'⟩

end

/-- The creation of a schema that is not there returns, and gives every role what is declared for it.
It keeps the declared policies exactly if they give something under every role key that they name
beside the owner's. From then on each read returns and keeps the policies. -/
theorem create_keeps_policy_iff (cluster : Cluster) (k : SchemaJournal)
    (hx : Schema.ofResource s.work c.defaultDatabase = .ok x)
    (hw : Writable [x.name, x.owner, c.actor])
    (hnone : k.kept (c.databaseOr x.database) x.name = none) :
    (∃ t s' k', Goes (createSchema.run c) s t (.ok .null) s' ∧ cluster.server.Serves k t k') ∧
    ∀ t r s' k', Goes (createSchema.run c) s t r s' → cluster.server.Serves k t k' →
      r = .ok .null ∧
      (∃ y : KeptSchema, k'.kept (c.databaseOr x.database) x.name = some y ∧
        y.owner = cluster.ownerOr x.owner ∧
        ∀ role, y.held role = Declaration.givenBy x.policies role) ∧
      (s'.work.get? "policy" = s.work.get? "policy" ↔
        ∀ d ∈ x.policies, d.key ≠ Role.key (cluster.ownerOr x.owner) →
          ∃ e ∈ x.policies, e.key = d.key ∧ e.privileges ≠ ∅) ∧
      ∀ s₁ k₁, Rereads cluster c s' k' s₁ k₁ → ∀ t₂ r₂ s₂ k₂,
        Goes (readSchema.run c) s₁ t₂ r₂ s₂ → cluster.server.Serves k₁ t₂ k₂ →
        r₂ = .ok .null ∧ s₂.work.get? "policy" = s'.work.get? "policy" := by
  have leads := leads_createSchema cluster k hx hw hnone
  refine ⟨?_, fun t r s' k' hg hs => ?_⟩
  · obtain ⟨t, v, s', k', hg, hs, rfl, _⟩ := leads.exists_goes
    exact ⟨t, s', k', hg, hs⟩
  · obtain ⟨_, rfl, rfl, ⟨y, howner, hy, _, accepted⟩, hpolicy⟩ := leads.of_goes hg hs
    refine ⟨rfl, ⟨y, accepted.kept, howner, hy⟩, hpolicy, ?_⟩
    intro s₁ k₁ hr t₂ r₂ s₂ k₂ hg₂ hs₂
    obtain ⟨hne, hpolicies⟩ := Schema.of_ofResource hx
    have hd := Declaration.ofPolicy_of_ofBlocks hpolicies
    have hname := (writable_cons.mp hw).1
    obtain ⟨rfl, hkept, accepted₁⟩ := hr.accepted hname hne hy hd accepted
    obtain ⟨rfl, _, hkept₂, _⟩ := read_accepted hname hne hy hd accepted₁ hg₂ hs₂
    exact ⟨rfl, hkept₂.trans hkept⟩

/-- A schema that is declared with its policies. -/
def declaredSchema (policies : List Value) : Standing Resource where
  session := {}
  work := { values := [("name", .text "s"), ("policy", .list policies)] }

def syncer : Cluster := ⟨"syncer", some [16, 2], by decide⟩

def noSchemas : SchemaJournal where
  kept _ _ := none

/-- A policy that gives something, and policies of the same role and of the owner that do not. -/
def givingPolicies : List Value := [.object [("role", .text "alice"), ("create", .bool true)],
  .object [("role", .text "Alice")], .object [("role", .text "Syncer")]]

theorem create_keeps_policy_iff_giving : ∃ t s' k',
    Goes (createSchema.run .admin) (declaredSchema givingPolicies) t (.ok .null) s' ∧
      syncer.server.Serves noSchemas t k' ∧
      s'.work.get? "policy" = (declaredSchema givingPolicies).work.get? "policy" := by
  have hx : Schema.ofResource (declaredSchema givingPolicies).work Client.admin.defaultDatabase =
      .ok { name := "s", database := "app", policies := [⟨"alice", .ofList [.create], ∅, []⟩,
        ⟨"Alice", ∅, ∅, []⟩, ⟨"Syncer", ∅, ∅, []⟩] } := rfl
  obtain ⟨⟨t, s', k', hg, hs⟩, hall⟩ := create_keeps_policy_iff syncer noSchemas hx
    (by decide) rfl
  obtain ⟨_, _, hpolicy, _⟩ := hall t _ s' k' hg hs
  exact ⟨t, s', k', hg, hs, hpolicy.mpr (by decide)⟩

/-- A policy that gives nothing. -/
def emptyPolicies : List Value := [.object [("role", .text "alice")]]

/-- Policies that give nothing to a role are not kept. -/
theorem create_drops_empty_policy : ¬∀ (cluster : Cluster) (c : Client) (x : Schema)
    (s s' : Standing Resource) (k k' : SchemaJournal) (t : List Exchange) (r : Except Failure Value),
    Schema.ofResource s.work c.defaultDatabase = .ok x → Writable [x.name, x.owner, c.actor] →
    k.kept (c.databaseOr x.database) x.name = none → Goes (createSchema.run c) s t r s' →
    cluster.server.Serves k t k' →
    r = .ok .null ∧ s'.work.get? "policy" = s.work.get? "policy" := by
  intro h
  have hx : Schema.ofResource (declaredSchema emptyPolicies).work Client.admin.defaultDatabase =
      .ok { name := "s", database := "app", policies := [⟨"alice", ∅, ∅, []⟩] } := rfl
  have hw : Writable ["s", "", Client.admin.actor] := by decide
  have leads := leads_createSchema syncer noSchemas hx hw rfl
  obtain ⟨t, _, s', k', hg, hs, _, creates⟩ := leads.exists_goes
  have kept := (h _ _ _ _ _ _ _ _ _ hx hw rfl hg hs).2
  exact absurd (creates.policy_iff.mp kept) (by decide)

end Operation

end DeclaredAccess
