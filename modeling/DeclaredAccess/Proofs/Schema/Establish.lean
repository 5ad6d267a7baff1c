import DeclaredAccess.Proofs.Catalog.Cluster
import DeclaredAccess.Proofs.Policy.Block
import DeclaredAccess.Schema.Reconcile

/-! What the creation of a schema writes. The block creates the schema, of which nobody holds anything
yet, and each grant of a merged declaration adds to that; so in the end every role holds what is
declared for it, in its exact spelling. A membership that is granted for the time of the block changes
no schema. -/

namespace DeclaredAccess

open Sql (Change writable_cons writable_nil)

variable {σ α : Type} {cluster : Cluster} {s : Standing σ} {k : SchemaJournal} {c : Client}

theorem Schemas.put_put (w : Schemas) (database name : String) (x y : KeptSchema) :
    (w.put database name x).put database name y = w.put database name y := by
  funext d n
  unfold put
  split <;> rfl

theorem Schemas.get_put (w : Schemas) (database name : String) (x : KeptSchema) :
    w.put database name x database name = some x := if_pos ⟨rfl, rfl⟩

/-- Every role holds on the schema what is declared for it. -/
def KeptSchema.Holds (y : KeptSchema) (ds : List Declaration) : Prop :=
  ∀ role, y.held role = Declaration.givenBy ds role

namespace Cluster

/-! ## Elevations -/

theorem leads_actorRole (hc : '\x00' ∉ c.actor.toList) :
    cluster.server.Leads (c.actorRole : Task σ Value) s k fun v s' k' =>
      s' = s ∧ k' = k ∧ ∃ actor : String, v = .text actor ∧ '\x00' ∉ actor.toList := by
  refine (cluster.willing.leads_actorRole fun rows hr => hr).mono fun v s' k' ⟨hs, hk, hv⟩ => ?_
  refine ⟨hs, hk, _, hv, ?_⟩
  split
  · exact cluster.plain_user
  · exact hc

/-- In a transaction on the database, the task turns schemas of which `P` holds into others by `R`, and
leaves the resource as it is. -/
def Turns (cluster : Cluster) (database : String) (x : Task σ α) (P : Schemas → Prop)
    (R : Schemas → Schemas → Prop) : Prop :=
  ∀ (s : Standing σ) (k : SchemaJournal), k.database = database → P k.seen →
    cluster.server.Leads x s k fun _ s' k' => s'.work = s.work ∧ ∃ w, k' = k.write w ∧ R k.seen w

variable {database : String} {P : Schemas → Prop} {R : Schemas → Schemas → Prop} {x : Task σ α}

theorem Turns.asMember (h : cluster.Turns database x P R) (group member : String) :
    cluster.Turns database (Task.asMember group member x) P R := by
  intro s k hk hp
  refine .bind (leads_change rfl fun w hw => .bind (.attempt (cluster.willing.leads_savepoint ?_)))
  obtain rfl : w = k.seen := hw
  refine (h s ((k.write k.seen).mark .savepoint) hk hp).mono ?_
  rintro v s₁ _ ⟨hs, w, rfl, hr⟩
  -- what was written in the savepoint is written in the transaction
  change cluster.server.Leads _ s₁ (k.write w) _
  refine .bind (leads_change rfl fun w' hw' => .pure ⟨hs, w, ?_, hr⟩)
  obtain rfl : w' = w := hw'
  rfl

/-- Whether the block is run as a member of a role or not, the schemas become what it makes of them. -/
theorem Turns.elevated (h : cluster.Turns database x P R) {role actor : String}
    (hr : '\x00' ∉ role.toList) (ha : '\x00' ∉ actor.toList) :
    cluster.Turns database (Task.elevated (.text role) (.text actor) x) P R := by
  intro s k hk hp
  rw [Task.elevated_eq]
  have elevation := cluster.willing.leads_elevationFor (s := s) (k := k) (P := True) hr ha
    (fun _ h => h) fun _ ⟨v, hv⟩ => ⟨v, hv, fun _ => trivial⟩
  refine .bind (elevation.mono fun m s₁ k₁ hq => ?_)
  obtain ⟨rfl, rfl, _⟩ := hq
  cases m with
  | none => exact h _ _ hk hp
  | some m => exact h.asMember m.1 m.2 _ _ hk hp

/-! ## The block -/

/-- A schema that is not there is created; nobody holds anything on it yet. -/
theorem leads_establish {x : Schema} (hn : '\x00' ∉ x.name.toList)
    (hnone : k.seen k.database x.name = none) :
    cluster.server.Leads (x.establish c : Task σ Unit) s k fun _ s' k' => s'.work = s.work ∧
      k' = k.write (k.seen.put k.database x.name { owner := cluster.ownerOr x.owner }) := by
  unfold Schema.establish
  refine .bind (cluster.willing.leads_askOne rfl ?_ fun rows ⟨v, hv, hsays⟩ => ⟨v, hv, ?_⟩)
  · exact writable_cons.mpr ⟨hn, writable_nil⟩
  · have absent : v.truthy = false := by simpa [hnone] using hsays
    rw [absent]
    have created {s₁ : Standing σ} (hs : s₁.work = s.work) (ifNotExists : Bool) :
        cluster.server.Leads (Catalog.createSchema x.name x.owner ifNotExists) s₁ k fun _ s' k' =>
          s'.work = s.work ∧
            k' = k.write (k.seen.put k.database x.name { owner := cluster.ownerOr x.owner }) :=
      leads_change rfl fun w hw => ⟨hs, congrArg k.write (hw hnone)⟩
    by_cases hi : x.ifNotExists = true
    · simp only [hi, if_true]
      refine .bind ((leads_supports c _).mono fun b s₁ k₁ hq => ?_)
      obtain ⟨hs, rfl⟩ := hq
      exact created hs b
    · simp only [hi]
      exact created rfl false

/-! ## Grants -/

/-- The targets that name a schema. -/
def covers (name : String) (t : Target) : Bool := decide (t = Schema.target name)

theorem covers_target (name : String) : covers name (Schema.target name) = true := decide_eq_true rfl

theorem held_give (y : KeptSchema) (name role : String) (privileges : PrivilegeSet) (option : Bool) :
    (y.give (.ofGrant privileges role option)).held = (Change.grant privileges (Schema.target name)
      role option).effect (covers name) y.held := by
  funext r
  rw [KeptSchema.held, KeptSchema.give, List.map_append, Share.ofRole_append]
  show y.held r ∪ Share.ofRole [Acl.share (.ofGrant privileges role option)] r = _
  rw [Share.ofRole_singleton]
  by_cases hr : r = role
  · rw [if_pos (show r = (Acl.share (.ofGrant privileges role option)).role from hr)]
    simp only [Change.effect, covers_target, hr, and_self, if_true]
    rfl
  · rw [if_neg (show ¬r = (Acl.share (.ofGrant privileges role option)).role from hr)]
    simp only [Change.effect, hr, and_false, if_false, Holding.union_empty]

/-- What is granted in statements about a schema is added up. -/
theorem leads_grants {name intent : String} {cs : List Change}
    (hcs : ∀ c ∈ cs, ∃ privileges role option,
      c = .grant privileges (Schema.target name) role option) (w : Schemas) (y : KeptSchema) :
    cluster.server.Leads (cs.forM fun c => Catalog.change c intent) s
      (k.write (w.put k.database name y)) fun _ s' k' => s' = s ∧ ∃ y' : KeptSchema,
        k' = k.write (w.put k.database name y') ∧ y'.owner = y.owner ∧
          y'.held = Change.effects (covers name) cs y.held := by
  induction cs generalizing y with
  | nil => exact .pure ⟨rfl, y, rfl, rfl, rfl⟩
  | cons c cs ih =>
    obtain ⟨⟨privileges, role, option, rfl⟩, hrest⟩ := List.forall_mem_cons.mp hcs
    refine .bind (leads_change rfl fun w' hw' => ?_)
    obtain rfl : w' = w.put k.database name (y.give (.ofGrant privileges role option)) :=
      (hw' y rfl (w.get_put _ _ y)).trans (w.put_put _ _ y _)
    refine (ih hrest _).mono fun _ s' k' ⟨hs, y', hk, ho, hh⟩ => ?_
    refine ⟨hs, y', hk, ho, ?_⟩
    rw [hh, held_give]
    rfl

/-- The grants of one merged policy. -/
def grantPolicy (x : Schema) (d : Declaration) : Task σ Unit := do
  (← Acl.grants (Schema.target x.name) (← d.toAcl)).forM fun statement =>
    Catalog.change statement
      ("granting privileges on schema " ++ x.name ++ " to role " ++ Role.label d.role)

theorem leads_grantAll {x : Schema} {l : Keyed Declaration} (hl : ∀ e ∈ l, e.2.OfPolicy) (w : Schemas)
    (y : KeptSchema) : cluster.server.Leads (l.forM fun e => grantPolicy x e.2) s
      (k.write (w.put k.database x.name y)) fun _ s' k' => s' = s ∧ ∃ y' : KeptSchema,
        k' = k.write (w.put k.database x.name y') ∧ y'.owner = y.owner ∧
          y'.held = Change.effects (covers x.name)
            ((l.map (·.2)).flatMap (Declaration.raising (Schema.target x.name))) y.held := by
  induction l generalizing y with
  | nil => exact .pure ⟨rfl, y, rfl, rfl, rfl⟩
  | cons e l ih =>
    obtain ⟨he, hl⟩ := List.forall_mem_cons.mp hl
    have fits : e.2.Fits (Schema.target x.name).kind := he.fits
    obtain ⟨a, ha, _, hgrants⟩ := Declaration.exists_toAcl fits
    have raised : ∀ c ∈ e.2.raising (Schema.target x.name), ∃ privileges role option,
        c = .grant privileges (Schema.target x.name) role option := fun c hc => by
      obtain ⟨privileges, option, hc⟩ := Declaration.mem_raising hc
      exact ⟨privileges, _, option, hc⟩
    refine .bind (.bind (.ofConflict ha (.bind (.ofConflict hgrants ?_))))
    refine (leads_grants raised w y).mono fun _ s₁ k₁ ⟨hs, y₁, hk, ho, hh⟩ => ?_
    subst hs hk
    refine (ih hl y₁).mono fun _ s' k' ⟨hs, y', hk, ho', hh'⟩ => ⟨hs, y', hk, ho'.trans ho, ?_⟩
    rw [hh', hh, List.map_cons, List.flatMap_cons, Change.effects_append]

/-- The policies on a schema become grants on it, which add up to what is declared. -/
theorem leads_grantPolicies {x : Schema} (hp : ∀ d ∈ x.policies, d.OfPolicy) (w : Schemas)
    (owner : String) : cluster.server.Leads (x.grantPolicies : Task σ Unit) s
      (k.write (w.put k.database x.name { owner })) fun _ s' k' => s' = s ∧ ∃ y : KeptSchema,
        k' = k.write (w.put k.database x.name y) ∧ y.owner = owner ∧ y.Holds x.policies := by
  obtain ⟨m, hm, hi⟩ := Declaration.exists_byRole hp
  have sorted : ∀ e ∈ m.sorted, e.2.OfPolicy := fun e he =>
    (hi.entry e ((Keyed.sorted_perm m).mem_iff.mp he)).2
  refine .bind (.ofConflict hm ?_)
  refine (leads_grantAll sorted w _).mono fun _ s' k' ⟨hs, y, hk, ho, hh⟩ => ⟨hs, y, hk, ho, ?_⟩
  intro role
  have fits : m.Indexed Declaration.key (Declaration.Fits (Schema.target x.name).kind) :=
    hi.mono fun _ hd => hd.fits
  rw [hh, Declaration.givenBy_of_byRole hm,
    PolicyDiff.effects_raised_all fits (covers_target x.name) rfl]

/-- What a created schema is like: whose it is, and that every role holds what is declared for it. -/
def Created (cluster : Cluster) (database : String) (x : Schema) (w w' : Schemas) : Prop :=
  ∃ y : KeptSchema, w' = w.put database x.name y ∧ y.owner = cluster.ownerOr x.owner ∧
    y.Holds x.policies

/-- The block of a creation, where the schema is not there. -/
theorem turns_creation {x : Schema} (hn : '\x00' ∉ x.name.toList)
    (hp : ∀ d ∈ x.policies, d.OfPolicy) (database : String) :
    cluster.Turns database (do
        x.establish c
        x.grantPolicies : Task σ Unit)
      (fun w => w database x.name = none) (cluster.Created database x) := by
  intro s k hk hnone
  subst hk
  refine .bind ((leads_establish hn hnone).mono fun _ s₁ k₁ ⟨hs, hk₁⟩ => ?_)
  subst hk₁
  refine (leads_grantPolicies hp _ _).mono fun _ s' k' ⟨hs', y, hk', ho, hh⟩ => ?_
  exact ⟨by rw [hs', hs], _, hk', y, rfl, ho, hh⟩

end Cluster

end DeclaredAccess
