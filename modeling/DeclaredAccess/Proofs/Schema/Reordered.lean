import DeclaredAccess.Proofs.Policy.Reordered
import DeclaredAccess.Proofs.Schema.Accepted
import DeclaredAccess.Proofs.Schema.Withdrawn
import DeclaredAccess.Proofs.Session.Alike

/-! Schemas whose policies come in another order. A creation sends what it would have sent in the
first order, since the policies are merged and granted by role key, and an answer of the catalog is
compared with the merged policies too. An update between the two orders finds nothing to move. -/

namespace DeclaredAccess

open DeclaredAccess.Task (Alike Goes Silent Throughout goes_bind goes_ofExcept goes_work_bind)

variable {σ : Type}

namespace PolicyDiff

open Declaration

variable {old old' new new' : List Declaration}

/-- Policies in another order have the same difference. -/
theorem of_perm (ho : ∀ d ∈ old, d.OfPolicy) (hn : ∀ d ∈ new, d.OfPolicy) (huo : Uniform old)
    (hun : Uniform new) (h : old.Perm old') (h' : new.Perm new') : ∃ d d',
      PolicyDiff.of old new = .ok d ∧ PolicyDiff.of old' new' = .ok d' ∧
        d.hasChanges = d'.hasChanges := by
  obtain ⟨d, hd, _⟩ := exists_of ho hn
  rcases ofLists_perm huo hun h h' with ⟨d, d', hd, hd', _, hc, _⟩ | ⟨e, _, he, _⟩
  · refine ⟨d, d', ?_, ?_, hc⟩
    · rw [PolicyDiff.of, hd]
    · rw [PolicyDiff.of, hd']
  · rw [PolicyDiff.of, he] at hd
    cases hd

/-- Policies do not differ from themselves in another order. -/
theorem of_self_perm (ho : ∀ d ∈ old, d.OfPolicy) (hu : Uniform old) (h : old.Perm old') :
    ∃ d, PolicyDiff.of old old' = .ok d ∧ d.hasChanges = false := by
  obtain ⟨same, hsame, hiff⟩ := exists_of ho ho
  obtain ⟨d, d', hd, hd', hc⟩ := of_perm ho ho hu hu (.refl old) h
  cases hsame.symm.trans hd
  exact ⟨d', hd', hc.symm.trans (hiff.mpr fun _ => rfl)⟩

/-- Where nothing changes, there is nothing to ask and nothing to send. -/
theorem plan_of_unchanged {m : Type → Type} [Monad m] [LawfulMonad m] {d : PolicyDiff}
    (h : d.hasChanges = false) (target : Target) (roleExists : String → m Bool) :
    d.plan target roleExists = pure [] := by
  have none : d.dropped = [] ∧ d.added = [] ∧ d.updated = [] := by
    simpa [hasChanges, and_assoc] using h
  obtain ⟨hd, ha, hu⟩ := none
  unfold plan
  rw [hd, ha, hu]
  simp [Keyed.sorted]

end PolicyDiff

namespace Schema

open Declaration (Uniform)

variable {r r' : Resource} {items items' : List Value} {ds ds' : List Declaration} {x : Schema}
  {c : Client} {database : String} {name owner : Value} {entries : List Value}

/-! ## Resources -/

/-- The policies can only be read in a way in which no role key is spelt in two ways. -/
def SpeltOnce (items : List Value) : Prop :=
  ∀ ds, Declaration.ofBlocks (.list items) = .ok ds → Uniform ds

theorem speltOnce_of_ofBlocks (hd : Declaration.ofBlocks (.list items) = .ok ds)
    (hu : Uniform ds) : SpeltOnce items := by
  intro ds' hd'
  cases hd.symm.trans hd'
  exact hu

/-- Resources that agree in all but the order in which their policies are declared. -/
structure Reordered (r r' : Resource) : Prop where
  id_eq : r'.id = r.id
  others : ∀ key, key ≠ "policy" → r'.get? key = r.get? key
  policies : ∃ ds ds', Declaration.ofBlocks (r.getD "policy" (.list [])) = .ok ds ∧
    Declaration.ofBlocks (r'.getD "policy" (.list [])) = .ok ds' ∧ ds.Perm ds' ∧ Uniform ds

namespace Reordered

theorem setId (h : Reordered r r') (id : String) : Reordered (r.setId id) (r'.setId id) :=
  ⟨rfl, h.others, h.policies⟩

theorem put (h : Reordered r r') {key : String} (hk : key ≠ "policy") (v : Value) :
    Reordered (r.put key v) (r'.put key v) where
  id_eq := h.id_eq
  others key' hk' := by
    by_cases he : key' = key
    · subst he
      simp only [Resource.get?, Resource.put, Fields.value, Keyed.get?_put, if_true]
    · rw [Resource.get?_put_of_ne he, Resource.get?_put_of_ne he, h.others key' hk']
  policies := by
    rw [Resource.getD_congr (Resource.get?_put_of_ne hk.symm),
      Resource.getD_congr (Resource.get?_put_of_ne hk.symm)]
    exact h.policies

/-- Other policies that take their place. -/
theorem putPolicies (h : Reordered r r') {v : Value} (hv : v ≠ .null)
    (hd : Declaration.ofBlocks v = .ok ds) (hu : Uniform ds) :
    Reordered (r.put "policy" v) (r'.put "policy" v) where
  id_eq := h.id_eq
  others key hk := by
    rw [Resource.get?_put_of_ne hk, Resource.get?_put_of_ne hk, h.others key hk]
  policies := by
    rw [Resource.getD_of_get? (Resource.get?_put hv), Resource.getD_of_get? (Resource.get?_put hv)]
    exact ⟨ds, ds, hd, hd, .refl ds, hu⟩

end Reordered

/-- A schema that is declared with its policies in another order. -/
theorem ofResource_reordered {default : String}
    (others : ∀ key, key ≠ "policy" → r'.get? key = r.get? key)
    (hp : r.get? "policy" = some (.list items)) (hp' : r'.get? "policy" = some (.list items'))
    (h : items.Perm items') (hx : ofResource r default = .ok x) :
    ∃ ds, ofResource r' default = .ok { x with policies := ds } ∧ x.policies.Perm ds := by
  obtain ⟨database, hdatabase, hx⟩ := exists_of_bind_eq_ok hx
  obtain ⟨name, hname, hx⟩ := exists_of_bind_eq_ok hx
  obtain ⟨owner, howner, hx⟩ := exists_of_bind_eq_ok hx
  obtain ⟨ds, hds, hx⟩ := exists_of_bind_eq_ok hx
  cases hx
  rw [Resource.getD_of_get? hp] at hds
  obtain ⟨ds', hds', hperm⟩ := exists_perm_of_mapM_ok h hds
  have hdatabase' : r'.database .schema default = .ok database := by
    rw [← hdatabase, Resource.database, Resource.database,
      Resource.optional_congr (others "database" (by decide))]
  have hname' : r'.required .schema "name" = .ok name :=
    (Resource.required_congr (others "name" (by decide))).trans hname
  have howner' : r'.optional "owner" = .ok owner :=
    (Resource.optional_congr (others "owner" (by decide))).trans howner
  have hpolicies : Declaration.ofBlocks (r'.getD "policy" (.list [])) = .ok ds' := by
    rw [Resource.getD_of_get? hp']
    exact hds'
  refine ⟨ds', bind_eq_ok hdatabase' (bind_eq_ok hname' (bind_eq_ok howner'
    (bind_eq_ok hpolicies ?_))), hperm⟩
  rw [Resource.flag_congr (others "if_not_exists" (by decide)),
    Resource.flag_congr (others "drop_cascade" (by decide))]
  rfl

/-! ## What was found -/

/-- What was found by role is spelt in one way for each key. -/
theorem uniform_found {found : List PolicyBlock} (h : policyBeside owner entries = .ok found) :
    ∃ as : List Acl, found = as.map .ofAcl ∧ Uniform (found.map PolicyBlock.declaration) := by
  obtain ⟨acls, _, h⟩ := exists_of_bind_eq_ok h
  cases hm : Acl.byRole acls with
  | error e => rw [hm] at h; cases h
  | ok m =>
    rw [hm] at h
    cases m with
    | nil =>
      cases h
      exact ⟨[], rfl, fun _ ha => by cases ha⟩
    | cons e m =>
      obtain ⟨owner, _, h⟩ := exists_of_bind_eq_ok h
      have hi := Keyed.indexed_gather (P := fun _ => True)
        (fun _ _ _ _ _ h => ⟨trivial, Acl.key_merge h⟩) (fun _ _ => trivial) hm
      cases h
      refine ⟨((Keyed.sorted (e :: m)).filter fun e => e.1 != owner).map (·.2), by simp, ?_⟩
      simp only [Uniform, List.mem_map]
      rintro _ ⟨_, ⟨a, ha, rfl⟩, rfl⟩ _ ⟨_, ⟨b, hb, rfl⟩, rfl⟩ hk
      have ha' : a ∈ e :: m := (Keyed.sorted_perm _).mem_iff.mp (List.mem_filter.mp ha).1
      have hb' : b ∈ e :: m := (Keyed.sorted_perm _).mem_iff.mp (List.mem_filter.mp hb).1
      have same : a.1 = b.1 := (hi.entry a ha').1.symm.trans (Eq.trans hk (hi.entry b hb').1)
      have hga := Keyed.get?_of_mem hi.nodup ha'
      rw [same, Keyed.get?_of_mem hi.nodup hb'] at hga
      exact congrArg Acl.role (Option.some.inj hga).symm

/-- The policies beside the owner's, once they can be read. An owner that is no text is not compared
with anything where there are none. -/
theorem declaredBeside_of_read
    (hd : Declaration.ofBlocks (r.getD "policy" (.list [])) = .ok ds) :
    declaredBeside owner r = match owner with
      | .text owner => .ok (ds.filter fun d => d.key != Role.key owner)
      | owner => if ds.isEmpty then .ok [] else .error (.shape (.noLetters owner)) := by
  unfold declaredBeside
  unfold Declaration.ofBlocks at hd
  cases owner with
  | text owner => exact declaredBeside_eq hd
  | _ =>
    dsimp only
    cases hi : (r.getD "policy" (.list [])).items? with
    | none => rw [hi] at hd; cases hd
    | some items =>
      rw [hi] at hd
      cases items with
      | nil => cases hd; rfl
      | cons policy items =>
        dsimp only at hd
        rw [List.mapM_cons] at hd
        obtain ⟨d, hp, hd⟩ := exists_of_bind_eq_ok hd
        obtain ⟨_, _, hd⟩ := exists_of_bind_eq_ok hd
        cases hd
        dsimp only
        rw [hp]
        rfl

theorem declaredBeside_reordered (owner : Value) (h : Reordered r r') :
    (∃ ds ds', declaredBeside owner r = .ok ds ∧ declaredBeside owner r' = .ok ds' ∧ ds.Perm ds' ∧
      Uniform ds ∧ ∀ d ∈ ds, d.OfPolicy) ∨
    ∃ e, declaredBeside owner r = .error e ∧ declaredBeside owner r' = .error e := by
  obtain ⟨ds, ds', hd, hd', hp, hu⟩ := h.policies
  have policies := Declaration.ofPolicy_of_ofBlocks hd
  rw [declaredBeside_of_read hd, declaredBeside_of_read hd', hp.isEmpty_eq]
  split
  · refine .inl ⟨_, _, rfl, rfl, hp.filter _, hu.filter _, fun d hm => ?_⟩
    exact policies d (List.mem_filter.mp hm).1
  · split
    · exact .inl ⟨[], [], rfl, rfl, .refl [], (fun _ ha => by cases ha),
        fun _ hm => by cases hm⟩
    · exact .inr ⟨_, rfl, rfl⟩

/-- What the catalog answers is compared with the policies, in whatever order they are declared. -/
theorem settle_reordered (database : String) (name owner : Value) (entries : List Value)
    (h : Reordered r r') :
    (∃ v w, settle database name owner entries r = .ok v ∧
      settle database name owner entries r' = .ok w ∧ Reordered v w) ∨
    ∃ e, settle database name owner entries r = .error e ∧
      settle database name owner entries r' = .error e := by
  unfold settle
  cases hf : policyBeside owner entries with
  | error e => exact .inr ⟨e, rfl, rfl⟩
  | ok found =>
    obtain ⟨as, rfl, hun⟩ := uniform_found hf
    rcases declaredBeside_reordered owner h with
      ⟨ds, ds', hd, hd', hp, hu, policies⟩ | ⟨e, he, he'⟩
    · have blocks : ∀ d ∈ (as.map PolicyBlock.ofAcl).map PolicyBlock.declaration, d.OfPolicy := by
        intro d hm
        obtain ⟨b, _, rfl⟩ := List.mem_map.mp hm
        exact Declaration.ofPolicy_block b
      obtain ⟨d, d', hdiff, hdiff', hc⟩ :=
        PolicyDiff.of_perm policies blocks hu hun hp (.refl _)
      have kept : Reordered (replaced d as r) (replaced d' as r') := by
        unfold replaced
        rw [← hc]
        split
        · exact h.putPolicies Value.noConfusion (Declaration.ofBlocks_ofAcls as) hun
        · exact h
      exact .inl ⟨_, _, bind_eq_ok rfl (bind_eq_ok hd (bind_eq_ok hdiff rfl)),
        bind_eq_ok rfl (bind_eq_ok hd' (bind_eq_ok hdiff' rfl)),
        (((kept.put (by decide) _).put (by decide) _).put (by decide) _).setId _⟩
    · rw [he, he']
      exact .inr ⟨e, rfl, rfl⟩

/-! ## Operations -/

theorem alike_refresh (c : Client) (database : String) (name : Value) :
    Alike Reordered (refresh c database name) (refresh c database name) := by
  have asked : Task.Block .asking (Catalog.schema name : Task Resource _) := .schema name
  refine .bindOf (.transaction c database (.block (fun h => h) asked)) fun found _ => ?_
  cases found with
  | none => exact .changeWork fun _ _ h => h.setId ""
  | some found =>
    obtain ⟨owner, entries⟩ := found
    refine .workThen fun v w h => ?_
    rcases settle_reordered database name owner entries h with ⟨v', w', hv, hw, h'⟩ | ⟨e, he, he'⟩
    · rw [hv, hw]
      exact .changeWork fun _ _ _ => h'
    · rw [he, he']
      exact .settled _

/-- What is done to create a schema, once its declaration was read. -/
def carryOut (x : Schema) (c : Client) : Task Resource Unit :=
  Task.locked .write do
    c.committed x.database do
      Task.elevated x.owner (← c.actorRole) do
        x.establish c
        x.grantPolicies
    Task.changeWork (·.setId (idOf x.database x.name))
    refresh c x.database (.text x.name)

theorem create_eq (c : Client) : create c = (do
    let r ← Task.work
    (← ofResource r c.defaultDatabase).carryOut c) := rfl

/-- Merged policies are granted in the order of the role keys. -/
theorem carryOut_perm (hp : x.policies.Perm ds) (hu : Uniform x.policies)
    (policies : ∀ d ∈ x.policies, d.OfPolicy) :
    ({ x with policies := ds } : Schema).carryOut c = x.carryOut c := by
  have grants : ({ x with policies := ds } : Schema).grantPolicies =
      (x.grantPolicies : Task Resource Unit) := by
    obtain ⟨m, hm, _⟩ := Declaration.exists_byRole policies
    rcases Declaration.byRole_perm hu hp with ⟨m, m', hm, hm', hk, hmp⟩ | ⟨e, _, he, _⟩
    · unfold grantPolicies
      dsimp only
      rw [hm, hm']
      show (m'.sorted.forM _ : Task Resource Unit) = m.sorted.forM _
      rw [Keyed.sorted_eq_of_perm hk hmp]
    · cases hm.symm.trans he
  unfold carryOut
  rw [grants]
  rfl

theorem alike_carryOut (x : Schema) (c : Client) :
    Alike Reordered (x.carryOut c) (x.carryOut c) := by
  refine .locked .write (.bindOf (.committed c _ (.block ?_ (block_creation x c))) fun _ _ => ?_)
  · exact fun h => h
  · exact .bindOf (.changeWork fun _ _ h => h.setId _) fun _ _ => alike_refresh c _ _

/-- A creation with the policies in another order sends the same and comes to the same, or both are
refused before anything is sent. -/
theorem goes_create_reordered {s u s' : Standing Resource} {t : List Exchange}
    {o : Except Failure Unit} (hs : u.session = s.session) (hid : u.work.id = s.work.id)
    (others : ∀ key, key ≠ "policy" → u.work.get? key = s.work.get? key)
    (hp : s.work.get? "policy" = some (.list items))
    (hp' : u.work.get? "policy" = some (.list items')) (h : items.Perm items')
    (hu : SpeltOnce items) (hg : Goes (create c) s t o s') :
    ∃ o' u', Goes (create c) u t o' u' ∧ ((o' = o ∧ s'.Alike Reordered u') ∨
      (t = [] ∧ ∃ f f', o = .error f ∧ o' = .error f')) := by
  rw [create_eq, goes_work_bind] at hg
  cases hx : ofResource s.work c.defaultDatabase with
  | ok x =>
    obtain ⟨ds, hx', hperm⟩ := ofResource_reordered others hp hp' h hx
    have hd : Declaration.ofBlocks (s.work.getD "policy" (.list [])) = .ok x.policies :=
      (of_ofResource hx).2
    have uniform : Uniform x.policies := by
      rw [Resource.getD_of_get? hp] at hd
      exact hu _ hd
    have alike : s.Alike Reordered u :=
      ⟨hs, hid, others, x.policies, ds, hd, (of_ofResource hx').2, hperm, uniform⟩
    rw [hx] at hg
    obtain ⟨u', hg', alike'⟩ := alike_carryOut x c s u t o s' alike hg
    refine ⟨o, u', ?_, .inl ⟨rfl, alike'⟩⟩
    rw [create_eq, goes_work_bind, hx']
    rw [← carryOut_perm hperm uniform (Declaration.ofPolicy_of_ofBlocks hd)] at hg'
    exact hg'
  | error e =>
    cases hx' : ofResource u.work c.defaultDatabase with
    | ok x =>
      obtain ⟨_, he, _⟩ :=
        ofResource_reordered (fun key hk => (others key hk).symm) hp' hp h.symm hx'
      cases hx.symm.trans he
    | error e' =>
      rw [hx] at hg
      obtain ⟨rfl, f, rfl⟩ | ⟨_, he, _⟩ := Task.goes_ofExcept_bind hg
      · refine ⟨.error (Failure.of e'), u, ?_, .inr ⟨rfl, f, _, rfl, rfl⟩⟩
        rw [create_eq, goes_work_bind, hx']
        exact goes_bind.mpr (.inr ⟨_, goes_ofExcept.mpr ⟨rfl, rfl, rfl⟩, rfl⟩)
      · cases he

theorem changedPolicies_list (items : List Value) :
    changedPolicies (.list items) = Declaration.ofBlocks (.list items) := by
  cases items with
  | nil => rfl
  | cons _ _ => rfl

/-- Policies in another order ask for nothing to be moved. -/
theorem silent_movePolicies (name : String) (h : items.Perm items') (hu : SpeltOnce items) :
    Silent (movePolicies name (.list items) (.list items') : Task σ Unit) := by
  unfold movePolicies
  rw [changedPolicies_list, changedPolicies_list]
  refine Throughout.ofExceptThen fun old ho => Throughout.ofExceptThen fun new hn => ?_
  obtain ⟨_, hn', hperm⟩ := exists_perm_of_mapM_ok h ho
  cases hn'.symm.trans hn
  obtain ⟨d, hd, hc⟩ :=
    PolicyDiff.of_self_perm (Declaration.ofPolicy_of_ofBlocks ho) (hu old ho) hperm
  refine .bind (.ofExceptThen fun d' hd' => ?_) fun _ => .pure _
  cases hd.symm.trans hd'
  dsimp only
  rw [PolicyDiff.plan_of_unchanged hc]
  exact .pure 0

theorem silent_update {s s' : Standing Resource} {t : List Exchange} {o : Except Failure Unit}
    (hc : s.work.change "policy" = (.list items, .list items')) (h : items.Perm items')
    (hu : SpeltOnce items) (hg : Goes (update c) s t o s') : policyPart t = [] := by
  rw [update, goes_work_bind] at hg
  obtain ⟨rfl, _⟩ | ⟨x, hx, hg⟩ := Task.goes_ofExcept_bind hg
  · rfl
  have moves : Silent (x.move s.work : Task Resource Unit) := by
    unfold move
    rw [hc]
    split
    · exact silent_movePolicies x.name h hu
    · exact .pure ()
  dsimp only at hg
  split at hg
  · rcases goes_bind.mp hg with ⟨_, _, _, _, _, hf, _⟩ | ⟨e, hf, rfl⟩
    · cases (Task.goes_fail.mp hf).2.1
    · rw [(Task.goes_fail.mp hf).1]
      rfl
  · exact ((wraps_update c x s.work _).silent moves).part hg

end Schema

namespace Operation

open Declaration (Uniform)

/-- The order of declarations does not show where no role key is spelt in two ways. Lists in another
order have a difference or not, and then it is applied by the same statements after the same questions,
whatever the questions are put to. A schema is created by the same exchanges in any order of its
policies. An update that only changes their order asks about no role, and neither grants nor revokes
anything on the schema. -/
theorem order_of_policies_does_not_show :
    (∀ old old' new new' : List Declaration, old.Perm old' → new.Perm new' → Uniform old →
      Uniform new →
      (∃ d d', PolicyDiff.ofLists old new = .ok d ∧ PolicyDiff.ofLists old' new' = .ok d' ∧
        ∀ (m : Type → Type) [Monad m] (target : Target) (roleExists : String → m Bool),
          d.plan target roleExists = d'.plan target roleExists) ∨
      ∃ e e', PolicyDiff.ofLists old new = .error e ∧ PolicyDiff.ofLists old' new' = .error e') ∧
    ∀ items items' : List Value, items.Perm items' → Schema.SpeltOnce items →
      (∀ (c : Client) (s s' : Standing Resource) (t : List Exchange) (r : Except Failure Value),
        s.work.get? "policy" = some (.list items) → Goes (createSchema.run c) s t r s' →
        ∃ r' u', Goes (createSchema.run c)
            { s with work := s.work.put "policy" (.list items') } t r' u' ∧
          ((r' = r ∧ s'.Alike Schema.Reordered u') ∨
            (t = [] ∧ ∃ f f', r = .error f ∧ r' = .error f'))) ∧
      ∀ (c : Client) (s s' : Standing Resource) (t : List Exchange) (r : Except Failure Value),
        s.work.change "policy" = (.list items, .list items') →
        Goes (updateSchema.run c) s t r s' → policyPart t = [] := by
  refine ⟨fun old old' new new' ho hn huo hun => ?_, fun items items' h hu => ⟨?_, ?_⟩⟩
  · rcases PolicyDiff.ofLists_perm huo hun ho hn with ⟨d, d', hd, hd', _, _, hplan⟩ | ⟨e, e', he⟩
    · exact .inl ⟨d, d', hd, hd', hplan⟩
    · exact .inr ⟨e, e', he⟩
  · intro c s s' t r hp hg
    obtain ⟨o, hcreate, rfl⟩ := goes_quiet_iff.mp hg
    have others (key : String) (hk : key ≠ "policy") :
        (s.work.put "policy" (.list items')).get? key = s.work.get? key :=
      Resource.get?_put_of_ne hk
    have listed : (s.work.put "policy" (.list items')).get? "policy" = some (.list items') :=
      Resource.get?_put Value.noConfusion
    obtain ⟨o', u', hg', h'⟩ := Schema.goes_create_reordered (s := s)
      (u := { s with work := s.work.put "policy" (.list items') }) rfl rfl others hp listed h hu
      hcreate
    refine ⟨_, u', goes_quiet_iff.mpr ⟨o', hg', rfl⟩, ?_⟩
    rcases h' with ⟨rfl, alike⟩ | ⟨rfl, f, f', rfl, rfl⟩
    · exact .inl ⟨rfl, alike⟩
    · exact .inr ⟨rfl, f, f', rfl, rfl⟩
  · intro c s s' t r hc hg
    obtain ⟨o, hupdate, rfl⟩ := goes_quiet_iff.mp hg
    exact Schema.silent_update hc h hu hupdate

/-- One role declared in two places, and another one between them. -/
def scattered : List Declaration :=
  [⟨"ann", .ofList [.usage], ∅, []⟩, ⟨"bob", .ofList [.create], .ofList [.create], []⟩,
    ⟨"ann", .ofList [.create], ∅, []⟩]

/-- The same as the policies of a schema. -/
def scatteredPolicies : List Value :=
  [.object [("role", .text "ann"), ("usage", .bool true)],
    .object [("role", .text "bob"), ("create_with_grant", .bool true)],
    .object [("role", .text "ann"), ("create", .bool true)]]

/-- The policies of a schema change places. -/
def turnedRound : Standing Resource where
  session := {}
  work := {
    id := "app.s"
    values := [("name", .text "s"), ("policy", .list scatteredPolicies.tail.reverse)]
    previous := some [("name", .text "s"), ("policy", .list scatteredPolicies.tail)] }

unseal List.mergeSort in
theorem order_of_policies_does_not_show_reversed :
    (∃ d d', PolicyDiff.ofLists [] scattered = .ok d ∧
      PolicyDiff.ofLists [] scattered.reverse = .ok d' ∧
        d.plan (m := Id) (Schema.target "s") (fun _ => true) =
          d'.plan (m := Id) (Schema.target "s") (fun _ => true)) ∧
    (∃ t s' u', Goes (createSchema.run .admin) (declaredSchema scatteredPolicies) t (.ok .null) s' ∧
      Goes (createSchema.run .admin) (declaredSchema scatteredPolicies.reverse) t (.ok .null) u') ∧
    ∃ t s', Goes (updateSchema.run .admin) turnedRound t (.ok .null) s' ∧ policyPart t = [] := by
  have reversed {α : Type} (l : List α) : l.Perm l.reverse := l.reverse_perm.symm
  have blocks : Declaration.ofBlocks (.list scatteredPolicies) = .ok scattered := rfl
  have rest : Declaration.ofBlocks (.list scatteredPolicies.tail) = .ok scattered.tail := rfl
  obtain ⟨lists, schemas⟩ := order_of_policies_does_not_show
  obtain ⟨creation, -⟩ := schemas scatteredPolicies scatteredPolicies.reverse (reversed _)
    (Schema.speltOnce_of_ofBlocks blocks (by decide))
  obtain ⟨-, update⟩ := schemas scatteredPolicies.tail scatteredPolicies.tail.reverse (reversed _)
    (Schema.speltOnce_of_ofBlocks rest (by decide))
  refine ⟨?_, ?_, ?_⟩
  · rcases lists [] [] scattered scattered.reverse (.refl _) (reversed _) (by decide) (by decide) with
      ⟨d, d', hd, hd', hplan⟩ | ⟨e, _, he, _⟩
    · exact ⟨d, d', hd, hd', hplan Id _ _⟩
    · cases he
  · have hx : Schema.ofResource (declaredSchema scatteredPolicies).work
        Client.admin.defaultDatabase =
          .ok { name := "s", database := "app", policies := scattered } := rfl
    obtain ⟨t, _, s', _, hg, _, rfl, _⟩ :=
      (leads_createSchema syncer noSchemas hx (by decide) rfl).exists_goes
    obtain ⟨r', u', hg', ⟨rfl, _⟩ | ⟨_, _, _, he, _⟩⟩ := creation _ _ _ _ _ rfl hg
    · exact ⟨t, s', u', hg, hg'⟩
    · cases he
  · have hg : Goes (updateSchema.run .admin) turnedRound
        (Task.exchanges ownersAnswer (updateSchema.run .admin) turnedRound) (.ok .null)
        (Task.standing ownersAnswer (updateSchema.run .admin) turnedRound) :=
      Task.goes_exchanges ownersAnswer _ _
    exact ⟨_, _, hg, update _ _ _ _ _ rfl hg⟩

end Operation

end DeclaredAccess
