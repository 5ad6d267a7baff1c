import DeclaredAccess.Policy.Block
import DeclaredAccess.Proofs.Checks
import DeclaredAccess.Proofs.Policy.Share
import DeclaredAccess.Proofs.Policy.Transition
import DeclaredAccess.Session.Policy

/-! Policy blocks say what a role may hold on a schema, and nothing else: what is held there becomes
a block that declares it, and the block is read back from the value that it is written to. So what
was found can be compared with what is declared, and be declared itself. -/

namespace DeclaredAccess

theorem Acl.exists_byRole (as : List Acl) : ∃ m, byRole as = .ok m :=
  Keyed.exists_gather keeps_key (fun _ _ _ _ hk => merge_eq_ok_iff.mpr hk) fun _ _ => trivial

namespace PolicyBlock

variable {b : PolicyBlock} {p : Privilege}

theorem mem_privileges : p ∈ b.declaration.privileges ↔
    (p = .create ∧ (b.create || b.createWithGrant) = true) ∨
      (p = .usage ∧ (b.usage || b.usageWithGrant) = true) := by
  simp only [declaration, PrivilegeSet.mem_ofList, List.mem_append]
  cases b.create || b.createWithGrant <;> cases b.usage || b.usageWithGrant <;> simp

theorem mem_grantOptions : p ∈ b.declaration.grantOptions ↔
    (p = .create ∧ b.createWithGrant = true) ∨ (p = .usage ∧ b.usageWithGrant = true) := by
  simp only [declaration, PrivilegeSet.mem_ofList, List.mem_append]
  cases b.createWithGrant <;> cases b.usageWithGrant <;> simp

/-- What a block declares can be granted on a schema. -/
theorem fits (b : PolicyBlock) : b.declaration.Fits .schema where
  covered p hp := by
    rcases mem_grantOptions.mp hp with ⟨rfl, h⟩ | ⟨rfl, h⟩
    · exact mem_privileges.mpr (.inl ⟨rfl, by simp [h]⟩)
    · exact mem_privileges.mpr (.inr ⟨rfl, by simp [h]⟩)
  allowed p hp := by
    rcases mem_privileges.mp hp with ⟨rfl, _⟩ | ⟨rfl, _⟩ <;> decide

/-- The two privileges that a block speaks of, where they are in a set. -/
theorem has_create_or_usage {s : PrivilegeSet} :
    ((p = .create ∧ s.has .create = true) ∨ (p = .usage ∧ s.has .usage = true)) ↔
      (p = .create ∨ p = .usage) ∧ p ∈ s := by
  constructor
  · rintro (⟨rfl, hp⟩ | ⟨rfl, hp⟩)
    · exact ⟨.inl rfl, hp⟩
    · exact ⟨.inr rfl, hp⟩
  · rintro ⟨rfl | rfl, hp⟩
    · exact .inl ⟨rfl, hp⟩
    · exact .inr ⟨rfl, hp⟩

/-- What is held is held with grant option or without. -/
theorem has_or (a : Acl) (p : Privilege) :
    (a.privileges.has p && !a.grantOptions.has p || a.grantOptions.has p) = a.privileges.has p := by
  have held : a.grantOptions.has p = true → a.privileges.has p = true := a.covered p
  cases ho : a.grantOptions.has p with
  | true => simp [held ho]
  | false => simp

/-- The block for what is held declares what is held of creating and using. -/
theorem mem_privileges_ofAcl {a : Acl} : p ∈ (ofAcl a).declaration.privileges ↔
    (p = .create ∨ p = .usage) ∧ p ∈ a.privileges := by
  rw [mem_privileges]
  simp only [ofAcl, has_or]
  exact has_create_or_usage

theorem mem_grantOptions_ofAcl {a : Acl} : p ∈ (ofAcl a).declaration.grantOptions ↔
    (p = .create ∨ p = .usage) ∧ p ∈ a.grantOptions :=
  mem_grantOptions.trans has_create_or_usage

/-- The block for what is held on a schema declares that. -/
theorem declaration_ofAcl {a : Acl} (h : a.privileges ⊆ ObjectKind.schema.allowed) :
    (ofAcl a).declaration = ⟨a.role, a.privileges, a.grantOptions, []⟩ := by
  have allowed {p : Privilege} (hp : p ∈ a.privileges) : p = .create ∨ p = .usage := by
    simpa [ObjectKind.allowed] using h p hp
  have hp : (ofAcl a).declaration.privileges = a.privileges := PrivilegeSet.ext_mem fun p =>
    mem_privileges_ofAcl.trans (and_iff_right_of_imp allowed)
  have ho : (ofAcl a).declaration.grantOptions = a.grantOptions := PrivilegeSet.ext_mem fun p =>
    mem_grantOptions_ofAcl.trans (and_iff_right_of_imp fun hp => allowed (a.covered p hp))
  calc (ofAcl a).declaration
      = ⟨a.role, (ofAcl a).declaration.privileges, (ofAcl a).declaration.grantOptions, []⟩ := rfl
    _ = _ := by rw [hp, ho]

/-- A block that does not say of a privilege both that it is held with and without grant option is
read back from its value. -/
theorem ofValue_toValue (hc : (b.create && b.createWithGrant) = false)
    (hu : (b.usage && b.usageWithGrant) = false) : ofValue b.toValue = .ok b := by
  show (if (b.create && b.createWithGrant) = true then Except.error _
    else if (b.usage && b.usageWithGrant) = true then Except.error _ else Except.ok b) = _
  rw [if_neg (Bool.eq_false_iff.mp hc), if_neg (Bool.eq_false_iff.mp hu)]

theorem ofBlock_ofAcl (a : Acl) :
    Declaration.ofBlock (ofAcl a).toValue = .ok (ofAcl a).declaration := by
  have h : ofValue (ofAcl a).toValue = .ok (ofAcl a) := by
    refine ofValue_toValue ?_ ?_ <;> simp only [ofAcl]
    · cases a.grantOptions.has .create <;> simp
    · cases a.grantOptions.has .usage <;> simp
  rw [Declaration.ofBlock, h]
  rfl

end PolicyBlock

namespace Declaration

/-- A declaration of a policy on a schema. -/
structure OfPolicy (d : Declaration) : Prop where
  fits : d.Fits .schema
  objects : d.objects = []

theorem OfPolicy.eq_of_share {d e : Declaration} (hd : d.OfPolicy) (he : e.OfPolicy)
    (h : d.share = e.share) : d = e := by
  obtain ⟨role, privileges, options, objects⟩ := d
  obtain ⟨role', privileges', options', objects'⟩ := e
  obtain rfl : objects = [] := hd.objects
  obtain rfl : objects' = [] := he.objects
  cases h
  rfl

theorem keeps_ofPolicy : Keyed.Keeps key merge OfPolicy := by
  intro a b c ha hb h
  obtain ⟨hfits, hkey⟩ := keeps_fits .schema a b c ha.fits hb.fits h
  refine ⟨⟨hfits, ?_⟩, hkey⟩
  unfold merge at h
  split at h
  · cases h
  · split at h
    · cases h
    · cases h
      exact ha.objects

/-- Policies on a schema can be merged, whichever they are. -/
theorem exists_byRole {ds : List Declaration} (h : ∀ d ∈ ds, d.OfPolicy) :
    ∃ m, byRole ds = .ok m ∧ m.Indexed key OfPolicy := by
  have mergeable (a b : Declaration) (ha : a.OfPolicy) (hb : b.OfPolicy) (hk : a.key = b.key) :
      ∃ c, merge a b = .ok c := merge_eq_ok_iff.mpr ⟨hk, ha.objects.trans hb.objects.symm⟩
  obtain ⟨m, hm⟩ := Keyed.exists_gather keeps_ofPolicy mergeable h
  exact ⟨m, hm, Keyed.indexed_gather keeps_ofPolicy h hm⟩

theorem givenBy_of_merged_eq_none {ds : List Declaration} (hd : ∀ d ∈ ds, d.OfPolicy) {role : String}
    (h : Share.merged (ds.map share) (Role.key role) = none) : givenBy ds role = ∅ := by
  obtain ⟨m, hm, _⟩ := exists_byRole hd
  rw [givenBy_eq hm fun d hmem => (hd d hmem).fits, h]

theorem givenBy_of_merged_eq_some {ds : List Declaration} (hd : ∀ d ∈ ds, d.OfPolicy) {role : String}
    {x : Share} (h : Share.merged (ds.map share) (Role.key role) = some x) :
    givenBy ds role = if x.role = role then x.holding else ∅ := by
  obtain ⟨m, hm, _⟩ := exists_byRole hd
  rw [givenBy_eq hm fun d hmem => (hd d hmem).fits, h]

/-- Policies on a schema give nothing that cannot be held on one. -/
theorem givenBy_subset {ds : List Declaration} (hd : ∀ d ∈ ds, d.OfPolicy) (role : String) :
    (givenBy ds role).privileges ⊆ ObjectKind.schema.allowed := by
  obtain ⟨m, hm, hi⟩ := exists_byRole hd
  have nothing : (∅ : Holding).privileges ⊆ ObjectKind.schema.allowed :=
    fun _ hp => absurd hp PrivilegeSet.mem_empty
  rw [givenBy_of_byRole hm, given_eq hi]
  cases hg : m.get? (Role.key role) with
  | none => exact nothing
  | some d =>
    dsimp only
    split
    · exact (hi.entry _ (Keyed.mem_of_get? hg)).2.fits.allowed
    · exact nothing

theorem ofPolicy_block (b : PolicyBlock) : b.declaration.OfPolicy := ⟨b.fits, rfl⟩

theorem ofPolicy_of_ofBlock {v : Value} {d : Declaration} (h : ofBlock v = .ok d) : d.OfPolicy := by
  unfold ofBlock at h
  cases hb : PolicyBlock.ofValue v with
  | error e => rw [hb] at h; cases h
  | ok b =>
    rw [hb] at h
    cases h
    exact ofPolicy_block b

theorem ofPolicy_of_ofBlocks {v : Value} {ds : List Declaration} (h : ofBlocks v = .ok ds) :
    ∀ d ∈ ds, d.OfPolicy := by
  unfold ofBlocks at h
  split at h
  · cases h
  · exact forall_of_mapM_ok (fun _ _ => ofPolicy_of_ofBlock) h

/-- What was found is read back from the value that takes the place of the policies. -/
theorem ofBlocks_ofAcls (as : List Acl) :
    ofBlocks (.list ((as.map PolicyBlock.ofAcl).map PolicyBlock.toValue)) =
      .ok ((as.map PolicyBlock.ofAcl).map PolicyBlock.declaration) := by
  show List.mapM ofBlock _ = _
  rw [List.map_map, List.map_map]
  exact mapM_map_ok fun a _ => PolicyBlock.ofBlock_ofAcl a

end Declaration

/-- Two lists of policies on a schema can be compared. Nothing changes exactly if both say the same
under every role key. -/
theorem PolicyDiff.exists_of {old new : List Declaration} (ho : ∀ d ∈ old, d.OfPolicy)
    (hn : ∀ d ∈ new, d.OfPolicy) : ∃ diff, PolicyDiff.of old new = .ok diff ∧
      (diff.hasChanges = false ↔ ∀ k, Share.merged (old.map Declaration.share) k =
        Share.merged (new.map Declaration.share) k) := by
  obtain ⟨o, hbyo, hoi⟩ := Declaration.exists_byRole ho
  obtain ⟨n, hbyn, hni⟩ := Declaration.exists_byRole hn
  refine ⟨between o n, ?_, ?_⟩
  · simp only [PolicyDiff.of, ofLists, hbyo, hbyn]
    rfl
  · rw [hasChanges_eq_false_iff hoi.nodup hni.nodup]
    refine forall_congr' fun k => ?_
    rw [← Declaration.merged_byRole hbyo, ← Declaration.merged_byRole hbyn]
    refine ⟨congrArg _, fun h => ?_⟩
    cases hod : o.get? k with
    | none =>
      rw [hod] at h
      exact (Option.map_eq_none_iff.mp h.symm).symm
    | some d =>
      rw [hod] at h
      obtain ⟨e, he, hde⟩ := Option.map_eq_some_iff.mp h.symm
      have hd : d.OfPolicy := (hoi.entry _ (Keyed.mem_of_get? hod)).2
      have he' : e.OfPolicy := (hni.entry _ (Keyed.mem_of_get? he)).2
      rw [he, hd.eq_of_share he' hde.symm]

end DeclaredAccess
