import DeclaredAccess.Proofs.Policy.Block
import DeclaredAccess.Schema.Found

/-! What comparing a schema with the catalog leaves of the declared policies. They stay exactly if
they say, under every role key but the owner's, what the entries say under it; and where they do not
stay, what takes their place differs from them. -/

namespace DeclaredAccess

theorem Keyed.put_of_get? {α : Type} {m : Keyed α} {k : String} {v : α} (h : m.get? k = some v) :
    m.put k v = m := by
  induction m with
  | nil => cases h
  | cons e m ih =>
    obtain ⟨k', w⟩ := e
    rw [get?_cons] at h
    unfold put
    by_cases hk : k' = k
    · rw [if_pos hk.symm] at h
      cases h
      rw [if_pos hk, hk]
    · rw [if_neg (Ne.symm hk)] at h
      rw [if_neg hk, ih h]

namespace Resource

variable {r : Resource} {key key' : String} {v : Value}

theorem get?_put_of_ne (h : key' ≠ key) : (r.put key v).get? key' = r.get? key' := by
  simp only [get?, put, Fields.value, Keyed.get?_put, if_neg h]

theorem get?_put (hv : v ≠ .null) : (r.put key v).get? key = some v := by
  simp only [get?, put, Fields.value, Keyed.get?_put, if_pos, Option.getD_some]

theorem put_of_get? (h : r.get? key = some v) : r.put key v = r := by
  have hv : r.values.get? key = some v := by
    unfold get? Fields.value at h
    cases hk : r.values.get? key with
    | none =>
      rw [hk] at h
      cases h
    | some w =>
      rw [hk] at h
      cases w <;> cases h <;> rfl
  rw [put, Keyed.put_of_get? hv]

theorem getD_congr {r' : Resource} {default : Value} (h : r'.get? key = r.get? key) :
    r'.getD key default = r.getD key default := by
  rw [getD, getD, h]

theorem getD_of_get? {default : Value} (h : r.get? key = some v) : r.getD key default = v := by
  simp [getD, h]

end Resource

namespace Schema

variable {owner database : String} {name : Value} {entries : List Value} {acls : List Acl}
  {m : Keyed Acl} {declared : List Declaration} {r : Resource}

/-- Under every role key but the owner's, the declarations say what the entries say. -/
def Matches (owner : String) (declared : List Declaration) (acls : List Acl) : Prop :=
  ∀ k, k ≠ Role.key owner →
    Share.merged (declared.map Declaration.share) k = Share.merged (acls.map Acl.share) k

/-- Only the keys that stand somewhere matter. -/
theorem matches_iff : Matches owner declared acls ↔
    ∀ k ∈ declared.map Declaration.key ++ acls.map Acl.key, k ≠ Role.key owner →
      Share.merged (declared.map Declaration.share) k = Share.merged (acls.map Acl.share) k := by
  refine ⟨fun h k _ => h k, fun h k hk => ?_⟩
  by_cases hm : k ∈ declared.map Declaration.key ++ acls.map Acl.key
  · exact h k hm hk
  · rw [List.mem_append, not_or] at hm
    have hd (d : Declaration) : d.share.key = d.key := rfl
    have ha (a : Acl) : a.share.key = a.key := rfl
    rw [Share.merged_eq_none_of_not_mem hd hm.1, Share.merged_eq_none_of_not_mem ha hm.2]

instance : Decidable (Matches owner declared acls) := decidable_of_iff _ matches_iff.symm

/-- Who holds something beside the owner, in the order of the role keys. -/
def holders (owner : String) (m : Keyed Acl) : List Acl :=
  (m.sorted.filter fun e => e.1 != Role.key owner).map (·.2)

theorem policyBeside_eq (he : entries.mapM Acl.ofEntry = .ok acls) (hm : Acl.byRole acls = .ok m) :
    policyBeside (.text owner) entries = .ok ((holders owner m).map .ofAcl) := by
  refine bind_eq_ok he ?_
  rw [hm, holders, List.map_map]
  cases m with
  | nil =>
    rw [Keyed.sorted, List.mergeSort_nil]
    rfl
  | cons e m => rfl

theorem key_of_mem_sorted (hm : Acl.byRole acls = .ok m) {e : String × Acl} (he : e ∈ m.sorted) :
    e.2.key = e.1 :=
  ((Acl.keyed_byRole hm).entry e ((Keyed.sorted_perm m).mem_iff.mp he)).1

/-- The holders say what the entries say, but nothing of the owner. -/
theorem merged_holders (hm : Acl.byRole acls = .ok m) (k : String) :
    Share.merged ((holders owner m).map Acl.share) k =
      if k != Role.key owner then Share.merged (acls.map Acl.share) k else none := by
  have hi := Acl.keyed_byRole hm
  have hs : ∀ e ∈ m.sorted, e.2.share.key = e.1 := fun _ => key_of_mem_sorted hm
  have hfilter : (holders owner m).map Acl.share =
      (m.sorted.map fun e => e.2.share).filter fun x => x.key != Role.key owner := by
    rw [holders, List.map_map, List.filter_map]
    refine congrArg (List.map _) (List.filter_congr fun e he => ?_)
    exact congrArg (· != Role.key owner) (hs e he).symm
  rw [hfilter, Share.merged_filter _ fun k => k != Role.key owner,
    Share.merged_of_keyed (Keyed.nodup_sorted hi.nodup) hs, Keyed.get?_sorted hi.nodup,
    Acl.merged_byRole hm]

/-- Who holds something holds no more than the entries tell. -/
theorem holders_within {bound : PrivilegeSet} (hm : Acl.byRole acls = .ok m)
    (ha : ∀ a ∈ acls, a.privileges ⊆ bound) : ∀ a ∈ holders owner m, a.privileges ⊆ bound := by
  intro a hmem
  obtain ⟨e, he, rfl⟩ := List.mem_map.mp hmem
  have hin : e ∈ m := (Keyed.sorted_perm m).mem_iff.mp (List.mem_filter.mp he).1
  exact ((Acl.indexed_byRole hm ha).entry e hin).2

/-- The declarations that the blocks for holders make say what the holders hold. -/
theorem share_blocks {as : List Acl} (h : ∀ a ∈ as, a.privileges ⊆ ObjectKind.schema.allowed) :
    ((as.map PolicyBlock.ofAcl).map PolicyBlock.declaration).map Declaration.share =
      as.map Acl.share := by
  rw [List.map_map, List.map_map]
  refine List.map_congr_left fun a ha => ?_
  show (PolicyBlock.ofAcl a).declaration.share = _
  rw [PolicyBlock.declaration_ofAcl (h a ha)]
  rfl

theorem declaredBeside_eq (hd : Declaration.ofBlocks (r.getD "policy" (.list [])) = .ok declared) :
    declaredBeside (.text owner) r = .ok (declared.filter fun d => d.key != Role.key owner) := by
  unfold declaredBeside
  dsimp only
  rw [hd]
  rfl

theorem exists_of_declaredBeside {ds : List Declaration}
    (h : declaredBeside (.text owner) r = .ok ds) :
    ∃ declared, Declaration.ofBlocks (r.getD "policy" (.list [])) = .ok declared := by
  unfold declaredBeside at h
  dsimp only at h
  obtain ⟨declared, hd, _⟩ := exists_of_bind_eq_ok h
  exact ⟨declared, hd⟩

theorem merged_beside (declared : List Declaration) (k : String) :
    Share.merged ((declared.filter fun d => d.key != Role.key owner).map Declaration.share) k =
      if k != Role.key owner then Share.merged (declared.map Declaration.share) k else none := by
  have hfilter : (declared.filter fun d => d.key != Role.key owner).map Declaration.share =
      (declared.map Declaration.share).filter fun x => x.key != Role.key owner := by
    rw [List.filter_map]
    rfl
  rw [hfilter, Share.merged_filter _ fun k => k != Role.key owner]

theorem exists_of_settle {r' : Resource}
    (h : settle database name (.text owner) entries r = .ok r') :
    ∃ declared, Declaration.ofBlocks (r.getD "policy" (.list [])) = .ok declared := by
  obtain ⟨_, _, h⟩ := exists_of_bind_eq_ok h
  obtain ⟨_, hd, _⟩ := exists_of_bind_eq_ok h
  exact exists_of_declaredBeside hd

/-- The declarations and the holders beside the owner say the same exactly if the declarations match
the entries. -/
theorem merged_eq_iff_matches (hm : Acl.byRole acls = .ok m) :
    (∀ k, Share.merged ((declared.filter fun d => d.key != Role.key owner).map Declaration.share) k =
      Share.merged ((holders owner m).map Acl.share) k) ↔ Matches owner declared acls := by
  refine forall_congr' fun k => ?_
  rw [merged_beside, merged_holders hm]
  by_cases hk : k = Role.key owner
  · simp [hk]
  · simp [hk]

/-- The policies that are declared and those that were found can be compared. -/
theorem exists_diff (owner : String) (hd : ∀ d ∈ declared, d.OfPolicy) (hm : Acl.byRole acls = .ok m)
    (ha : ∀ a ∈ acls, a.privileges ⊆ ObjectKind.schema.allowed) : ∃ diff,
      PolicyDiff.of (declared.filter fun d => d.key != Role.key owner)
          (((holders owner m).map PolicyBlock.ofAcl).map PolicyBlock.declaration) = .ok diff ∧
        (diff.hasChanges = false ↔ Matches owner declared acls) := by
  have hfound : ∀ d ∈ ((holders owner m).map PolicyBlock.ofAcl).map PolicyBlock.declaration,
      d.OfPolicy := by
    intro d hmem
    obtain ⟨b, _, rfl⟩ := List.mem_map.mp hmem
    exact Declaration.ofPolicy_block b
  obtain ⟨diff, hdiff, hiff⟩ :=
    PolicyDiff.exists_of (fun d hmem => hd d (List.mem_filter.mp hmem).1) hfound
  rw [share_blocks (holders_within hm ha), merged_eq_iff_matches hm] at hiff
  exact ⟨diff, hdiff, hiff⟩

/-- The resource once found policies take the place of declared ones from which they differ. -/
def replaced (diff : PolicyDiff) (found : List Acl) (r : Resource) : Resource :=
  if diff.hasChanges then
    r.put "policy" (.list ((found.map PolicyBlock.ofAcl).map PolicyBlock.toValue))
  else r

/-- The policies of the resource match the entries then, and they are the declared ones exactly if
these did so before. -/
theorem replaced_spec {diff : PolicyDiff}
    (hd : Declaration.ofBlocks (r.getD "policy" (.list [])) = .ok declared)
    (hm : Acl.byRole acls = .ok m) (ha : ∀ a ∈ acls, a.privileges ⊆ ObjectKind.schema.allowed)
    (hiff : diff.hasChanges = false ↔ Matches owner declared acls) :
    ((replaced diff (holders owner m) r).get? "policy" = r.get? "policy" ↔
      Matches owner declared acls) ∧
    ∃ ds, Declaration.ofBlocks ((replaced diff (holders owner m) r).getD "policy" (.list [])) =
      .ok ds ∧ Matches owner ds acls := by
  have blocks : Matches owner (((holders owner m).map PolicyBlock.ofAcl).map
      PolicyBlock.declaration) acls := fun k hk => by
    rw [share_blocks (holders_within hm ha), merged_holders hm, if_pos (by simpa using hk)]
  unfold replaced
  cases hc : diff.hasChanges with
  | false => exact ⟨iff_of_true rfl (hiff.mp hc), declared, hd, hiff.mp hc⟩
  | true =>
    rw [if_pos rfl, Resource.get?_put Value.noConfusion]
    refine ⟨iff_of_false (fun h => ?_) fun h => ?_, _, ?_, blocks⟩
    · -- the value that would take the place of the policies is theirs, so nothing has changed
      rw [Resource.getD_of_get? h.symm, Declaration.ofBlocks_ofAcls] at hd
      rw [Except.ok.inj hd] at blocks
      cases hc.symm.trans (hiff.mpr blocks)
    · cases hc.symm.trans (hiff.mpr h)
    · rw [Resource.getD_of_get? (Resource.get?_put Value.noConfusion)]
      exact Declaration.ofBlocks_ofAcls _

/-- How the declared policies differ from those of the entries, the owner's left out. -/
def drift (owner : String) (entries : List Value) (r : Resource) : Except Error PolicyDiff := do
  let found ← policyBeside (.text owner) entries
  PolicyDiff.of (← declaredBeside (.text owner) r) (found.map PolicyBlock.declaration)

/-- The resource of a schema with its owner, in its place. -/
def located (database : String) (name : Value) (owner : String) (r : Resource) : Resource :=
  (((r.put "name" name).put "owner" (.text owner)).put "database" (.text database)).setId
    (idOf database name.plain)

theorem get?_located {key : String} (hn : key ≠ "name") (ho : key ≠ "owner")
    (hd : key ≠ "database") : (located database name owner r).get? key = r.get? key :=
  ((Resource.get?_put_of_ne hd).trans (Resource.get?_put_of_ne ho)).trans
    (Resource.get?_put_of_ne hn)

theorem policy_located : (located database name owner r).get? "policy" = r.get? "policy" :=
  get?_located (by decide) (by decide) (by decide)

theorem name_located (hn : name ≠ .null) :
    (located database name owner r).get? "name" = some name :=
  ((Resource.get?_put_of_ne (by decide)).trans (Resource.get?_put_of_ne (by decide))).trans
    (Resource.get?_put hn)

theorem owner_located : (located database name owner r).get? "owner" = some (.text owner) :=
  (Resource.get?_put_of_ne (by decide)).trans (Resource.get?_put Value.noConfusion)

theorem database_located :
    (located database name owner r).get? "database" = some (.text database) :=
  Resource.get?_put Value.noConfusion

/-- A comparison goes through where the entries can be read and the policies be compared. -/
theorem settle_eq_ok_iff {r' : Resource} :
    settle database name (.text owner) entries r = .ok r' ↔ ∃ acls m diff,
      entries.mapM Acl.ofEntry = .ok acls ∧ Acl.byRole acls = .ok m ∧
      drift owner entries r = .ok diff ∧
      r' = located database name owner (replaced diff (holders owner m) r) := by
  constructor
  · intro h
    obtain ⟨found, hfound, h⟩ := exists_of_bind_eq_ok h
    obtain ⟨declared, hdeclared, h⟩ := exists_of_bind_eq_ok h
    obtain ⟨diff, hdiff, h⟩ := exists_of_bind_eq_ok h
    obtain ⟨acls, he, _⟩ := exists_of_bind_eq_ok hfound
    obtain ⟨m, hm⟩ := Acl.exists_byRole acls
    cases hfound.symm.trans (policyBeside_eq he hm)
    cases h
    exact ⟨acls, m, diff, he, hm, bind_eq_ok hfound (bind_eq_ok hdeclared hdiff), rfl⟩
  · rintro ⟨acls, m, diff, he, hm, hd, rfl⟩
    obtain ⟨found, hfound, hd⟩ := exists_of_bind_eq_ok hd
    obtain ⟨declared, hdeclared, hdiff⟩ := exists_of_bind_eq_ok hd
    cases hfound.symm.trans (policyBeside_eq he hm)
    exact bind_eq_ok hfound (bind_eq_ok hdeclared (bind_eq_ok hdiff rfl))

/-- What a resource is after it was compared with the catalog. -/
structure Settled (database : String) (name : Value) (owner : String) (declared : List Declaration)
    (acls : List Acl) (r r' : Resource) : Prop where
  id_eq : r'.id = idOf database name.plain
  name_eq : name ≠ .null → r'.get? "name" = some name
  owner_eq : r'.get? "owner" = some (.text owner)
  database_eq : r'.get? "database" = some (.text database)
  policy_iff : r'.get? "policy" = r.get? "policy" ↔ Matches owner declared acls
  policy_matches : ∃ ds, Declaration.ofBlocks (r'.getD "policy" (.list [])) = .ok ds ∧
    Matches owner ds acls

/-- Policies that can be read and entries of what can be held on a schema can be compared. -/
theorem exists_settle (database : String) (name : Value) (owner : String)
    (hd : Declaration.ofBlocks (r.getD "policy" (.list [])) = .ok declared)
    (he : entries.mapM Acl.ofEntry = .ok acls)
    (ha : ∀ a ∈ acls, a.privileges ⊆ ObjectKind.schema.allowed) : ∃ r',
      settle database name (.text owner) entries r = .ok r' ∧
        Settled database name owner declared acls r r' := by
  obtain ⟨m, hm⟩ := Acl.exists_byRole acls
  obtain ⟨diff, hdiff, hiff⟩ := exists_diff owner (Declaration.ofPolicy_of_ofBlocks hd) hm ha
  obtain ⟨hpolicy, ds, hds, hmatches⟩ := replaced_spec hd hm ha hiff
  have compared : drift owner entries r = .ok diff :=
    bind_eq_ok (policyBeside_eq he hm) (bind_eq_ok (declaredBeside_eq hd) hdiff)
  refine ⟨_, settle_eq_ok_iff.mpr ⟨acls, m, diff, he, hm, compared, rfl⟩, rfl, name_located,
    owner_located, database_located, ?_, ds, ?_, hmatches⟩
  · rw [policy_located]
    exact hpolicy
  · rw [Resource.getD_congr policy_located]
    exact hds

end Schema

end DeclaredAccess
