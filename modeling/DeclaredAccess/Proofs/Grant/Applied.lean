import DeclaredAccess.Proofs.Grant.Coverage

/-! The grant as it was last applied. A declared grant has no privilege that its kind of object does
not have, and its objects stand in order, so the identifier of a grant tells all of it: the grant is
read back from a resource that has the identifier. -/

namespace DeclaredAccess

theorem Privilege.named_keyword (p : Privilege) : Privilege.named p.keyword = .ok p := by
  cases p <;> rfl

theorem Privilege.keyword_ne_all (p : Privilege) :
    Text.keyword (Text.trim p.keyword) ≠ "ALL" := by
  cases p <;> decide

namespace PrivilegeSet

variable {kind : ObjectKind} {s s' : PrivilegeSet}

theorem addNamed_subset {name : String} (hs : s ⊆ kind.allowed)
    (h : addNamed kind s name = .ok s') : s' ⊆ kind.allowed := by
  unfold addNamed at h
  split at h
  · cases h
    exact union_subset hs fun _ hp => hp
  · obtain ⟨p, _, h⟩ := exists_of_bind_eq_ok h
    split at h
    · rename_i hp
      cases h
      refine union_subset hs fun q hq => ?_
      obtain rfl : q = p := by simpa using hq
      exact hp
    · cases h

/-- Names spell only privileges that the kind has. -/
theorem ofNames_subset {names : List String} (h : ofNames kind names = .ok s) :
    s ⊆ kind.allowed :=
  of_foldlM_ok (P := (· ⊆ kind.allowed)) (fun _ _ _ _ hs h => addNamed_subset hs h)
    (fun _ hp => absurd hp mem_empty) h

theorem addNamed_keyword {p : Privilege} (hp : p ∈ kind.allowed) :
    addNamed kind s p.keyword = .ok (s ∪ ofList [p]) := by
  simp only [addNamed, p.keyword_ne_all, if_false, p.named_keyword]
  exact if_pos hp

/-- Keywords spell the privileges that they are of. -/
theorem ofNames_map_keyword {ps : List Privilege} (h : ∀ p ∈ ps, p ∈ kind.allowed) :
    ofNames kind (ps.map Privilege.keyword) = .ok (ofList ps) := by
  have fold (s₀ : PrivilegeSet) : (ps.map Privilege.keyword).foldlM (addNamed kind) s₀ =
      .ok (s₀ ∪ ofList ps) := by
    induction ps generalizing s₀ with
    | nil =>
      refine congrArg Except.ok (ext_mem fun p => ?_)
      simp
    | cons p ps ih =>
      rw [List.map_cons, List.foldlM_cons, addNamed_keyword (h p List.mem_cons_self)]
      refine (ih (fun q hq => h q (List.mem_cons_of_mem _ hq)) _).trans ?_
      refine congrArg Except.ok (ext_mem fun q => ?_)
      simp [or_assoc]
  refine (fold ∅).trans (congrArg Except.ok (ext_mem fun p => ?_))
  simp

/-- A set is read back from its keywords, in whatever order they come. -/
theorem ofNames_sortNames_keywords (h : s ⊆ kind.allowed) :
    ofNames kind (sortNames s.keywords) = .ok s := by
  let ps := s.toList.mergeSort fun p q => decide (p.keyword ≤ q.keyword)
  have hmem (p : Privilege) : p ∈ ps ↔ p ∈ s :=
    (List.mergeSort_perm _ _).mem_iff.trans mem_toList
  have hsort : ps.map Privilege.keyword = sortNames s.keywords :=
    List.map_mergeSort fun _ _ _ _ => rfl
  rw [← hsort, ofNames_map_keyword fun p hp => h p ((hmem p).mp hp)]
  exact congrArg Except.ok (ext_mem fun p => mem_ofList.trans (hmem p))

end PrivilegeSet

theorem nodup_eraseDups (names : List String) : names.eraseDups.Nodup := by
  match names with
  | [] => simp
  | n :: names =>
    rw [List.eraseDups_cons, List.nodup_cons]
    exact ⟨by simp, nodup_eraseDups _⟩
termination_by names.length
decreasing_by exact Nat.lt_succ_of_le (List.length_filter_le _ _)

theorem pairwise_sortNames (names : List String) : (sortNames names).Pairwise (· ≤ ·) := by
  have h : (sortNames names).Pairwise fun a b => decide (a ≤ b) = true := by
    refine List.pairwise_mergeSort ?_ ?_ names
    · intro a b c hab hbc
      exact decide_eq_true (String.le_trans (of_decide_eq_true hab) (of_decide_eq_true hbc))
    · intro a b
      rcases String.le_total a b with h | h <;> simp [h]
  exact h.imp fun hab => of_decide_eq_true hab

/-- What has the same names and is in order is what sorting makes of them. -/
theorem sortNames_eq_of_perm {names sorted : List String} (hp : sorted.Perm names)
    (hs : sorted.Pairwise (· ≤ ·)) : sortNames names = sorted :=
  ((List.mergeSort_perm names _).trans hp.symm).eq_of_pairwise
    (fun _ _ _ _ hab hba => String.le_antisymm hab hba) (pairwise_sortNames names) hs

theorem sortNames_sortNames (names : List String) :
    sortNames (sortNames names) = sortNames names :=
  sortNames_eq_of_perm (.refl _) (pairwise_sortNames names)

namespace Grant

variable {r : Resource} {g : Grant}

/-- A declaration that is accepted is so too where it may go without privileges. -/
theorem declared_of_privileged (h : ofResource r true = .ok g) : ofResource r false = .ok g := by
  obtain ⟨named, name, items, names, h⟩ := ofResource_eq_ok_iff.mp h
  exact ofResource_eq_ok_iff.mpr ⟨named, name, items, names, { h with needed := fun hb => by cases hb }⟩

/-- A declared grant has only privileges of its kind, and its objects stand in order. -/
theorem placed_of_declared {b : Bool} (h : ofResource r b = .ok g) :
    g.privileges ⊆ g.kind.allowed ∧ sortNames g.objects = g.objects := by
  obtain ⟨_, _, items, _, h⟩ := ofResource_eq_ok_iff.mp h
  refine ⟨PrivilegeSet.ofNames_subset h.privileges, ?_⟩
  rw [h.objects, sortNames_sortNames]

theorem recorded_of_declared {b : Bool} (h : ofResource r b = .ok g) (hn : "" ∉ g.objects) :
    g.recorded = g.objects := by
  unfold recorded
  rw [(placed_of_declared h).2]
  split
  · rename_i he
    rw [he] at hn
    exact absurd (List.mem_singleton_self _) hn
  · rfl

/-- What was applied is what the identifier tells, where there is one. -/
theorem applied_eq_ok {a : GrantId} {privileges : PrivilegeSet} (hd : ofResource r false = .ok g)
    (hi : r.id.isEmpty = false) (ha : GrantId.read r.id = .ok a)
    (hp : PrivilegeSet.ofNames g.kind a.privileges = .ok privileges) :
    applied r = .ok { g with
      objects := a.objects, privileges, withGrantOption := a.withGrantOption } := by
  simp only [applied, hd, ha, hi, bind, Except.bind, hp]
  rfl

/-- The identifier of a declared grant tells all of it but the objects that are not recorded. -/
theorem read_id_of_declared (h : ofResource r = .ok g) : GrantId.read g.id = .ok
    { database := g.database, role := g.role, objectType := g.kind.name, schema := g.schema
      objects := g.recorded, privileges := sortNames g.privileges.keywords
      withGrantOption := g.withGrantOption } := by
  obtain ⟨hsound, hprivileged⟩ := sound_of_declared h
  have hne : g.idPrivileges.isEmpty = false := by
    simpa [idPrivileges] using idPrivileges_ne_nil (hprivileged rfl)
  have hstar : (g.withGrantOption && !g.idPrivileges.isEmpty) = g.withGrantOption := by
    rw [hne]
    exact Bool.and_true _
  rw [read_id hsound.toUnmarked, hstar]

/-- A grant is read back from a resource that has its identifier and declares anything in its
scope. -/
theorem applied_of_scope {r' : Resource} {g' : Grant} (h : ofResource r = .ok g)
    (hi : r'.id = g.id) (hd : ofResource r' false = .ok g') (hs : g'.scope = g.scope) :
    applied r' = .ok { g with objects := g.recorded } := by
  obtain ⟨role, database, kind, _, schema, _, _⟩ := g'
  obtain ⟨rfl, rfl, rfl, rfl⟩ := Scope.mk.inj hs
  have hid : r'.id.isEmpty = false := by simpa [hi] using g.id_ne_empty
  have hprivileges := PrivilegeSet.ofNames_sortNames_keywords (placed_of_declared h).1
  exact applied_eq_ok hd hid (hi ▸ read_id_of_declared h) hprivileges

/-- A grant is read back from the resource that declares it, once that has its identifier. -/
theorem applied_setId (h : ofResource r true = .ok g) (hn : "" ∉ g.objects) :
    applied (r.setId g.id) = .ok g := by
  have hdeclared : ofResource (r.setId g.id) false = .ok g := declared_of_privileged h
  rw [applied_of_scope h rfl hdeclared rfl, recorded_of_declared h hn]

end Grant

end DeclaredAccess
