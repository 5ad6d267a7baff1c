import DeclaredAccess.Proofs.Policy.Partition

/-! The order of declarations does not show, as long as no role key is spelt in two ways. What stands
under a key is a union, so lists with the same declarations are merged into the same entries. Whatever
is then done goes through the entries in the order of their keys. -/

namespace DeclaredAccess

namespace Keyed

variable {α : Type} {m m' : Keyed α}

theorem get?_of_perm (hm : m.keys.Nodup) (h : m.Perm m') (k : String) : m.get? k = m'.get? k :=
  Option.ext fun v => by
    rw [get?_eq_some_iff hm, get?_eq_some_iff ((h.map Prod.fst).nodup_iff.mp hm), h.mem_iff]

theorem perm_of_get? (hm : m.keys.Nodup) (hm' : m'.keys.Nodup) (h : ∀ k, m.get? k = m'.get? k) :
    m.Perm m' := by
  refine (List.perm_ext_iff_of_nodup hm.of_map hm'.of_map).mpr fun e => ?_
  rw [← get?_eq_some_iff hm, ← get?_eq_some_iff hm', h]

theorem pairwise_sorted (m : Keyed α) : m.sorted.Pairwise fun a b => a.1 ≤ b.1 := by
  refine (List.pairwise_mergeSort (fun a b c hab hbc => ?_) (fun a b => ?_) m).imp
    fun h => of_decide_eq_true h
  · exact decide_eq_true (String.le_trans (of_decide_eq_true hab) (of_decide_eq_true hbc))
  · rcases String.le_total a.1 b.1 with h | h <;> simp [h]

/-- Entries of which no two have one key are sorted in one way only. -/
theorem sorted_eq_of_perm (hm : m.keys.Nodup) (h : m.Perm m') : m.sorted = m'.sorted := by
  have same : m.sorted.Perm m'.sorted := (sorted_perm m).trans (h.trans (sorted_perm m').symm)
  refine same.eq_of_pairwise (fun a b ha hb hab hba => ?_) (pairwise_sorted m) (pairwise_sorted m')
  have hk : a.1 = b.1 := String.le_antisymm hab hba
  have hga := get?_of_mem (nodup_sorted hm) ha
  rw [hk, get?_of_mem (nodup_sorted hm) (same.mem_iff.mpr hb)] at hga
  exact Prod.ext hk (Option.some.inj hga).symm

end Keyed

namespace Declaration

variable {ds ds' : List Declaration} {m m' : Keyed Declaration} {k : String} {d : Declaration}

/-- No role key is spelt in two ways. -/
def Uniform (ds : List Declaration) : Prop :=
  ∀ a ∈ ds, ∀ b ∈ ds, a.key = b.key → a.role = b.role

instance (ds : List Declaration) : Decidable (Uniform ds) :=
  inferInstanceAs (Decidable (∀ a ∈ ds, ∀ b ∈ ds, a.key = b.key → a.role = b.role))

theorem Uniform.perm (hu : Uniform ds) (h : ds.Perm ds') : Uniform ds' :=
  fun a ha b hb => hu a (h.mem_iff.mpr ha) b (h.mem_iff.mpr hb)

theorem Uniform.filter (hu : Uniform ds) (p : Declaration → Bool) : Uniform (ds.filter p) :=
  fun a ha b hb => hu a (List.mem_filter.mp ha).1 b (List.mem_filter.mp hb).1

theorem Consistent.perm (hc : Consistent ds) (h : ds.Perm ds') : Consistent ds' :=
  fun a ha b hb => hc a (h.mem_iff.mpr ha) b (h.mem_iff.mpr hb)

/-- Which declaration comes first does not matter where all with one key agree on what the first one
decides. -/
theorem Unites.perm (hu : Uniform ds) (hc : Consistent ds) (h : ds.Perm ds')
    (hd : Unites ds k d) : Unites ds' k d where
  first := by
    obtain ⟨f, hf, hr, ho⟩ := hd.first
    have hmem : f ∈ ds := List.mem_of_find?_eq_some hf
    have hk : f.key = k := by simpa using List.find?_some hf
    cases hf' : ds'.find? fun a => a.key = k with
    | none => exact absurd hk (by simpa using List.find?_eq_none.mp hf' f (h.mem_iff.mp hmem))
    | some f' =>
      have hmem' : f' ∈ ds := h.mem_iff.mpr (List.mem_of_find?_eq_some hf')
      have hk' : f'.key = k := by simpa using List.find?_some hf'
      have same : f.key = f'.key := hk.trans hk'.symm
      exact ⟨f', rfl, hr.trans (hu f hmem f' hmem' same), ho.trans (hc f hmem f' hmem' same)⟩
  privileges p := by simp only [hd.privileges p, h.mem_iff]
  grantOptions p := by simp only [hd.grantOptions p, h.mem_iff]

/-- Lists with the same declarations are merged into the same entries, or both cannot be merged. -/
theorem byRole_perm (hu : Uniform ds) (h : ds.Perm ds') :
    (∃ m m', byRole ds = .ok m ∧ byRole ds' = .ok m' ∧ m.keys.Nodup ∧ m.Perm m') ∨
      ∃ e e', byRole ds = .error e ∧ byRole ds' = .error e' := by
  rcases byRole_cases ds with ⟨hc, m, hm, hi⟩ | ⟨a, ha, b, hb, hk, hne, he⟩
  · rcases byRole_cases ds' with ⟨hc', m', hm', hi'⟩ | ⟨a, ha, b, hb, hk, hne, _⟩
    · refine .inl ⟨m, m', hm, hm', hi.nodup, Keyed.perm_of_get? hi.nodup hi'.nodup fun k => ?_⟩
      refine Option.ext fun d => ?_
      rw [get?_byRole_eq_some_iff hm, get?_byRole_eq_some_iff hm']
      exact ⟨.perm hu hc h, .perm (hu.perm h) hc' h.symm⟩
    · exact absurd (hc.perm h a ha b hb hk) hne
  · rcases byRole_cases ds' with ⟨hc', _⟩ | ⟨_, _, _, _, _, _, he'⟩
    · exact absurd (hc'.perm h.symm a ha b hb hk) hne
    · exact .inr ⟨_, _, he, he'⟩

end Declaration

namespace PolicyDiff

open Declaration

variable {o o' n n' : Keyed Declaration} {d d' : PolicyDiff} {old old' new new' : List Declaration}

/-- Each part is made of the entries on one side, looking up those on the other. -/
theorem between_perm (ho : o.keys.Nodup) (hn : n.keys.Nodup) (h : o.Perm o') (h' : n.Perm n') :
    (between o n).Same (between o' n') := by
  have old : o.get? = o'.get? := funext (Keyed.get?_of_perm ho h)
  have new : n.get? = n'.get? := funext (Keyed.get?_of_perm hn h')
  constructor
  all_goals simp only [between, Keyed.contains, old, new]
  · exact h.filter _
  · exact h'.filter _
  · exact h.filterMap _
  · exact h.filter _

/-- A plan goes through the entries in the order of their keys. -/
theorem plan_eq_of_same (hd : d.dropped.keys.Nodup) (ha : d.added.keys.Nodup)
    (hu : (Keyed.keys d.updated).Nodup) (h : d.Same d') (m : Type → Type) [Monad m]
    (target : Target) (roleExists : String → m Bool) :
    d.plan target roleExists = d'.plan target roleExists := by
  unfold plan
  rw [Keyed.sorted_eq_of_perm hd h.dropped, Keyed.sorted_eq_of_perm ha h.added,
    Keyed.sorted_eq_of_perm hu h.updated]

/-- Lists with the same declarations have the same difference, or none. -/
theorem ofLists_perm (ho : Uniform old) (hn : Uniform new) (h : old.Perm old')
    (h' : new.Perm new') :
    (∃ d d', ofLists old new = .ok d ∧ ofLists old' new' = .ok d' ∧ d.Same d' ∧
      d.hasChanges = d'.hasChanges ∧
      ∀ (m : Type → Type) [Monad m] (target : Target) (roleExists : String → m Bool),
        d.plan target roleExists = d'.plan target roleExists) ∨
    ∃ e e', ofLists old new = .error e ∧ ofLists old' new' = .error e' := by
  rcases byRole_perm ho h with ⟨o, o', hbo, hbo', hok, hop⟩ | ⟨e, e', he, he'⟩
  · rcases byRole_perm hn h' with ⟨n, n', hbn, hbn', hnk, hnp⟩ | ⟨e, e', he, he'⟩
    · have same := between_perm hok hnk hop hnp
      refine .inl ⟨between o n, between o' n', ?_, ?_, same, ?_, ?_⟩
      · rw [ofLists, hbo, hbn]
        rfl
      · rw [ofLists, hbo', hbn']
        rfl
      · simp only [hasChanges, same.dropped.isEmpty_eq, same.added.isEmpty_eq,
          same.updated.isEmpty_eq]
      · have dropped := hok.sublist (List.filter_sublist (p := fun e => !n.contains e.1).map Prod.fst)
        have added := hnk.sublist (List.filter_sublist (p := fun e => !o.contains e.1).map Prod.fst)
        exact plan_eq_of_same dropped added (nodup_keys_updated hok) same
    · refine .inr ⟨e, e', ?_, ?_⟩
      · rw [ofLists, hbo, he]
        rfl
      · rw [ofLists, hbo', he']
        rfl
  · refine .inr ⟨e, e', ?_, ?_⟩
    · rw [ofLists, he]
      rfl
    · rw [ofLists, he']
      rfl

end PolicyDiff

end DeclaredAccess
