import DeclaredAccess.Declaration
import DeclaredAccess.Proofs.Catalog.Holding
import DeclaredAccess.Proofs.Checks

/-! Declarations merged by role. Every entry stands under the key of its own declaration, and no key
stands twice; so a spelling of a role belongs to one entry at most, whichever order the
declarations came in. What every declaration satisfies is kept where merging keeps it. -/

namespace DeclaredAccess

namespace Keyed

variable {α ε : Type} {key : α → String} {merge : α → α → Except ε α} {P : α → Prop}

/-- No key stands twice, and each entry stands under its own key. -/
structure Indexed (key : α → String) (P : α → Prop) (m : Keyed α) : Prop where
  nodup : m.keys.Nodup
  entry : ∀ e ∈ m, key e.2 = e.1 ∧ P e.2

theorem Indexed.mono {Q : α → Prop} {m : Keyed α} (h : m.Indexed key P) (hq : ∀ a, P a → Q a) :
    m.Indexed key Q where
  nodup := h.nodup
  entry e he := (h.entry e he).imp_right (hq e.2)

theorem mem_of_mem_put {m : Keyed α} {k : String} {v : α} {e : String × α} (h : e ∈ m.put k v) :
    e = (k, v) ∨ e ∈ m := by
  induction m with
  | nil => simpa [put] using h
  | cons x r ih =>
    obtain ⟨k', w⟩ := x
    unfold put at h
    split at h
    · rcases List.mem_cons.mp h with h | h
      · exact .inl h
      · exact .inr (List.mem_cons_of_mem _ h)
    · rcases List.mem_cons.mp h with h | h
      · exact .inr (h ▸ List.mem_cons_self)
      · exact (ih h).imp_right (List.mem_cons_of_mem _)

theorem mem_of_get? {m : Keyed α} {k : String} {v : α} (h : m.get? k = some v) : (k, v) ∈ m := by
  induction m with
  | nil => cases h
  | cons x r ih =>
    obtain ⟨k', w⟩ := x
    rw [get?_cons] at h
    split at h
    · rename_i hk
      cases h
      exact hk ▸ List.mem_cons_self
    · exact List.mem_cons_of_mem _ (ih h)

theorem get?_of_mem {m : Keyed α} (hm : m.keys.Nodup) {e : String × α} (h : e ∈ m) :
    m.get? e.1 = some e.2 := by
  induction m with
  | nil => cases h
  | cons x r ih =>
    obtain ⟨hx, hr⟩ := List.nodup_cons.mp hm
    rw [get?_cons]
    rcases List.mem_cons.mp h with rfl | h
    · simp
    · have hne : e.1 ≠ x.1 := fun hk => hx (List.mem_map.mpr ⟨e, h, hk⟩)
      rw [if_neg hne]
      exact ih hr h

theorem get?_eq_some_iff {m : Keyed α} (hm : m.keys.Nodup) {k : String} {v : α} :
    m.get? k = some v ↔ (k, v) ∈ m :=
  ⟨mem_of_get?, fun h => get?_of_mem hm h⟩

theorem mem_keys_iff {m : Keyed α} (hm : m.keys.Nodup) {k : String} :
    k ∈ m.keys ↔ ∃ v, m.get? k = some v := by
  simp only [get?_eq_some_iff hm, keys, List.mem_map, Prod.exists, exists_and_right, exists_eq_right]

/-- Of the entries of a list by name one at most stands under a name. -/
theorem filter_key {m : Keyed α} (hm : m.keys.Nodup) (k : String) :
    (m.filter fun e => e.1 = k) = ((m.get? k).map fun v => (k, v)).toList := by
  induction m with
  | nil => rfl
  | cons e r ih =>
    obtain ⟨he, hr⟩ := List.nodup_cons.mp hm
    rw [get?_cons]
    by_cases h : e.1 = k
    · have none : (r.filter fun x => x.1 = k) = [] := by
        refine List.filter_eq_nil_iff.mpr fun x hx hxk => he (List.mem_map.mpr ⟨x, hx, ?_⟩)
        exact (of_decide_eq_true hxk).trans h.symm
      rw [List.filter_cons_of_pos (by simpa using h), none, if_pos h.symm, ← h]
      rfl
    · rw [List.filter_cons_of_neg (by simpa using h), if_neg (Ne.symm h)]
      exact ih hr

theorem not_contains_iff {m : Keyed α} {k : String} : (!m.contains k) = true ↔ m.get? k = none := by
  simp [contains]

theorem Indexed.put {m : Keyed α} (h : m.Indexed key P) {v : α} {k : String} (hk : key v = k)
    (hv : P v) : (m.put k v).Indexed key P where
  nodup := nodup_keys_put h.nodup k v
  entry e he := by
    rcases mem_of_mem_put he with rfl | he
    · exact ⟨hk, hv⟩
    · exact h.entry e he

/-- Adds one entry under its key, or merges it into the one that is there. -/
def mergeIn (key : α → String) (merge : α → α → Except ε α) (m : Keyed α) (x : α) :
    Except ε (Keyed α) :=
  match m.get? (key x) with
  | some y => (merge y x).map (m.put (key x))
  | none => .ok (m.put (key x) x)

theorem gather_eq (xs : List α) : gather key merge xs = xs.foldlM (mergeIn key merge) [] := rfl

/-- `merge` keeps the key of the first entry, and what both entries satisfy. -/
def Keeps (key : α → String) (merge : α → α → Except ε α) (P : α → Prop) : Prop :=
  ∀ a b c, P a → P b → merge a b = .ok c → P c ∧ key c = key a

/-- A step writes under the key of the element: the element, or what it and the entry there make. -/
theorem exists_of_mergeIn {m m' : Keyed α} {x : α} (h : mergeIn key merge m x = .ok m') :
    ∃ z, m' = m.put (key x) z ∧ (m.get? (key x) = none ∧ z = x ∨
      ∃ y, m.get? (key x) = some y ∧ merge y x = .ok z) := by
  unfold mergeIn at h
  cases hg : m.get? (key x) with
  | none =>
    rw [hg] at h
    cases h
    exact ⟨x, rfl, .inl ⟨rfl, rfl⟩⟩
  | some y =>
    simp only [hg] at h
    cases hc : merge y x with
    | error e => rw [hc] at h; cases h
    | ok z =>
      rw [hc] at h
      cases h
      exact ⟨z, rfl, .inr ⟨y, rfl, hc⟩⟩

theorem Indexed.mergeIn {m m' : Keyed α} {x : α} (h : m.Indexed key P) (hm : Keeps key merge P)
    (hx : P x) (he : mergeIn key merge m x = .ok m') : m'.Indexed key P := by
  obtain ⟨z, rfl, ⟨-, rfl⟩ | ⟨y, hg, hz⟩⟩ := exists_of_mergeIn he
  · exact h.put rfl hx
  · obtain ⟨hky, hy⟩ := h.entry _ (mem_of_get? hg)
    obtain ⟨hpz, hkz⟩ := hm y x z hy hx hz
    exact h.put (hkz.trans hky) hpz

theorem indexed_nil : Indexed key P ([] : Keyed α) := ⟨List.nodup_nil, fun _ he => by cases he⟩

theorem indexed_gather {xs : List α} {m : Keyed α} (hm : Keeps key merge P)
    (hxs : ∀ x ∈ xs, P x) (h : gather key merge xs = .ok m) : m.Indexed key P :=
  of_foldlM_ok (fun x hx _ _ hi he => hi.mergeIn hm (hxs x hx) he) indexed_nil (gather_eq xs ▸ h)

/-- What an element makes of what is found under its key. -/
def accumulate (merge : α → α → Except ε α) (found : Option α) (x : α) : Except ε (Option α) :=
  match found with
  | some y => (merge y x).map some
  | none => .ok (some x)

theorem get?_mergeIn {m m' : Keyed α} {x : α} (h : mergeIn key merge m x = .ok m') (k : String) :
    if key x = k then accumulate merge (m.get? k) x = .ok (m'.get? k)
    else m'.get? k = m.get? k := by
  obtain ⟨z, rfl, hz⟩ := exists_of_mergeIn h
  rw [get?_put]
  split
  · rename_i hk
    rw [if_pos hk.symm, ← hk]
    obtain ⟨hg, rfl⟩ | ⟨y, hg, hm⟩ := hz
    · rw [hg]
      rfl
    · rw [hg, accumulate, hm]
      rfl
  · rw [if_neg (Ne.symm ‹_›)]

theorem get?_foldlM {xs : List α} {m m' : Keyed α}
    (h : xs.foldlM (mergeIn key merge) m = .ok m') (k : String) :
    (xs.filter fun x => key x = k).foldlM (accumulate merge) (m.get? k) = .ok (m'.get? k) := by
  induction xs generalizing m with
  | nil =>
    cases h
    rfl
  | cons x xs ih =>
    rw [List.foldlM_cons] at h
    obtain ⟨m₁, hx, h⟩ := exists_of_bind_eq_ok h
    have hm := get?_mergeIn hx k
    by_cases hk : key x = k
    · rw [if_pos hk] at hm
      rw [List.filter_cons_of_pos (by simpa using hk), List.foldlM_cons, hm]
      exact ih h
    · rw [if_neg hk] at hm
      rw [List.filter_cons_of_neg (by simpa using hk), ← hm]
      exact ih h

/-- Under a key stands what the entries with this key make, merged in order. -/
theorem get?_gather {xs : List α} {m : Keyed α} (h : gather key merge xs = .ok m) (k : String) :
    (xs.filter fun x => key x = k).foldlM (accumulate merge) none = .ok (m.get? k) :=
  get?_foldlM (gather_eq xs ▸ h) k

/-- Entries can be gathered where any two of them with one key can be merged. -/
theorem exists_gather {xs : List α} (hm : Keeps key merge P)
    (hs : ∀ a b, P a → P b → key a = key b → ∃ c, merge a b = .ok c) (hxs : ∀ x ∈ xs, P x) :
    ∃ m, gather key merge xs = .ok m := by
  have step {m : Keyed α} (h : m.Indexed key P) {x : α} (hx : P x) :
      ∃ m', mergeIn key merge m x = .ok m' := by
    unfold mergeIn
    cases hg : m.get? (key x) with
    | none => exact ⟨_, rfl⟩
    | some y =>
      obtain ⟨hk, hy⟩ := h.entry _ (mem_of_get? hg)
      obtain ⟨z, hz⟩ := hs y x hy hx hk
      exact ⟨m.put (key x) z, by simp [hz, Except.map]⟩
  have all {m : Keyed α} (h : m.Indexed key P) :
      ∃ m', xs.foldlM (mergeIn key merge) m = .ok m' := by
    induction xs generalizing m with
    | nil => exact ⟨m, rfl⟩
    | cons x xs ih =>
      have hx : P x := hxs x List.mem_cons_self
      obtain ⟨m₁, h₁⟩ := step h hx
      rw [List.foldlM_cons, h₁]
      exact ih (fun y hy => hxs y (List.mem_cons_of_mem x hy)) (h.mergeIn hm hx h₁)
  exact all indexed_nil

theorem sorted_perm (m : Keyed α) : m.sorted.Perm m := List.mergeSort_perm m _

theorem nodup_sorted {m : Keyed α} (h : m.keys.Nodup) : m.sorted.keys.Nodup :=
  ((sorted_perm m).map _).nodup_iff.mpr h

theorem get?_sorted {m : Keyed α} (h : m.keys.Nodup) (k : String) : m.sorted.get? k = m.get? k :=
  Option.ext fun v => by
    rw [get?_eq_some_iff (nodup_sorted h), get?_eq_some_iff h, (sorted_perm m).mem_iff]

end Keyed

namespace Declaration

/-- The declaration can be made on objects of a kind. -/
structure Fits (kind : ObjectKind) (d : Declaration) : Prop where
  covered : d.grantOptions ⊆ d.privileges
  allowed : d.privileges ⊆ kind.allowed

def holding (d : Declaration) : Holding := ⟨d.privileges, d.grantOptions⟩

/-- What merged declarations give to the role that is spelt exactly so. -/
def given (m : Keyed Declaration) (role : String) : Holding :=
  match m.find? fun e => e.2.role == role with
  | some e => e.2.holding
  | none => ∅

/-- What a list of declarations gives to the role that is spelt exactly so. -/
def givenBy (ds : List Declaration) (role : String) : Holding :=
  match byRole ds with
  | .ok m => given m role
  | .error _ => ∅

theorem givenBy_of_byRole {ds : List Declaration} {m : Keyed Declaration} (h : byRole ds = .ok m)
    (role : String) : givenBy ds role = given m role := by
  unfold givenBy
  rw [h]

theorem keeps_fits (kind : ObjectKind) : Keyed.Keeps key merge (Fits kind) := by
  intro a b c ha hb h
  refine ⟨?_, key_merge h⟩
  unfold merge at h
  split at h
  · cases h
  · split at h
    · cases h
    · cases h
      exact ⟨PrivilegeSet.union_subset_union ha.covered hb.covered,
        PrivilegeSet.union_subset ha.allowed hb.allowed⟩

/-- Merged declarations are of their own keys, and fit wherever each one fitted. -/
theorem indexed_byRole {kind : ObjectKind} {ds : List Declaration} {m : Keyed Declaration}
    (h : byRole ds = .ok m) (hds : ∀ d ∈ ds, d.Fits kind) : m.Indexed key (Fits kind) :=
  Keyed.indexed_gather (keeps_fits kind) hds h

variable {P : Declaration → Prop} {m : Keyed Declaration}

/-- The declaration under the key of a role is for the role only where it is spelt so too. -/
theorem given_eq (hm : m.Indexed key P) (role : String) :
    given m role = match m.get? (Role.key role) with
      | some d => if d.role = role then d.holding else ∅
      | none => ∅ := by
  unfold given
  cases hf : m.find? fun e => e.2.role == role with
  | some e =>
    have he : e ∈ m := List.mem_of_find?_eq_some hf
    have hr : e.2.role = role := by simpa using List.find?_some hf
    have hk : Role.key role = e.1 := hr ▸ (hm.entry e he).1
    rw [hk, Keyed.get?_of_mem hm.nodup he]
    simp [hr]
  | none =>
    cases hg : m.get? (Role.key role) with
    | none => rfl
    | some d =>
      have hd : (d.role == role) = false := by
        simpa using List.find?_eq_none.mp hf _ (Keyed.mem_of_get? hg)
      simp [beq_eq_false_iff_ne.mp hd]

end Declaration

end DeclaredAccess
