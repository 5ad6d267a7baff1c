import DeclaredAccess.Proofs.Policy.Merge

/-! What declarations and entries say alike: that a role, spelt in some way, has a share in the
privileges on one object. Merging by role joins the shares whose roles have one key, under the
spelling that came first. -/

namespace DeclaredAccess

/-- A role as it is spelt, and what it is said to hold. -/
@[ext] structure Share where
  role : String
  holding : Holding

namespace Share

instance : DecidableEq Share := fun x y =>
  decidable_of_iff (x.role = y.role ∧ x.holding = y.holding) Share.ext_iff.symm

def key (x : Share) : String := Role.key x.role

/-- Two shares as one; the first spelling stays. -/
def join (x y : Share) : Share := ⟨x.role, x.holding ∪ y.holding⟩

theorem join_assoc (x y z : Share) : (x.join y).join z = x.join (y.join z) :=
  Share.ext rfl (Holding.union_assoc ..)

/-- What all shares are together. -/
def total (xs : List Share) : Holding := xs.foldr (fun x h => x.holding ∪ h) ∅

@[simp] theorem total_nil : total [] = ∅ := rfl

@[simp] theorem total_cons (x : Share) (xs : List Share) :
    total (x :: xs) = x.holding ∪ total xs := rfl

theorem total_eq_empty_iff {xs : List Share} : total xs = ∅ ↔ ∀ x ∈ xs, x.holding = ∅ := by
  induction xs with
  | nil => simp
  | cons x xs ih => rw [total_cons, Holding.union_eq_empty_iff, ih, List.forall_mem_cons]

theorem mem_total {xs : List Share} {p : Privilege} :
    p ∈ (total xs).privileges ↔ ∃ x ∈ xs, p ∈ x.holding.privileges := by
  induction xs with
  | nil => simp [show p ∉ (∅ : Holding).privileges from PrivilegeSet.mem_empty]
  | cons x xs ih =>
    rw [total_cons]
    simp only [List.mem_cons, exists_eq_or_imp, ← ih]
    exact PrivilegeSet.mem_union

theorem mem_total_grantOptions {xs : List Share} {p : Privilege} :
    p ∈ (total xs).grantOptions ↔ ∃ x ∈ xs, p ∈ x.holding.grantOptions := by
  induction xs with
  | nil => simp [show p ∉ (∅ : Holding).grantOptions from PrivilegeSet.mem_empty]
  | cons x xs ih =>
    rw [Share.total_cons]
    simp only [List.mem_cons, exists_eq_or_imp, ← ih]
    exact PrivilegeSet.mem_union

/-- What is said of the role that is spelt exactly so. -/
def ofRole (xs : List Share) (role : String) : Holding := total (xs.filter fun x => x.role = role)

theorem total_append (xs ys : List Share) : total (xs ++ ys) = total xs ∪ total ys := by
  induction xs with
  | nil => simp
  | cons x xs ih => simp [ih, Holding.union_assoc]

theorem ofRole_append (xs ys : List Share) (role : String) :
    ofRole (xs ++ ys) role = ofRole xs role ∪ ofRole ys role := by
  rw [ofRole, List.filter_append, total_append]
  rfl

theorem ofRole_singleton (x : Share) (role : String) :
    ofRole [x] role = if role = x.role then x.holding else ∅ := by
  by_cases hr : role = x.role
  · simp [ofRole, hr]
  · simp [ofRole, hr, Ne.symm hr]

/-- Shares in nothing can be left out. -/
theorem ofRole_filter {xs : List Share} {role : String} {p : Share → Bool}
    (h : ∀ x ∈ xs, x.role = role → p x = false → x.holding = ∅) :
    ofRole (xs.filter p) role = ofRole xs role := by
  induction xs with
  | nil => rfl
  | cons x xs ih =>
    have hxs := ih fun y hy => h y (List.mem_cons_of_mem x hy)
    rw [← List.singleton_append, List.filter_append, ofRole_append, ofRole_append, hxs]
    refine congrArg (· ∪ _) ?_
    cases hp : p x with
    | true => simp [hp]
    | false =>
      by_cases hr : x.role = role
      · simp [hp, ofRole, hr, h x List.mem_cons_self hr hp]
      · simp [hp, ofRole, hr]

theorem ofRole_eq_empty_iff {xs : List Share} {role : String} :
    ofRole xs role = ∅ ↔ ∀ x ∈ xs, x.role = role → x.holding = ∅ := by
  rw [ofRole, total_eq_empty_iff]
  refine forall_congr' fun x => ?_
  rw [List.mem_filter, decide_eq_true_eq]
  exact ⟨fun h hx hr => h ⟨hx, hr⟩, fun h hx => h hx.1 hx.2⟩

theorem mem_ofRole {xs : List Share} {x : Share} (hx : x ∈ xs) {p : Privilege}
    (hp : p ∈ x.holding.privileges) : p ∈ (ofRole xs x.role).privileges :=
  mem_total.mpr ⟨x, List.mem_filter.mpr ⟨hx, decide_eq_true rfl⟩, hp⟩

/-- What is said of all roles with one key, as a share of the first of them. -/
def merged (xs : List Share) (k : String) : Option Share :=
  match xs.filter fun x => x.key = k with
  | [] => none
  | x :: r => some (r.foldl join x)

theorem foldl_join (x : Share) (xs : List Share) :
    xs.foldl join x = ⟨x.role, x.holding ∪ total xs⟩ := by
  induction xs generalizing x with
  | nil => simp
  | cons y xs ih =>
    rw [List.foldl_cons, ih, total_cons, ← Holding.union_assoc]
    rfl

theorem merged_eq_none_iff {xs : List Share} {k : String} :
    merged xs k = none ↔ ∀ x ∈ xs, x.key ≠ k := by
  unfold merged
  constructor
  · intro h x hx hk
    cases hf : xs.filter fun x => x.key = k with
    | nil =>
      have hn := List.filter_eq_nil_iff.mp hf x hx
      exact absurd (by simpa using hk) hn
    | cons y r => rw [hf] at h; cases h
  · intro h
    have hf : (xs.filter fun x => x.key = k) = [] :=
      List.filter_eq_nil_iff.mpr fun x hx => by simpa using h x hx
    rw [hf]

/-- What is said of all roles with one key has this key, and is all that is said of them. -/
theorem merged_spec {xs : List Share} {k : String} {x : Share} (h : merged xs k = some x) :
    x.key = k ∧ x.holding = total (xs.filter fun x => x.key = k) := by
  unfold merged at h
  cases hl : xs.filter fun x => x.key = k with
  | nil => rw [hl] at h; cases h
  | cons y r =>
    have hy : y.key = k := by
      have hmem : y ∈ xs.filter fun x => x.key = k := hl ▸ List.mem_cons_self
      simpa using (List.mem_filter.mp hmem).2
    simp only [hl, foldl_join] at h
    cases h
    exact ⟨hy, rfl⟩

theorem merged_holding_ne_empty_iff {xs : List Share} {k : String} {x : Share}
    (h : merged xs k = some x) : x.holding ≠ ∅ ↔ ∃ z ∈ xs, z.key = k ∧ z.holding ≠ ∅ := by
  rw [(merged_spec h).2, Ne, total_eq_empty_iff]
  simp

/-- Where all roles with the key of a role are spelt like it, they are it. -/
theorem merged_of_spelt {xs : List Share} {role : String}
    (h : ∀ x ∈ xs, x.key = Role.key role → x.role = role) :
    merged xs (Role.key role) =
      if ∃ x ∈ xs, x.role = role then some ⟨role, ofRole xs role⟩ else none := by
  have hf : (xs.filter fun x => x.key = Role.key role) = xs.filter fun x => x.role = role := by
    refine List.filter_congr fun x hx => ?_
    exact decide_eq_decide.mpr ⟨h x hx, fun hr => congrArg Role.key hr⟩
  unfold merged ofRole
  rw [hf]
  cases hl : xs.filter fun x => x.role = role with
  | nil =>
    rw [if_neg]
    rintro ⟨x, hx, hr⟩
    exact absurd (by simpa using hr) (List.filter_eq_nil_iff.mp hl x hx)
  | cons x r =>
    have hx : x ∈ xs.filter fun x => x.role = role := hl ▸ List.mem_cons_self
    obtain ⟨hm, hr⟩ := List.mem_filter.mp hx
    have hrole : x.role = role := by simpa using hr
    rw [if_pos ⟨x, hm, hrole⟩]
    show some (r.foldl join x) = _
    rw [foldl_join, hrole]
    rfl

/-- Where nothing is said of a role that is empty, something is said of it only if it holds that. -/
theorem merged_of_held {xs : List Share} {role : String}
    (h : ∀ x ∈ xs, x.key = Role.key role → x.role = role)
    (hne : ∀ x ∈ xs, x.role = role → x.holding ≠ ∅) : merged xs (Role.key role) =
      (some (⟨role, ofRole xs role⟩ : Share)).filter fun x => x.holding ≠ ∅ := by
  rw [merged_of_spelt h]
  by_cases hr : ofRole xs role = ∅
  · rw [if_neg, Option.filter_some_neg (by simpa using hr)]
    rintro ⟨x, hx, hxr⟩
    exact hne x hx hxr (ofRole_eq_empty_iff.mp hr x hx hxr)
  · rw [if_pos, Option.filter_some_pos (by simpa using hr)]
    refine Classical.byContradiction fun hnone => hr (ofRole_eq_empty_iff.mpr ?_)
    exact fun x hx hxr => absurd ⟨x, hx, hxr⟩ hnone

/-- Where all roles with the key of a role are spelt alike, their share is the role's if it is spelt
like them. -/
theorem ofRole_of_alike {xs : List Share} {role : String}
    (h : ∀ x ∈ xs, ∀ y ∈ xs, x.key = Role.key role → y.key = Role.key role → x.role = y.role) :
    ofRole xs role = match merged xs (Role.key role) with
      | some x => if x.role = role then x.holding else ∅
      | none => ∅ := by
  have nothing (hn : ∀ x ∈ xs, x.role ≠ role) : ofRole xs role = ∅ := by
    rw [ofRole, List.filter_eq_nil_iff.mpr fun x hx => by simpa using hn x hx]
    rfl
  by_cases hx : ∃ x ∈ xs, x.key = Role.key role
  · obtain ⟨x, hx, hk⟩ := hx
    have spelt : ∀ y ∈ xs, y.key = Role.key x.role → y.role = x.role :=
      fun y hy hyk => h y hy x hx (hyk.trans hk) hk
    rw [← show Role.key x.role = Role.key role from hk, merged_of_spelt spelt, if_pos ⟨x, hx, rfl⟩]
    dsimp only
    split
    · rename_i hr
      rw [hr]
    · rename_i hr
      exact nothing fun y hy hyr => hr ((h y hy x hx (congrArg Role.key hyr) hk).symm.trans hyr)
  · rw [merged_eq_none_iff.mpr fun x hxs hk => hx ⟨x, hxs, hk⟩]
    exact nothing fun x hxs hr => hx ⟨x, hxs, congrArg Role.key hr⟩

/-- Shares of other keys do not matter. -/
theorem merged_filter (xs : List Share) (p : String → Bool) (k : String) :
    merged (xs.filter fun x => p x.key) k = if p k then merged xs k else none := by
  split
  · rename_i hp
    have hf : ((xs.filter fun x => p x.key).filter fun x => x.key = k) =
        xs.filter fun x => x.key = k := by
      rw [List.filter_filter]
      refine List.filter_congr fun x _ => ?_
      by_cases hk : x.key = k
      · simp [hk, hp]
      · simp [hk]
    unfold merged
    rw [hf]
  · rename_i hp
    refine merged_eq_none_iff.mpr fun x hx hk => hp ?_
    exact hk ▸ (List.mem_filter.mp hx).2

section

variable {α ε : Type} {key : α → String} {merge : α → α → Except ε α} {view : α → Share}

theorem merged_eq_none_of_not_mem (hk : ∀ a, (view a).key = key a) {xs : List α} {k : String}
    (h : k ∉ xs.map key) : merged (xs.map view) k = none := by
  refine merged_eq_none_iff.mpr fun x hx hxk => h ?_
  obtain ⟨a, ha, rfl⟩ := List.mem_map.mp hx
  exact List.mem_map.mpr ⟨a, ha, (hk a).symm.trans hxk⟩

/-- Merging elements joins what is seen of them. -/
def Views (merge : α → α → Except ε α) (view : α → Share) : Prop :=
  ∀ a b c, merge a b = .ok c → view c = (view a).join (view b)

theorem foldlM_accumulate (hv : Views merge view) {l : List α} {x : α} {o : Option α}
    (h : l.foldlM (Keyed.accumulate merge) (some x) = .ok o) :
    o.map view = some ((l.map view).foldl join (view x)) := by
  induction l generalizing x with
  | nil =>
    cases h
    rfl
  | cons y l ih =>
    rw [List.foldlM_cons] at h
    cases hc : merge x y with
    | error e => simp only [Keyed.accumulate, hc] at h; cases h
    | ok z =>
      simp only [Keyed.accumulate, hc] at h
      rw [ih h, hv x y z hc]
      rfl

/-- What merging by key leaves under a key is what is said of the roles with that key. -/
theorem merged_of_gather (hk : ∀ a, (view a).key = key a) (hv : Views merge view) {xs : List α}
    {m : Keyed α} (h : Keyed.gather key merge xs = .ok m) (k : String) :
    (m.get? k).map view = merged (xs.map view) k := by
  have hg := Keyed.get?_gather h k
  have hf : ((xs.map view).filter fun x => x.key = k) = (xs.filter fun x => key x = k).map view := by
    rw [List.filter_map]
    exact congrArg (List.map view) (List.filter_congr fun a _ => by simp [hk])
  unfold merged
  rw [hf]
  cases hl : xs.filter fun x => key x = k with
  | nil =>
    rw [hl] at hg
    have hn : none = m.get? k := Except.ok.inj hg
    rw [← hn]
    rfl
  | cons x r =>
    rw [hl, List.foldlM_cons] at hg
    exact foldlM_accumulate hv hg

/-- Where every key stands once, what is said of it is said in one place. -/
theorem merged_of_keyed {m : Keyed α} (hm : m.keys.Nodup) (hk : ∀ e ∈ m, (view e.2).key = e.1)
    (k : String) : merged (m.map fun e => view e.2) k = (m.get? k).map view := by
  have hf : ((m.map fun e => view e.2).filter fun x => x.key = k) =
      (m.filter fun e => e.1 = k).map fun e => view e.2 := by
    rw [List.filter_map]
    exact congrArg (List.map _) (List.filter_congr fun e he => by simp [hk e he])
  unfold merged
  rw [hf, Keyed.filter_key hm]
  cases m.get? k <;> rfl

end

end Share

namespace Declaration

def share (d : Declaration) : Share := ⟨d.role, d.holding⟩

theorem views : Share.Views merge share := by
  intro a b c h
  unfold merge at h
  split at h
  · cases h
  · split at h
    · cases h
    · cases h
      rfl

/-- What merged declarations say under a key. -/
theorem merged_byRole {ds : List Declaration} {m : Keyed Declaration} (h : byRole ds = .ok m)
    (k : String) : (m.get? k).map share = Share.merged (ds.map share) k :=
  Share.merged_of_gather (fun _ => rfl) views h k

/-- What declarations give to a role, by what they say under its key. -/
theorem givenBy_eq {kind : ObjectKind} {ds : List Declaration} {m : Keyed Declaration}
    (hm : byRole ds = .ok m) (hds : ∀ d ∈ ds, d.Fits kind) (role : String) :
    givenBy ds role = match Share.merged (ds.map share) (Role.key role) with
      | some x => if x.role = role then x.holding else ∅
      | none => ∅ := by
  rw [givenBy_of_byRole hm, given_eq (indexed_byRole hm hds), ← merged_byRole hm]
  cases m.get? (Role.key role) with
  | none => rfl
  | some d => rfl

end Declaration

namespace Acl

def holding (a : Acl) : Holding := ⟨a.privileges, a.grantOptions⟩

def share (a : Acl) : Share := ⟨a.role, a.holding⟩

theorem holding_eq_empty_iff {a : Acl} : a.holding = ∅ ↔ a.privileges = ∅ := by
  refine ⟨fun h => congrArg Holding.privileges h, fun h => Holding.ext h ?_⟩
  refine PrivilegeSet.ext_mem fun p => ⟨fun hp => ?_, fun hp => absurd hp PrivilegeSet.mem_empty⟩
  have held : p ∈ a.privileges := a.covered p hp
  rwa [h] at held

theorem views : Share.Views merge share := by
  intro a b c h
  unfold merge at h
  split at h
  · cases h
    rfl
  · cases h

theorem merged_byRole {as : List Acl} {m : Keyed Acl} (h : byRole as = .ok m) (k : String) :
    (m.get? k).map share = Share.merged (as.map share) k :=
  Share.merged_of_gather (fun _ => rfl) views h k

/-- Entries of one role key stay within what each of them stays within. -/
theorem keeps_within (bound : PrivilegeSet) :
    Keyed.Keeps key merge fun a => a.privileges ⊆ bound := by
  intro a b c ha hb h
  refine ⟨?_, key_merge h⟩
  unfold merge at h
  split at h
  · cases h
    exact PrivilegeSet.union_subset ha hb
  · cases h

theorem indexed_byRole {bound : PrivilegeSet} {as : List Acl} {m : Keyed Acl}
    (h : byRole as = .ok m) (has : ∀ a ∈ as, a.privileges ⊆ bound) :
    m.Indexed key fun a => a.privileges ⊆ bound :=
  Keyed.indexed_gather (keeps_within bound) has h

theorem keeps_key : Keyed.Keeps key merge fun _ => True :=
  fun _ _ _ _ _ h => ⟨trivial, key_merge h⟩

theorem keyed_byRole {as : List Acl} {m : Keyed Acl} (h : byRole as = .ok m) :
    m.Indexed key fun _ => True :=
  Keyed.indexed_gather keeps_key (fun _ _ => trivial) h

end Acl

end DeclaredAccess
