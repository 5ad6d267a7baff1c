import DeclaredAccess.Proofs.Policy.Transition
import Mathlib.Data.List.Nodup

/-! The difference of two lists of declarations loses nothing and counts nothing twice. Gathering
fails only where two declarations of one role are for different objects, and then it names two such.
Where it returns, under a key stands what the declarations with this key say together. Each of the
old ones is found again as dropped, unchanged or the first side of an update. Looked at from the
other end, the difference is the same with its sides swapped; so what holds of the old list holds of
the new one. -/

namespace DeclaredAccess

namespace Keyed

variable {α ε : Type} {key : α → String} {merge : α → α → Except ε α} {P : α → Prop}

theorem mergeIn_eq_error {m : Keyed α} {x : α} {e : ε} (h : mergeIn key merge m x = .error e) :
    ∃ y, m.get? (key x) = some y ∧ merge y x = .error e := by
  unfold mergeIn at h
  cases hg : m.get? (key x) with
  | none => rw [hg] at h; cases h
  | some y =>
    simp only [hg] at h
    cases hm : merge y x with
    | ok z => rw [hm] at h; cases h
    | error e' =>
      rw [hm] at h
      cases h
      exact ⟨y, rfl, hm⟩

theorem foldlM_eq_error {xs : List α} {m : Keyed α} {e : ε} (h : m.Indexed key P)
    (hm : Keeps key merge P) (hxs : ∀ x ∈ xs, P x)
    (he : xs.foldlM (mergeIn key merge) m = .error e) :
    ∃ y, P y ∧ ∃ x ∈ xs, key y = key x ∧ merge y x = .error e := by
  induction xs generalizing m with
  | nil => cases he
  | cons x xs ih =>
    rw [List.foldlM_cons] at he
    have hx : P x := hxs x List.mem_cons_self
    cases hr : mergeIn key merge m x with
    | error e' =>
      rw [hr] at he
      cases he
      obtain ⟨y, hg, hmerge⟩ := mergeIn_eq_error hr
      obtain ⟨hk, hy⟩ := h.entry _ (mem_of_get? hg)
      exact ⟨y, hy, x, List.mem_cons_self, hk, hmerge⟩
    | ok m₁ =>
      rw [hr] at he
      obtain ⟨y, hy, z, hz, hfail⟩ :=
        ih (h.mergeIn hm hx hr) (fun z hz => hxs z (List.mem_cons_of_mem x hz)) he
      exact ⟨y, hy, z, List.mem_cons_of_mem x hz, hfail⟩

/-- Where gathering fails, one of the elements could not be merged into what stood under its key. -/
theorem gather_eq_error {xs : List α} {e : ε} (hm : Keeps key merge P) (hxs : ∀ x ∈ xs, P x)
    (h : gather key merge xs = .error e) :
    ∃ y, P y ∧ ∃ x ∈ xs, key y = key x ∧ merge y x = .error e :=
  foldlM_eq_error indexed_nil hm hxs (gather_eq xs ▸ h)

end Keyed

namespace Declaration

/-- No role is declared for two lists of objects. -/
def Consistent (ds : List Declaration) : Prop :=
  ∀ a ∈ ds, ∀ b ∈ ds, a.key = b.key → a.objects = b.objects

instance (ds : List Declaration) : Decidable (Consistent ds) :=
  inferInstanceAs (Decidable (∀ a ∈ ds, ∀ b ∈ ds, a.key = b.key → a.objects = b.objects))

/-- What the declarations with one key say together, in the spelling and for the objects of the
first of them. -/
structure Unites (ds : List Declaration) (k : String) (d : Declaration) : Prop where
  first : ∃ f, ds.find? (fun a => a.key = k) = some f ∧ d.role = f.role ∧ d.objects = f.objects
  privileges : ∀ p, p ∈ d.privileges ↔ ∃ a ∈ ds, a.key = k ∧ p ∈ a.privileges
  grantOptions : ∀ p, p ∈ d.grantOptions ↔ ∃ a ∈ ds, a.key = k ∧ p ∈ a.grantOptions

theorem Unites.unique {ds : List Declaration} {k : String} {d d' : Declaration}
    (h : Unites ds k d) (h' : Unites ds k d') : d = d' := by
  obtain ⟨f, hf, hr, ho⟩ := h.first
  obtain ⟨f', hf', hr', ho'⟩ := h'.first
  obtain rfl : f = f' := Option.some.inj (hf.symm.trans hf')
  have hp : d.privileges = d'.privileges :=
    PrivilegeSet.ext_mem fun p => (h.privileges p).trans (h'.privileges p).symm
  have hg : d.grantOptions = d'.grantOptions :=
    PrivilegeSet.ext_mem fun p => (h.grantOptions p).trans (h'.grantOptions p).symm
  cases d
  cases d'
  simp_all

theorem Unites.exists_mem {ds : List Declaration} {k : String} {d : Declaration}
    (h : Unites ds k d) : ∃ a ∈ ds, a.key = k := by
  obtain ⟨f, hf, -, -⟩ := h.first
  exact ⟨f, List.mem_of_find?_eq_some hf, by simpa using List.find?_some hf⟩

/-! ## Merging -/

theorem merge_eq_ok {a b c : Declaration} (h : merge a b = .ok c) :
    a.objects = b.objects ∧
      c = ⟨a.role, a.privileges ∪ b.privileges, a.grantOptions ∪ b.grantOptions, a.objects⟩ := by
  unfold merge at h
  split at h
  · cases h
  · split at h
    · cases h
    · rename_i ho
      cases h
      exact ⟨Classical.not_not.mp ho, rfl⟩

theorem merge_eq_error {a b : Declaration} {e : Conflict} (hk : a.key = b.key)
    (h : merge a b = .error e) :
    a.objects ≠ b.objects ∧ e = .objects a.role a.objects b.objects := by
  unfold merge at h
  rw [if_neg (Classical.not_not.mpr hk)] at h
  split at h
  · rename_i ho
    cases h
    exact ⟨ho, rfl⟩
  · cases h

/-- The role and the objects are those of a declaration of the list. -/
def SpeltAs (ds : List Declaration) (d : Declaration) : Prop :=
  ∃ f ∈ ds, d.role = f.role ∧ d.objects = f.objects

theorem keeps_speltAs (ds : List Declaration) : Keyed.Keeps key merge (SpeltAs ds) := by
  rintro a b c ⟨f, hf, hr, ho⟩ - h
  obtain ⟨-, rfl⟩ := merge_eq_ok h
  exact ⟨⟨f, hf, hr, ho⟩, rfl⟩

/-- One declaration after the other adds its privileges, if it is for the same objects. -/
theorem foldlM_accumulate {d : Declaration} {ds : List Declaration} {found : Option Declaration}
    (h : ds.foldlM (Keyed.accumulate merge) (some d) = .ok found) :
    (∀ a ∈ ds, a.objects = d.objects) ∧ ∃ c, found = some c ∧ c.role = d.role ∧
      c.objects = d.objects ∧
      (∀ p, p ∈ c.privileges ↔ ∃ a ∈ d :: ds, p ∈ a.privileges) ∧
      ∀ p, p ∈ c.grantOptions ↔ ∃ a ∈ d :: ds, p ∈ a.grantOptions := by
  induction ds generalizing d with
  | nil =>
    cases h
    exact ⟨by simp, d, rfl, rfl, rfl, by simp, by simp⟩
  | cons a ds ih =>
    rw [List.foldlM_cons] at h
    cases hm : merge d a with
    | error e => simp only [Keyed.accumulate, hm] at h; cases h
    | ok c =>
      simp only [Keyed.accumulate, hm] at h
      obtain ⟨ho, rfl⟩ := merge_eq_ok hm
      obtain ⟨hall, c, rfl, hrole, hobj, hp, hg⟩ := ih h
      refine ⟨fun x hx => ?_, c, rfl, hrole, hobj, fun p => ?_, fun p => ?_⟩
      · rcases List.mem_cons.mp hx with rfl | hx
        · exact ho.symm
        · exact hall x hx
      · rw [hp p]
        simp [or_assoc]
      · rw [hg p]
        simp [or_assoc]

variable {ds : List Declaration} {m : Keyed Declaration}

/-- Under each key stands what its declarations say together, and they were for the same objects. -/
theorem get?_byRole (h : byRole ds = .ok m) (k : String) :
    match m.get? k with
    | none => ∀ a ∈ ds, a.key ≠ k
    | some d => Unites ds k d ∧ ∀ a ∈ ds, a.key = k → a.objects = d.objects := by
  have hg := Keyed.get?_gather h k
  cases hf : ds.filter fun a => a.key = k with
  | nil =>
    rw [hf] at hg
    rw [← Except.ok.inj hg]
    exact fun a ha hk => List.filter_eq_nil_iff.mp hf a ha (decide_eq_true hk)
  | cons f r =>
    rw [hf, List.foldlM_cons] at hg
    obtain ⟨hall, d, hd, hrole, hobj, hp, ho⟩ := foldlM_accumulate hg
    rw [hd]
    have hmem : ∀ a, a ∈ f :: r ↔ a ∈ ds ∧ a.key = k := fun a => by
      rw [← hf, List.mem_filter, decide_eq_true_eq]
    have hfirst : ds.find? (fun a => a.key = k) = some f := by
      rw [← List.head?_filter, hf]
      rfl
    refine ⟨⟨⟨f, hfirst, hrole, hobj⟩, fun p => ?_, fun p => ?_⟩, fun a ha hk => ?_⟩
    · simp only [hp p, hmem, and_assoc]
    · simp only [ho p, hmem, and_assoc]
    · rcases List.mem_cons.mp ((hmem a).mpr ⟨ha, hk⟩) with rfl | hr
      · exact hobj.symm
      · exact (hall a hr).trans hobj.symm

theorem get?_byRole_eq_some_iff (h : byRole ds = .ok m) {k : String} {d : Declaration} :
    m.get? k = some d ↔ Unites ds k d := by
  have hg := get?_byRole h k
  cases hf : m.get? k with
  | none =>
    rw [hf] at hg
    refine iff_of_false (fun hd => nomatch hd) fun hd => ?_
    obtain ⟨a, ha, hk⟩ := hd.exists_mem
    exact hg a ha hk
  | some c =>
    rw [hf] at hg
    exact ⟨fun hd => Option.some.inj hd ▸ hg.1, fun hd => congrArg some (hg.1.unique hd)⟩

theorem get?_byRole_eq_none_iff (h : byRole ds = .ok m) {k : String} :
    m.get? k = none ↔ ∀ a ∈ ds, a.key ≠ k := by
  have hg := get?_byRole h k
  cases hf : m.get? k with
  | none =>
    rw [hf] at hg
    exact iff_of_true rfl hg
  | some d =>
    rw [hf] at hg
    obtain ⟨a, ha, hk⟩ := hg.1.exists_mem
    exact iff_of_false (fun hnone => nomatch hnone) fun hall => hall a ha hk

theorem exists_unites_iff (h : byRole ds = .ok m) {k : String} :
    (∃ d, Unites ds k d) ↔ ∃ a ∈ ds, a.key = k := by
  constructor
  · rintro ⟨d, hd⟩
    exact hd.exists_mem
  · rintro ⟨a, ha, hk⟩
    have hg := get?_byRole h k
    cases hf : m.get? k with
    | none => rw [hf] at hg; exact absurd hk (hg a ha)
    | some d => rw [hf] at hg; exact ⟨d, hg.1⟩

/-- Merging by role fails exactly where a role is declared for two lists of objects, and it names
two declarations for which this is so. -/
theorem byRole_cases (ds : List Declaration) :
    (Consistent ds ∧ ∃ m, byRole ds = .ok m ∧ m.Indexed key (SpeltAs ds)) ∨
      ∃ a ∈ ds, ∃ b ∈ ds, a.key = b.key ∧ a.objects ≠ b.objects ∧
        byRole ds = .error (.objects a.role a.objects b.objects) := by
  have hds : ∀ d ∈ ds, SpeltAs ds d := fun d hd => ⟨d, hd, rfl, rfl⟩
  cases h : byRole ds with
  | error e =>
    obtain ⟨y, ⟨f, hf, hrole, hobj⟩, x, hx, hk, hm⟩ :=
      Keyed.gather_eq_error (keeps_speltAs ds) hds h
    obtain ⟨hne, rfl⟩ := merge_eq_error hk hm
    have hkey : f.key = x.key := (congrArg Role.key hrole).symm.trans hk
    refine .inr ⟨f, hf, x, hx, hkey, hobj ▸ hne, ?_⟩
    rw [hrole, hobj]
  | ok m =>
    refine .inl ⟨fun a ha b hb hk => ?_, m, rfl, Keyed.indexed_gather (keeps_speltAs ds) hds h⟩
    have hg := get?_byRole h b.key
    cases hf : m.get? b.key with
    | none => rw [hf] at hg; exact absurd rfl (hg b hb)
    | some d =>
      rw [hf] at hg
      exact (hg.2 a ha hk).trans (hg.2 b hb rfl).symm

end Declaration

namespace PolicyDiff

open Declaration

/-- Every role key of a difference, once for each part and place in which it stands. -/
def keys (diff : PolicyDiff) : List String :=
  diff.dropped.keys ++ diff.added.keys ++ Keyed.keys diff.updated ++ diff.unchanged.keys

/-- What was declared before. -/
def before (diff : PolicyDiff) : Keyed Declaration :=
  diff.dropped ++ diff.unchanged ++ diff.updated.map fun e => (e.1, e.2.1)

/-- What is declared after. -/
def after (diff : PolicyDiff) : Keyed Declaration :=
  diff.added ++ diff.unchanged ++ diff.updated.map fun e => (e.1, e.2.2)

/-- The way back. -/
def swap (diff : PolicyDiff) : PolicyDiff where
  dropped := diff.added
  added := diff.dropped
  updated := diff.updated.map fun e => (e.1, e.2.2, e.2.1)
  unchanged := diff.unchanged

/-- The same entries in each part, in any order. -/
structure Same (d d' : PolicyDiff) : Prop where
  dropped : d.dropped.Perm d'.dropped
  added : d.added.Perm d'.added
  updated : d.updated.Perm d'.updated
  unchanged : d.unchanged.Perm d'.unchanged

theorem Same.before {d d' : PolicyDiff} (h : d.Same d') : d.before.Perm d'.before :=
  (h.dropped.append h.unchanged).append (h.updated.map _)

theorem before_swap (d : PolicyDiff) : d.swap.before = d.after := by
  simp [PolicyDiff.before, after, swap]

theorem keys_updated_swap (d : PolicyDiff) : Keyed.keys d.swap.updated = Keyed.keys d.updated := by
  simp [swap, Keyed.keys]

theorem keys_before (d : PolicyDiff) :
    d.before.keys = d.dropped.keys ++ d.unchanged.keys ++ Keyed.keys d.updated := by
  simp [PolicyDiff.before, Keyed.keys]

theorem keys_after (d : PolicyDiff) :
    d.after.keys = d.added.keys ++ d.unchanged.keys ++ Keyed.keys d.updated := by
  simp [after, Keyed.keys]

section Between

variable {old new : Keyed Declaration}

/-- An old entry is dropped, unchanged or the first side of an update. -/
theorem before_between (old new : Keyed Declaration) : (between old new).before.Perm old := by
  induction old with
  | nil => exact .nil
  | cons e old ih =>
    simp only [PolicyDiff.before, between, List.filter_cons, List.filterMap_cons] at ih ⊢
    cases hg : new.get? e.1 with
    | none =>
      have hc : (!new.contains e.1) = true := Keyed.not_contains_iff.mpr hg
      simpa [hc] using ih
    | some n =>
      have hc : (!new.contains e.1) = false := by simp [Keyed.contains, hg]
      by_cases hn : n = e.2
      · rw [List.append_assoc] at ih
        have hmid := List.perm_middle.trans (ih.cons e)
        simpa [hc, hn] using hmid
      · have hmid := List.perm_middle.trans (ih.cons e)
        simpa [hc, hn] using hmid

theorem nodup_before (new : Keyed Declaration) (ho : old.keys.Nodup) :
    (between old new).before.keys.Nodup :=
  ((before_between old new).map Prod.fst).nodup_iff.mpr ho

theorem nodup_unchanged (ho : old.keys.Nodup) : (between old new).unchanged.Nodup := by
  have h := nodup_before new ho
  rw [keys_before] at h
  exact (List.nodup_append.mp (List.nodup_append.mp h).1).2.1.of_map

theorem nodup_keys_updated (ho : old.keys.Nodup) :
    (Keyed.keys (between old new).updated).Nodup := by
  have h := nodup_before new ho
  rw [keys_before] at h
  exact (List.nodup_append.mp h).2.1

theorem swap_between (ho : old.keys.Nodup) (hn : new.keys.Nodup) :
    (between new old).Same (between old new).swap where
  dropped := .rfl
  added := .rfl
  updated := by
    have hkeys : (Keyed.keys (between old new).swap.updated).Nodup := by
      rw [keys_updated_swap]
      exact nodup_keys_updated ho
    have hswapped : (between old new).swap.updated.Nodup := hkeys.of_map
    refine (List.perm_ext_iff_of_nodup (nodup_keys_updated hn).of_map hswapped).mpr ?_
    rintro ⟨k, b, a⟩
    simp only [swap, List.mem_map, Prod.mk.injEq, Prod.exists]
    constructor
    · intro h
      obtain ⟨hb, ha, hne⟩ := (mem_updated hn).mp h
      exact ⟨k, a, b, (mem_updated ho).mpr ⟨ha, hb, hne.symm⟩, rfl, rfl, rfl⟩
    · rintro ⟨k, a, b, h, rfl, rfl, rfl⟩
      obtain ⟨ha, hb, hne⟩ := (mem_updated ho).mp h
      exact (mem_updated hn).mpr ⟨hb, ha, hne.symm⟩
  unchanged := by
    refine (List.perm_ext_iff_of_nodup (nodup_unchanged hn) (nodup_unchanged ho)).mpr ?_
    rintro ⟨k, d⟩
    change (k, d) ∈ (between new old).unchanged ↔ (k, d) ∈ (between old new).unchanged
    rw [mem_unchanged hn, mem_unchanged ho, and_comm]

/-- What is added stands under no key of what was there before. -/
theorem nodup_keys (ho : old.keys.Nodup) (hn : new.keys.Nodup) : (between old new).keys.Nodup := by
  have hadded : (between old new).added.keys.Nodup :=
    hn.sublist (List.filter_sublist.map _)
  have hapart : ∀ k ∈ (between old new).before.keys, ∀ j ∈ (between old new).added.keys, k ≠ j := by
    rintro k hk j hj rfl
    obtain ⟨e, he, rfl⟩ := List.mem_map.mp hj
    obtain ⟨-, hnone⟩ := (mem_between_filter hn).mp he
    have hold : e.1 ∈ old.keys := ((before_between old new).map Prod.fst).mem_iff.mp hk
    obtain ⟨x, hx, hxe⟩ := List.mem_map.mp hold
    have hget := Keyed.get?_of_mem ho hx
    rw [hxe, Keyed.not_contains_iff.mp hnone] at hget
    cases hget
  have hall := List.nodup_append.mpr ⟨nodup_before new ho, hadded, hapart⟩
  rw [keys_before] at hall
  refine (List.perm_iff_count.mpr fun k => ?_ : List.Perm _ _).nodup_iff.mp hall
  simp only [keys, List.count_append]
  omega

end Between

/-! ## Of two lists -/

/-- The entries are the merged declarations of a list. -/
structure Merges (ds : List Declaration) (m : Keyed Declaration) : Prop where
  gathered : ∃ m', byRole ds = .ok m' ∧ m.Perm m'
  united : ∀ k d, (k, d) ∈ m ↔ Unites ds k d

theorem Merges.mem_keys {ds : List Declaration} {m : Keyed Declaration} (h : Merges ds m)
    {k : String} : k ∈ m.keys ↔ ∃ d ∈ ds, d.key = k := by
  obtain ⟨m', hm', -⟩ := h.gathered
  rw [← exists_unites_iff hm']
  simp only [Keyed.keys, List.mem_map, Prod.exists, exists_and_right, exists_eq_right, h.united]

theorem merges_of_perm {ds : List Declaration} {m m' : Keyed Declaration} (h : byRole ds = .ok m')
    (hm : m'.keys.Nodup) (hp : m.Perm m') : Merges ds m where
  gathered := ⟨m', h, hp⟩
  united k d := by
    rw [hp.mem_iff, ← Keyed.get?_eq_some_iff hm]
    exact get?_byRole_eq_some_iff h

/-- The parts of a difference are those of the role keys of two lists, and nothing is lost. -/
structure Partition (old new : List Declaration) (diff : PolicyDiff) : Prop where
  disjoint : diff.keys.Nodup
  exhaustive : ∀ k, k ∈ diff.keys ↔ ∃ d ∈ old ++ new, d.key = k
  differs : ∀ k a b, (k, a, b) ∈ diff.updated → a ≠ b
  before : Merges old diff.before
  after : Merges new diff.after

theorem partition_between {old new : List Declaration} {o n : Keyed Declaration}
    (ho : byRole old = .ok o) (hn : byRole new = .ok n) (hok : o.keys.Nodup) (hnk : n.keys.Nodup) :
    Partition old new (between o n) := by
  have hbefore : Merges old (between o n).before := merges_of_perm ho hok (before_between o n)
  have hafter : Merges new (between o n).after := by
    refine merges_of_perm hn hnk ?_
    rw [← before_swap]
    exact (swap_between hok hnk).before.symm.trans (before_between n o)
  refine ⟨nodup_keys hok hnk, fun k => ?_, fun k a b h => ((mem_updated hok).mp h).2.2.symm,
    hbefore, hafter⟩
  have hall : k ∈ (between o n).keys ↔
      k ∈ (between o n).before.keys ∨ k ∈ (between o n).after.keys := by
    simp only [keys_before, keys_after, keys, List.mem_append]
    tauto
  simp only [hall, hbefore.mem_keys, hafter.mem_keys, List.mem_append, or_and_right, exists_or]

/-- Where each list is consistent, their difference parts the role keys without a loss, and the
difference the other way round is the same with its sides swapped. Where one is not, there is no
difference, but a conflict that names two declarations of one role. -/
theorem ofLists_partitions (old new : List Declaration) :
    (Consistent old ∧ Consistent new → ∃ diff, ofLists old new = .ok diff ∧
      Partition old new diff ∧ ∃ back, ofLists new old = .ok back ∧ back.Same diff.swap) ∧
    (¬(Consistent old ∧ Consistent new) → ∃ ds, (ds = old ∨ ds = new) ∧ ∃ a ∈ ds, ∃ b ∈ ds,
      a.key = b.key ∧ a.objects ≠ b.objects ∧
      ofLists old new = .error (.objects a.role a.objects b.objects)) := by
  rcases byRole_cases old with ⟨hco, o, ho, hoi⟩ | ⟨a, ha, b, hb, hk, hne, ho⟩
  · rcases byRole_cases new with ⟨hcn, n, hn, hni⟩ | ⟨a, ha, b, hb, hk, hne, hn⟩
    · refine ⟨fun _ => ?_, fun h => absurd ⟨hco, hcn⟩ h⟩
      have hdiff : ofLists old new = .ok (between o n) := by
        rw [ofLists, ho, hn]
        rfl
      have hback : ofLists new old = .ok (between n o) := by
        rw [ofLists, ho, hn]
        rfl
      exact ⟨_, hdiff, partition_between ho hn hoi.nodup hni.nodup, _, hback,
        swap_between hoi.nodup hni.nodup⟩
    · refine ⟨fun h => absurd (h.2 a ha b hb hk) hne, fun _ => ?_⟩
      refine ⟨new, .inr rfl, a, ha, b, hb, hk, hne, ?_⟩
      rw [ofLists, ho, hn]
      rfl
  · refine ⟨fun h => absurd (h.1 a ha b hb hk) hne, fun _ => ?_⟩
    refine ⟨old, .inl rfl, a, ha, b, hb, hk, hne, ?_⟩
    rw [ofLists, ho]
    rfl

/-- One role in two spellings, and for two lists of objects. -/
def clashing : List Declaration :=
  [⟨"Ann", .ofList [.select], ∅, ["orders"]⟩, ⟨"ann", .ofList [.select], ∅, []⟩]

theorem ofLists_partitions_respelt :
    (∃ diff, ofLists respeltOld respeltNew = .ok diff ∧ "bob" ∈ diff.keys ∧ "cay" ∈ diff.keys ∧
      ∃ back, ofLists respeltNew respeltOld = .ok back ∧ back.Same diff.swap) ∧
    ∃ role first second, ofLists respeltNew clashing = .error (.objects role first second) := by
  constructor
  · obtain ⟨diff, hdiff, hparts, back, hback, hsame⟩ :=
      (ofLists_partitions respeltOld respeltNew).1 (by decide)
    have hbob : "bob" ∈ diff.keys := (hparts.exhaustive "bob").mpr (by decide)
    have hcay : "cay" ∈ diff.keys := (hparts.exhaustive "cay").mpr (by decide)
    exact ⟨diff, hdiff, hbob, hcay, back, hback, hsame⟩
  · obtain ⟨_, _, a, _, b, _, _, _, hclash⟩ :=
      (ofLists_partitions respeltNew clashing).2 (by decide)
    exact ⟨_, _, _, hclash⟩

end PolicyDiff

end DeclaredAccess
