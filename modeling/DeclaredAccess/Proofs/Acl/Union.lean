import DeclaredAccess.Proofs.Policy.Block
import DeclaredAccess.Proofs.Policy.Gather

/-! Entries of access control lists by role. Merging is a union in which the first entry lends its
spelling and its grantor, and two entries merge exactly if their roles have one key. The key of what
was merged is the key of its parts, so it is found again where it was put. Under a key stands the
union of all entries with it, and a list can be cut and each part be merged first. -/

namespace DeclaredAccess

namespace Acl

variable {a b c : Acl} {as bs : List Acl} {m m' : Keyed Acl} {k : String}

theorem eq_of_share (hs : a.share = b.share) (hg : a.grantor = b.grantor) : a = b := by
  obtain ⟨role, privileges, options, grantor, covered⟩ := a
  obtain ⟨role', privileges', options', grantor', covered'⟩ := b
  cases hs
  cases hg
  rfl

/-! ## Merging two entries -/

theorem merge_eq_ok : merge a b = .ok c ↔
    a.key = b.key ∧ c.share = a.share.join b.share ∧ c.grantor = a.grantor := by
  unfold merge
  split
  · rename_i hk
    rw [Except.ok.injEq]
    refine ⟨?_, fun h => eq_of_share h.2.1.symm h.2.2.symm⟩
    rintro rfl
    exact ⟨hk, rfl, rfl⟩
  · rename_i hk
    exact iff_of_false (by simp) fun h => hk h.1

/-- What was merged has the key of both parts. -/
theorem keys_of_merge (h : merge a b = .ok c) : c.key = a.key ∧ c.key = b.key :=
  ⟨key_merge h, (key_merge h).trans (merge_eq_ok.mp h).1⟩

theorem merge_comm (h : merge a b = .ok c) :
    ∃ d, merge b a = .ok d ∧ d.key = c.key ∧ d.holding = c.holding := by
  obtain ⟨hk, hs, _⟩ := merge_eq_ok.mp h
  obtain ⟨d, hd⟩ := merge_eq_ok_iff.mpr hk.symm
  have hd' := (merge_eq_ok.mp hd).2.1
  refine ⟨d, hd, (key_merge hd).trans (keys_of_merge h).2.symm, ?_⟩
  calc d.holding = b.holding ∪ a.holding := congrArg Share.holding hd'
    _ = a.holding ∪ b.holding := Holding.union_comm ..
    _ = c.holding := (congrArg Share.holding hs).symm

theorem merge_associates : Keyed.Associates merge := by
  intro a b c ab bc hab hbc
  obtain ⟨hk, hs, hg⟩ := merge_eq_ok.mp hab
  obtain ⟨hk', hs', hg'⟩ := merge_eq_ok.mp hbc
  obtain ⟨d, hd⟩ : ∃ d, merge ab c = .ok d :=
    merge_eq_ok_iff.mpr ((keys_of_merge hab).2.trans hk')
  have hd' := merge_eq_ok.mp hd
  refine hd.trans (merge_eq_ok.mpr ⟨hk.trans (key_merge hbc).symm, ?_, ?_⟩).symm
  · rw [hd'.2.1, hs, hs', Share.join_assoc]
  · exact hd'.2.2.trans hg

/-- Three entries are merged to the same from either side. -/
theorem merge_assoc (a b c d : Acl) :
    (merge a b >>= fun x => merge x c) = .ok d ↔ (merge b c >>= fun x => merge a x) = .ok d := by
  constructor
  · intro h
    obtain ⟨ab, hab, h⟩ := exists_of_bind_eq_ok h
    obtain ⟨bc, hbc⟩ : ∃ bc, merge b c = .ok bc :=
      merge_eq_ok_iff.mpr ((keys_of_merge hab).2.symm.trans (merge_eq_ok.mp h).1)
    exact bind_eq_ok hbc ((merge_associates a b c ab bc hab hbc).symm.trans h)
  · intro h
    obtain ⟨bc, hbc, h⟩ := exists_of_bind_eq_ok h
    obtain ⟨ab, hab⟩ : ∃ ab, merge a b = .ok ab :=
      merge_eq_ok_iff.mpr ((merge_eq_ok.mp h).1.trans (key_merge hbc))
    exact bind_eq_ok hab ((merge_associates a b c ab bc hab hbc).trans h)

theorem merge_self (a : Acl) : merge a a = .ok a :=
  merge_eq_ok.mpr ⟨rfl, Share.ext rfl (Holding.union_self _).symm, rfl⟩

/-! ## Merging a list -/

/-- What the entries with one key say together, in the spelling of the first of them and as granted by
its grantor. -/
structure Unites (as : List Acl) (k : String) (b : Acl) : Prop where
  first : ∃ f, as.find? (fun a => a.key = k) = some f ∧ b.role = f.role ∧ b.grantor = f.grantor
  privileges : ∀ p, p ∈ b.privileges ↔ ∃ a ∈ as, a.key = k ∧ p ∈ a.privileges
  grantOptions : ∀ p, p ∈ b.grantOptions ↔ ∃ a ∈ as, a.key = k ∧ p ∈ a.grantOptions

theorem unites_byRole (h : byRole as = .ok m) (hb : m.get? k = some b) : Unites as k b := by
  have hs := merged_byRole h k
  rw [hb] at hs
  obtain ⟨_, hholding⟩ := Share.merged_spec hs.symm
  have union {p : Privilege} {part : Holding → PrivilegeSet}
      (total : ∀ xs : List Share, p ∈ part (Share.total xs) ↔ ∃ x ∈ xs, p ∈ part x.holding) :
      p ∈ part b.holding ↔ ∃ a ∈ as, a.key = k ∧ p ∈ part a.holding := by
    rw [show b.holding = _ from hholding, total]
    simp only [List.mem_filter, List.mem_map, decide_eq_true_eq]
    constructor
    · rintro ⟨_, ⟨⟨a, ha, rfl⟩, hk⟩, hp⟩
      exact ⟨a, ha, hk, hp⟩
    · rintro ⟨a, ha, hk, hp⟩
      exact ⟨a.share, ⟨⟨a, ha, rfl⟩, hk⟩, hp⟩
  refine ⟨?_, fun p => union fun _ => Share.mem_total,
    fun p => union fun _ => Share.mem_total_grantOptions⟩
  have hf := Keyed.first_of_gather (f := fun a => (a.role, a.grantor)) (fun a b c hm => ?_) h k
  · rw [hb] at hf
    obtain ⟨f, hfirst, he⟩ := Option.map_eq_some_iff.mp hf.symm
    obtain ⟨hrole, hgrantor⟩ := Prod.mk.inj he
    exact ⟨f, hfirst, hrole.symm, hgrantor.symm⟩
  · obtain ⟨_, hshare, hgrantor⟩ := merge_eq_ok.mp hm
    exact Prod.ext (congrArg Share.role hshare) hgrantor

theorem Unites.holding_eq_of_perm (h : as.Perm bs) (ha : Unites as k a) (hb : Unites bs k b) :
    a.holding = b.holding := by
  refine Holding.ext (PrivilegeSet.ext_mem fun p => ?_) (PrivilegeSet.ext_mem fun p => ?_)
  · change p ∈ a.privileges ↔ p ∈ b.privileges
    simp only [ha.privileges, hb.privileges, h.mem_iff]
  · change p ∈ a.grantOptions ↔ p ∈ b.grantOptions
    simp only [ha.grantOptions, hb.grantOptions, h.mem_iff]

/-- The order of the entries decides on spelling and grantor only. -/
theorem holding_byRole_of_perm (hp : as.Perm bs) (h : byRole as = .ok m) (h' : byRole bs = .ok m')
    (k : String) : (m.get? k).map holding = (m'.get? k).map holding := by
  have keys : (∃ b, m.get? k = some b) ↔ ∃ b, m'.get? k = some b := by
    rw [← Keyed.mem_keys_iff (keyed_byRole h).nodup, ← Keyed.mem_keys_iff (keyed_byRole h').nodup,
      Keyed.mem_keys_gather h, Keyed.mem_keys_gather h']
    simp only [hp.mem_iff]
  cases ha : m.get? k with
  | none =>
    have hb : m'.get? k = none := by
      rw [Option.eq_none_iff_forall_ne_some]
      intro b hb
      obtain ⟨a, ha'⟩ := keys.mpr ⟨b, hb⟩
      exact nomatch ha.symm.trans ha'
    rw [hb]
  | some a =>
    obtain ⟨b, hb⟩ := keys.mp ⟨a, ha⟩
    rw [hb]
    exact congrArg some ((unites_byRole h ha).holding_eq_of_perm hp (unites_byRole h' hb))

/-- The union of a list of entries by role key. -/
structure Unions (as : List Acl) (m : Keyed Acl) : Prop where
  nodup : m.keys.Nodup
  keys : ∀ k, k ∈ m.keys ↔ ∃ a ∈ as, Text.lower a.role = k
  united : ∀ k b, m.get? k = some b → Unites as k b ∧ b.grantOptions ⊆ b.privileges
  permuted : ∀ bs, as.Perm bs → ∃ m', byRole bs = .ok m' ∧ (∀ k, k ∈ m.keys ↔ k ∈ m'.keys) ∧
    ∀ k, (m.get? k).map holding = (m'.get? k).map holding
  appended : ∀ bs, ∃ m' u, byRole bs = .ok m' ∧ byRole (as ++ bs) = .ok u ∧
    byRole (m.values ++ m'.values) = .ok u

theorem unions_byRole (h : byRole as = .ok m) : Unions as m where
  nodup := (keyed_byRole h).nodup
  keys _ := Keyed.mem_keys_gather h
  united _ b hb := ⟨unites_byRole h hb, b.covered⟩
  permuted bs hp := by
    obtain ⟨m', h'⟩ := exists_byRole bs
    refine ⟨m', h', fun k => ?_, holding_byRole_of_perm hp h h'⟩
    rw [Keyed.mem_keys_gather h, Keyed.mem_keys_gather h']
    simp only [hp.mem_iff]
  appended bs := by
    obtain ⟨m', h'⟩ := exists_byRole bs
    obtain ⟨u, hu⟩ := exists_byRole (as ++ bs)
    obtain ⟨u', hu'⟩ := exists_byRole (m.values ++ m'.values)
    have same : u = u' := Keyed.gather_append merge_associates keeps_key (fun _ _ => trivial)
      (fun _ _ => trivial) h h' hu hu'
    exact ⟨m', u, h', hu, same ▸ hu'⟩

/-- Entries can always be merged by role, to their union under each lower-cased role. Two of them are
merged exactly if their roles have one key, and there, but for spelling and grantor, it does not
matter which comes first, which two of three are merged first, and how often one is merged. -/
theorem byRole_is_union :
    (∀ as, ∃ m, byRole as = .ok m ∧ Unions as m) ∧
    (∀ a b, (∃ c, merge a b = .ok c) ↔ Text.lower a.role = Text.lower b.role) ∧
    (∀ a b c, merge a b = .ok c →
      ∃ d, merge b a = .ok d ∧ d.key = c.key ∧ d.holding = c.holding) ∧
    (∀ a b c d, (merge a b >>= fun x => merge x c) = .ok d ↔
      (merge b c >>= fun x => merge a x) = .ok d) ∧
    ∀ a, merge a a = .ok a := by
  refine ⟨fun as => ?_, fun _ _ => merge_eq_ok_iff, fun _ _ _ => merge_comm, merge_assoc, merge_self⟩
  obtain ⟨m, h⟩ := exists_byRole as
  exact ⟨m, h, unions_byRole h⟩

/-- One role in two spellings, each from a grantor of its own, around another one. -/
def respelt : List Acl :=
  [Entry.ofHoldings "Ann" [(.select, true)] "owner", Entry.ofHoldings "bob" [(.usage, false)] "owner",
    Entry.ofHoldings "ann" [(.insert, false), (.select, false)] "admin"]

theorem byRole_is_union_respelt : ∃ m b, byRole respelt = .ok m ∧ m.get? "ann" = some b ∧
    b.role = "Ann" ∧ b.grantor = "owner" ∧ Privilege.insert ∈ b.privileges ∧
    ∃ m' b', byRole respelt.reverse = .ok m' ∧ m'.get? "ann" = some b' ∧
      b'.holding = b.holding := by
  obtain ⟨m, hm, hunions⟩ := byRole_is_union.1 respelt
  have hkey : "ann" ∈ m.keys := (hunions.keys "ann").mpr (by decide)
  obtain ⟨b, hb⟩ := (Keyed.mem_keys_iff hunions.nodup).mp hkey
  obtain ⟨⟨⟨f, hf, hrole, hgrantor⟩, hprivileges, -⟩, -⟩ := hunions.united "ann" b hb
  have hfirst : f = Entry.ofHoldings "Ann" [(.select, true)] "owner" :=
    Option.some.inj (hf.symm.trans rfl)
  subst hfirst
  obtain ⟨m', hm', -, hsame⟩ := hunions.permuted respelt.reverse (List.reverse_perm respelt).symm
  have hb' := hsame "ann"
  rw [hb] at hb'
  obtain ⟨b', hget, hholding⟩ := Option.map_eq_some_iff.mp hb'.symm
  have hinsert : Privilege.insert ∈ b.privileges := (hprivileges .insert).mpr (by decide)
  exact ⟨m, b, hm, hb, hrole, hgrantor, hinsert, m', b', hm', hget, hholding⟩

end Acl

end DeclaredAccess
