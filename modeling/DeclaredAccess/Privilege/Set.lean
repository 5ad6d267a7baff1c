import DeclaredAccess.Privilege

/-! Sets of privileges. A set is its membership test, so every law is a law of `Bool` at each
privilege. -/

namespace DeclaredAccess

@[ext] structure PrivilegeSet where
  has : Privilege → Bool

namespace PrivilegeSet

instance : Membership Privilege PrivilegeSet := ⟨fun s p => s.has p = true⟩

instance (p : Privilege) (s : PrivilegeSet) : Decidable (p ∈ s) :=
  inferInstanceAs (Decidable (s.has p = true))

def empty : PrivilegeSet := ⟨fun _ => false⟩

instance : EmptyCollection PrivilegeSet := ⟨empty⟩

instance : Inhabited PrivilegeSet := ⟨empty⟩

instance : Union PrivilegeSet := ⟨fun s t => ⟨fun p => s.has p || t.has p⟩⟩

instance : SDiff PrivilegeSet := ⟨fun s t => ⟨fun p => s.has p && !t.has p⟩⟩

instance : HasSubset PrivilegeSet := ⟨fun s t => ∀ p, p ∈ s → p ∈ t⟩

def ofList (ps : List Privilege) : PrivilegeSet := ⟨fun p => decide (p ∈ ps)⟩

/-- The members in the order in which statements name them. -/
def toList (s : PrivilegeSet) : List Privilege := Privilege.all.filter s.has

def isEmpty (s : PrivilegeSet) : Bool := s.toList.isEmpty

def keywords (s : PrivilegeSet) : List String := s.toList.map Privilege.keyword

theorem mem_def {s : PrivilegeSet} {p : Privilege} : p ∈ s ↔ s.has p = true := Iff.rfl

@[simp] theorem mem_empty {p : Privilege} : ¬p ∈ (∅ : PrivilegeSet) :=
  fun h => Bool.noConfusion h

@[simp] theorem mem_union {s t : PrivilegeSet} {p : Privilege} : p ∈ s ∪ t ↔ p ∈ s ∨ p ∈ t :=
  Bool.or_eq_true_iff

@[simp] theorem mem_sdiff {s t : PrivilegeSet} {p : Privilege} : p ∈ s \ t ↔ p ∈ s ∧ ¬p ∈ t := by
  change (s.has p && !t.has p) = true ↔ s.has p = true ∧ ¬t.has p = true
  simp

@[simp] theorem mem_ofList {ps : List Privilege} {p : Privilege} : p ∈ ofList ps ↔ p ∈ ps := by
  simp [mem_def, ofList]

@[simp] theorem mem_toList {s : PrivilegeSet} {p : Privilege} : p ∈ s.toList ↔ p ∈ s := by
  simp [toList, mem_def, Privilege.mem_all]

theorem ext_mem {s t : PrivilegeSet} (h : ∀ p, p ∈ s ↔ p ∈ t) : s = t :=
  PrivilegeSet.ext (funext fun p => Bool.eq_iff_iff.mpr (h p))

theorem isEmpty_iff {s : PrivilegeSet} : s.isEmpty = true ↔ s = ∅ := by
  rw [isEmpty, List.isEmpty_iff]
  constructor
  · intro h
    refine ext_mem fun p => ⟨fun hp => ?_, fun hp => absurd hp mem_empty⟩
    have : p ∈ s.toList := mem_toList.mpr hp
    simp [h] at this
  · intro h
    obtain rfl := h
    exact List.filter_eq_nil_iff.mpr fun _ _ h => Bool.noConfusion h

instance : DecidableEq PrivilegeSet := fun s t =>
  decidable_of_iff (∀ p ∈ Privilege.all, s.has p = t.has p)
    ⟨fun h => PrivilegeSet.ext (funext fun p => h p (Privilege.mem_all p)),
      fun h p _ => congrArg (·.has p) h⟩

instance (s t : PrivilegeSet) : Decidable (s ⊆ t) :=
  decidable_of_iff (∀ p ∈ Privilege.all, p ∈ s → p ∈ t)
    ⟨fun h p => h p (Privilege.mem_all p), fun h p _ => h p⟩

theorem union_subset {s t u : PrivilegeSet} (hs : s ⊆ u) (ht : t ⊆ u) : s ∪ t ⊆ u :=
  fun p hp => (mem_union.mp hp).elim (hs p) (ht p)

theorem union_subset_union {s s' t t' : PrivilegeSet} (h : s ⊆ s') (h' : t ⊆ t') :
    s ∪ t ⊆ s' ∪ t' :=
  fun p hp => mem_union.mpr ((mem_union.mp hp).imp (h p) (h' p))

end PrivilegeSet

end DeclaredAccess
