import DeclaredAccess.Sql.Statement

/-! What the roles hold on one place of the catalog, and what a change makes of it there. Which
targets name the place is a parameter: a target can list it, or name everything around it. -/

namespace DeclaredAccess

/-- The privileges that a role holds, and those that it may grant on. -/
@[ext] structure Holding where
  privileges : PrivilegeSet
  grantOptions : PrivilegeSet

namespace Holding

instance : DecidableEq Holding := fun a b =>
  decidable_of_iff (a.privileges = b.privileges ∧ a.grantOptions = b.grantOptions)
    Holding.ext_iff.symm

instance : EmptyCollection Holding := ⟨⟨∅, ∅⟩⟩

instance : Inhabited Holding := ⟨∅⟩

instance : Union Holding :=
  ⟨fun a b => ⟨a.privileges ∪ b.privileges, a.grantOptions ∪ b.grantOptions⟩⟩

/-- What a statement grants. -/
def ofGrant (privileges : PrivilegeSet) (withGrantOption : Bool) : Holding :=
  ⟨privileges, if withGrantOption then privileges else ∅⟩

@[simp] theorem empty_union (a : Holding) : ∅ ∪ a = a :=
  Holding.ext (PrivilegeSet.ext_mem fun _ => by
      change _ ∈ ∅ ∪ a.privileges ↔ _
      simp)
    (PrivilegeSet.ext_mem fun _ => by
      change _ ∈ ∅ ∪ a.grantOptions ↔ _
      simp)

@[simp] theorem union_empty (a : Holding) : a ∪ ∅ = a :=
  Holding.ext (PrivilegeSet.ext_mem fun _ => by
      change _ ∈ a.privileges ∪ ∅ ↔ _
      simp)
    (PrivilegeSet.ext_mem fun _ => by
      change _ ∈ a.grantOptions ∪ ∅ ↔ _
      simp)

theorem union_eq_empty_iff {a b : Holding} : a ∪ b = ∅ ↔ a = ∅ ∧ b = ∅ := by
  have parts {s t : PrivilegeSet} (h : s ∪ t = ∅) : s = ∅ ∧ t = ∅ := by
    have none (p : Privilege) : ¬(p ∈ s ∨ p ∈ t) := fun hp =>
      PrivilegeSet.mem_empty (h ▸ PrivilegeSet.mem_union.mpr hp)
    exact ⟨PrivilegeSet.ext_mem fun p => iff_of_false (fun hp => none p (.inl hp))
        PrivilegeSet.mem_empty,
      PrivilegeSet.ext_mem fun p => iff_of_false (fun hp => none p (.inr hp))
        PrivilegeSet.mem_empty⟩
  constructor
  · intro h
    obtain ⟨ha, hb⟩ := parts (congrArg privileges h)
    obtain ⟨ha', hb'⟩ := parts (congrArg grantOptions h)
    exact ⟨Holding.ext ha ha', Holding.ext hb hb'⟩
  · rintro ⟨rfl, rfl⟩
    exact empty_union ∅

theorem union_assoc (a b c : Holding) : a ∪ b ∪ c = a ∪ (b ∪ c) :=
  Holding.ext (PrivilegeSet.ext_mem fun p => by
      change p ∈ a.privileges ∪ b.privileges ∪ c.privileges ↔
        p ∈ a.privileges ∪ (b.privileges ∪ c.privileges)
      simp only [PrivilegeSet.mem_union, or_assoc])
    (PrivilegeSet.ext_mem fun p => by
      change p ∈ a.grantOptions ∪ b.grantOptions ∪ c.grantOptions ↔
        p ∈ a.grantOptions ∪ (b.grantOptions ∪ c.grantOptions)
      simp only [PrivilegeSet.mem_union, or_assoc])

theorem union_comm (a b : Holding) : a ∪ b = b ∪ a :=
  Holding.ext (PrivilegeSet.ext_mem fun p => by
      change p ∈ a.privileges ∪ b.privileges ↔ p ∈ b.privileges ∪ a.privileges
      simp only [PrivilegeSet.mem_union, or_comm])
    (PrivilegeSet.ext_mem fun p => by
      change p ∈ a.grantOptions ∪ b.grantOptions ↔ p ∈ b.grantOptions ∪ a.grantOptions
      simp only [PrivilegeSet.mem_union, or_comm])

@[simp] theorem union_self (a : Holding) : a ∪ a = a :=
  Holding.ext (PrivilegeSet.ext_mem fun p => by
      change p ∈ a.privileges ∪ a.privileges ↔ _
      simp)
    (PrivilegeSet.ext_mem fun p => by
      change p ∈ a.grantOptions ∪ a.grantOptions ↔ _
      simp)

end Holding

namespace Sql.Change

/-- What the roles hold on a place after a change, where `covers` tells the targets that name the
place. -/
def effect (covers : Target → Bool) (c : Change) (held : String → Holding) : String → Holding :=
  match c with
  | .grant privileges t role option => fun r =>
    if covers t ∧ r = role then held r ∪ .ofGrant privileges option else held r
  | .revokeAll t role => fun r => if covers t ∧ r = role then ∅ else held r
  | _ => held

/-- What the roles hold on a place after changes made in order. -/
def effects (covers : Target → Bool) (cs : List Change) (held : String → Holding) :
    String → Holding :=
  cs.foldl (fun held c => c.effect covers held) held

/-- The role that a change gives privileges to or takes them from. -/
def grantee? : Change → Option String
  | .grant _ _ role _ => some role
  | .revokeAll _ role => some role
  | _ => none

variable {covers : Target → Bool} {held : String → Holding}

@[simp] theorem effects_nil : effects covers [] held = held := rfl

@[simp] theorem effects_cons (c : Change) (cs : List Change) :
    effects covers (c :: cs) held = effects covers cs (c.effect covers held) := rfl

@[simp] theorem effects_append (cs ds : List Change) :
    effects covers (cs ++ ds) held = effects covers ds (effects covers cs held) :=
  List.foldl_append

/-- Changes that do not name a role leave it alone. -/
theorem effects_of_not_grantee {cs : List Change} {role : String}
    (h : ∀ c ∈ cs, c.grantee? ≠ some role) : effects covers cs held role = held role := by
  induction cs generalizing held with
  | nil => rfl
  | cons c cs ih =>
    rw [effects_cons, ih fun d hd => h d (List.mem_cons_of_mem c hd)]
    have hc : c.grantee? ≠ some role := h c List.mem_cons_self
    cases c with
    | grant _ _ r _ =>
      have hr : ¬role = r := fun e => hc (congrArg some e.symm)
      simp [effect, hr]
    | revokeAll _ r =>
      have hr : ¬role = r := fun e => hc (congrArg some e.symm)
      simp [effect, hr]
    | _ => rfl

end Sql.Change

end DeclaredAccess
