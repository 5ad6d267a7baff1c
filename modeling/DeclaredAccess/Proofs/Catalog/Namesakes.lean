import DeclaredAccess.Proofs.Catalog.Listed
import DeclaredAccess.Proofs.Policy.Share
import Mathlib.Data.List.Nodup

/-! What is read of objects that share their names. Functions are told apart by their arguments, but
an answer only tells their names. So what is read under a name is what the role holds on any of the
objects that have it, and an object on which it holds less is not seen beside one on which it holds
more. -/

namespace DeclaredAccess

open Acl.Entry (ofHoldings)

/-- An object of a target: its name, which others may share, and what the role holds on it. -/
structure HeldObject where
  name : String
  held : Holding
  covered : held.grantOptions ⊆ held.privileges

namespace HeldObject

variable {o : HeldObject} {objects : List HeldObject} {c : Told} {p : Privilege} {name : String}
  {answer : List Row}

/-- What an answer tells of the object: each privilege that is held, or else only its name. -/
def told (o : HeldObject) : List Told :=
  if o.held.privileges.isEmpty then [⟨o.name, none, .null⟩]
  else o.held.privileges.toList.map fun p => ⟨o.name, some p, .bool (o.held.grantOptions.has p)⟩

/-- The rows of an answer about objects, one object after the other. -/
def rows (objects : List HeldObject) : List Row :=
  objects.flatMap fun o => o.told.map Told.row

/-- What is held on any of the objects that have the name. -/
def together (objects : List HeldObject) (name : String) : Holding where
  privileges := ⟨fun p => objects.any fun o => o.name == name && o.held.privileges.has p⟩
  grantOptions := ⟨fun p => objects.any fun o => o.name == name && o.held.grantOptions.has p⟩

theorem mem_together_privileges : p ∈ (together objects name).privileges ↔
    ∃ o ∈ objects, o.name = name ∧ p ∈ o.held.privileges := by
  simp [together, PrivilegeSet.mem_def]

theorem mem_together_grantOptions : p ∈ (together objects name).grantOptions ↔
    ∃ o ∈ objects, o.name = name ∧ p ∈ o.held.grantOptions := by
  simp [together, PrivilegeSet.mem_def]

/-- Where no other object has its name, that is what is held on the object. -/
theorem together_of_nodup (hn : (objects.map HeldObject.name).Nodup) (ho : o ∈ objects) :
    together objects o.name = o.held := by
  have lone {o' : HeldObject} (h : o' ∈ objects) (hname : o'.name = o.name) : o' = o :=
    List.inj_on_of_nodup_map hn h ho hname
  refine Holding.ext (PrivilegeSet.ext_mem fun p => ?_) (PrivilegeSet.ext_mem fun p => ?_)
  · rw [mem_together_privileges]
    exact ⟨fun ⟨_, h, hname, hp⟩ => lone h hname ▸ hp, fun hp => ⟨o, ho, rfl, hp⟩⟩
  · rw [mem_together_grantOptions]
    exact ⟨fun ⟨_, h, hname, hp⟩ => lone h hname ▸ hp, fun hp => ⟨o, ho, rfl, hp⟩⟩

/-! ## Rows -/

theorem name_of_mem_told (h : c ∈ o.told) : c.name = o.name := by
  unfold told at h
  split at h
  · cases List.mem_singleton.mp h
    rfl
  · obtain ⟨p, _, rfl⟩ := List.mem_map.mp h
    rfl

theorem exists_mem_told (o : HeldObject) : ∃ c, c ∈ o.told := by
  unfold told
  split
  · exact ⟨_, List.mem_singleton_self _⟩
  · rename_i hne
    obtain ⟨p, hp⟩ := List.exists_mem_of_ne_nil _ fun hn => hne (List.isEmpty_iff.mpr hn)
    exact ⟨_, List.mem_map_of_mem hp⟩

/-- Exactly the privileges that are held are told, and the grant options with them. -/
theorem exists_told_privilege_iff {b : Bool} :
    (∃ c ∈ o.told, c.privilege = some p ∧ c.grantable.truthy = b) ↔
      p ∈ o.held.privileges ∧ o.held.grantOptions.has p = b := by
  unfold told
  split
  · rename_i he
    refine iff_of_false (fun ⟨c, hc, hp, _⟩ => ?_) fun ⟨hp, _⟩ => ?_
    · cases List.mem_singleton.mp hc
      cases hp
    · rw [PrivilegeSet.isEmpty_iff.mp he] at hp
      exact PrivilegeSet.mem_empty hp
  · simp only [List.mem_map, PrivilegeSet.mem_toList]
    constructor
    · rintro ⟨_, ⟨q, hq, rfl⟩, hp, rfl⟩
      cases hp
      exact ⟨hq, rfl⟩
    · rintro ⟨hp, rfl⟩
      exact ⟨_, ⟨p, hp, rfl⟩, rfl, rfl⟩

theorem row_injective {c c' : Told} (h : c.row = c'.row) : c = c' := by
  obtain ⟨name, privilege, grantable⟩ := c'
  cases privilege with
  | some p => exact Told.eq_of_row h
  | none =>
    obtain ⟨name', privilege', grantable'⟩ := c
    unfold Told.row at h
    simp only [List.cons.injEq, Value.text.injEq, and_true] at h
    obtain ⟨rfl, hp, rfl⟩ := h
    cases privilege' with
    | none => rfl
    | some q => cases hp

/-- Rows in any order are what is told of the objects. -/
theorem exists_told_of_perm (h : answer.Perm (rows objects)) :
    ∃ cs : List Told, answer = cs.map Told.row ∧ ∀ c, c ∈ cs ↔ ∃ o ∈ objects, c ∈ o.told := by
  obtain ⟨cs, rfl, hcs⟩ : ∃ cs : List Told, answer = cs.map Told.row ∧
      ∀ c ∈ cs, ∃ o ∈ objects, c ∈ o.told := by
    refine exists_map_of_forall fun row hrow => ?_
    obtain ⟨o, ho, hm⟩ := List.mem_flatMap.mp (h.mem_iff.mp hrow)
    obtain ⟨c, hc, rfl⟩ := List.mem_map.mp hm
    exact ⟨c, ⟨o, ho, hc⟩, rfl⟩
  refine ⟨cs, rfl, fun c => ⟨hcs c, fun ⟨o, ho, hc⟩ => ?_⟩⟩
  have told : c.row ∈ rows objects :=
    List.mem_flatMap.mpr ⟨o, ho, List.mem_map_of_mem hc⟩
  obtain ⟨c', hc', hrow⟩ := List.mem_map.mp (h.mem_iff.mpr told)
  exact row_injective hrow ▸ hc'

/-- What is read under a name is held on any of the objects that have it. -/
theorem holding_about {cs : List Told} (hcs : ∀ c, c ∈ cs ↔ ∃ o ∈ objects, c ∈ o.told)
    (role name : String) :
    (ofHoldings role (Told.about cs name) "").holding = together objects name := by
  have about (p : Privilege) (b : Bool) : (p, b) ∈ Told.about cs name ↔ ∃ o ∈ objects,
      o.name = name ∧ p ∈ o.held.privileges ∧ o.held.grantOptions.has p = b := by
    simp only [Told.mem_about, hcs, ← exists_told_privilege_iff]
    constructor
    · rintro ⟨c, ⟨o, ho, hc⟩, hn, hp, hb⟩
      exact ⟨o, ho, (name_of_mem_told hc).symm.trans hn, c, hc, hp, hb⟩
    · rintro ⟨o, ho, hn, c, hc, hp, hb⟩
      exact ⟨c, ⟨o, ho, hc⟩, (name_of_mem_told hc).trans hn, hp, hb⟩
  refine Holding.ext (PrivilegeSet.ext_mem fun p => ?_) (PrivilegeSet.ext_mem fun p => ?_)
  · rw [mem_together_privileges]
    show p ∈ PrivilegeSet.ofList _ ↔ _
    simp only [PrivilegeSet.mem_ofList, List.mem_map, Prod.exists, exists_and_right, exists_eq_right,
      about]
    constructor
    · rintro ⟨b, o, ho, hn, hp, _⟩
      exact ⟨o, ho, hn, hp⟩
    · rintro ⟨o, ho, hn, hp⟩
      exact ⟨_, o, ho, hn, hp, rfl⟩
  · rw [mem_together_grantOptions]
    show p ∈ PrivilegeSet.ofList _ ↔ _
    simp only [PrivilegeSet.mem_ofList, List.mem_map, List.mem_filter, Prod.exists,
      exists_and_right, exists_eq_right, about]
    constructor
    · rintro ⟨o, ho, hn, _, hp⟩
      exact ⟨o, ho, hn, hp⟩
    · rintro ⟨o, ho, hn, hp⟩
      exact ⟨o, ho, hn, o.covered p hp, hp⟩

/-- Rows about objects can be read, in any order. There is one entry for each name that occurs. -/
theorem ofRows_of_perm (role : String) (h : answer.Perm (rows objects)) :
    ∃ found, Holdings.ofRows role answer = .ok found ∧ found.names.Nodup ∧
      (∀ v, v ∈ found.names ↔ ∃ o ∈ objects, v = .text o.name) ∧
      ∀ e ∈ found, ∃ o ∈ objects, e.1 = .text o.name ∧
        e.2.holding = together objects o.name := by
  obtain ⟨cs, rfl, hcs⟩ := exists_told_of_perm h
  have occurs (name : String) : name ∈ (cs.map Told.name).eraseDups ↔
      ∃ o ∈ objects, name = o.name := by
    rw [List.mem_eraseDups, List.mem_map]
    constructor
    · rintro ⟨c, hc, rfl⟩
      obtain ⟨o, ho, hm⟩ := (hcs c).mp hc
      exact ⟨o, ho, name_of_mem_told hm⟩
    · rintro ⟨o, ho, rfl⟩
      obtain ⟨c, hc⟩ := o.exists_mem_told
      exact ⟨c, (hcs c).mpr ⟨o, ho, hc⟩, name_of_mem_told hc⟩
  have names : Holdings.names ((cs.map Told.name).eraseDups.map fun name =>
      (Value.text name, ofHoldings role (Told.about cs name) "")) =
        (cs.map Told.name).eraseDups.map Value.text := by
    simp [Holdings.names]
  refine ⟨_, Told.ofRows_map_row role cs, ?_, fun v => ?_, fun e he => ?_⟩
  · rw [names]
    exact (nodup_eraseDups _).map fun _ _ hv => Value.text.inj hv
  · rw [names, List.mem_map]
    constructor
    · rintro ⟨name, hname, rfl⟩
      obtain ⟨o, ho, rfl⟩ := (occurs name).mp hname
      exact ⟨o, ho, rfl⟩
    · rintro ⟨o, ho, rfl⟩
      exact ⟨o.name, (occurs _).mpr ⟨o, ho, rfl⟩, rfl⟩
  · obtain ⟨name, hname, rfl⟩ := List.mem_map.mp he
    obtain ⟨o, ho, rfl⟩ := (occurs name).mp hname
    exact ⟨o, ho, rfl, holding_about hcs role o.name⟩

end HeldObject

end DeclaredAccess
