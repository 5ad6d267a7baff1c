import DeclaredAccess.Proofs.Checks
import DeclaredAccess.Proofs.Policy.Asked
import DeclaredAccess.Proofs.Policy.Partition
import DeclaredAccess.Proofs.Policy.Planwise

/-! What a plan says of roles that are gone. A role that is dropped is asked about, and a role that is
given something is spelt so by the new declarations. What is taken back from a role whose declaration
changes goes by its old spelling, and nobody asks whether there still is such a role. So a plan names a
role that is neither there nor in the new declarations exactly if it changes that role's spelling. -/

namespace DeclaredAccess

open Sql

namespace Declaration

variable {old new : List Declaration} {o n : Keyed Declaration} {there : String → Bool}
  {role : String} {target : Target}

/-- What is declared for a role is to be taken from it: the new list does not say the same of its
key, and where it does not name the key at all, the role is still there. -/
def Loses (old new : List Declaration) (there : String → Bool) (role : String) : Prop :=
  ∃ d, Unites old (Role.key role) d ∧ d.role = role ∧ d.privileges.isEmpty = false ∧
    ¬Unites new (Role.key role) d ∧
      ((∀ a ∈ new, a.key ≠ Role.key role) → PolicyDiff.stands there role = true)

theorem loses_iff {P : Declaration → Prop} (ho : byRole old = .ok o) (hn : byRole new = .ok n)
    (hi : o.Indexed key P) : Loses old new there role ↔
      ∃ d ∈ (PolicyDiff.between o n).lowered there,
        d.role = role ∧ d.privileges.isEmpty = false := by
  constructor
  · rintro ⟨d, hd, rfl, hp, hne, hs⟩
    refine ⟨d, (PolicyDiff.mem_lowered hi.nodup).mpr ⟨Role.key d.role, ?_, ?_, ?_⟩, rfl, hp⟩
    · exact (get?_byRole_eq_some_iff ho).mpr hd
    · exact fun h => hne ((get?_byRole_eq_some_iff hn).mp h)
    · exact fun h => hs ((get?_byRole_eq_none_iff hn).mp h)
  · rintro ⟨d, hd, rfl, hp⟩
    obtain ⟨k, hg, hne, hs⟩ := (PolicyDiff.mem_lowered hi.nodup).mp hd
    obtain rfl : d.key = k := (hi.entry _ (Keyed.mem_of_get? hg)).1
    refine ⟨d, (get?_byRole_eq_some_iff ho).mp hg, rfl, hp, fun h => hne ?_, fun h => hs ?_⟩
    · exact (get?_byRole_eq_some_iff hn).mpr h
    · exact (get?_byRole_eq_none_iff hn).mpr h

/-- The role is there, or the merged declarations spell it so. -/
def Vouched (new : List Declaration) (there : String → Bool) (role : String) : Prop :=
  PolicyDiff.stands there role = true ∨ ∃ d, Unites new (Role.key role) d ∧ d.role = role

/-- The role is gone, and what it was given is now declared for another spelling of it. -/
structure Forsaken (old new : List Declaration) (there : String → Bool) (role : String) :
    Prop where
  gone : PolicyDiff.stands there role = false
  given : ∃ d, Unites old (Role.key role) d ∧ d.role = role ∧ d.privileges.isEmpty = false
  respelt : ∃ d, Unites new (Role.key role) d ∧ d.role ≠ role

/-- Who loses something without being vouched for is forsaken. -/
theorem forsaken_iff (hn : byRole new = .ok n) :
    Forsaken old new there role ↔ Loses old new there role ∧ ¬Vouched new there role := by
  constructor
  · rintro ⟨hgone, ⟨d, hd, hrole, hp⟩, e, he, hne⟩
    have other : ∀ c, Unites new (Role.key role) c → c.role ≠ role :=
      fun c hc hr => hne (hc.unique he ▸ hr)
    refine ⟨⟨d, hd, hrole, hp, fun h => other d h hrole, fun hnone => ?_⟩, ?_⟩
    · obtain ⟨a, ha, hk⟩ := he.exists_mem
      exact absurd hk (hnone a ha)
    · rintro (hs | ⟨c, hc, hr⟩)
      · exact nomatch hgone.symm.trans hs
      · exact other c hc hr
  · rintro ⟨⟨d, hd, hrole, hp, -, hs⟩, hv⟩
    have hgone : PolicyDiff.stands there role = false :=
      Bool.eq_false_iff.mpr fun h => hv (.inl h)
    obtain ⟨a, ha, hk⟩ : ∃ a ∈ new, a.key = Role.key role := by
      refine Classical.byContradiction fun hnone => ?_
      exact nomatch hgone.symm.trans (hs fun a ha hk => hnone ⟨a, ha, hk⟩)
    obtain ⟨e, he⟩ := (exists_unites_iff hn).mpr ⟨a, ha, hk⟩
    exact ⟨hgone, ⟨d, hd, hrole, hp⟩, e, he, fun hr => hv (.inr ⟨e, he, hr⟩)⟩

end Declaration

namespace PolicyDiff

open Declaration

variable {α β : Type} {diff : PolicyDiff} {target : Target} {there : String → Bool}
  {old new : List Declaration}

theorem exists_of_ofLists (h : ofLists old new = .ok diff) :
    ∃ o n, byRole old = .ok o ∧ byRole new = .ok n ∧ diff = between o n := by
  obtain ⟨o, ho, h⟩ := exists_of_bind_eq_ok h
  obtain ⟨n, hn, h⟩ := exists_of_bind_eq_ok h
  cases h
  exact ⟨o, n, ho, hn, rfl⟩

/-! ## What a plan makes, if it makes anything -/

/-- What `x` makes, unless there is a conflict, satisfies `p`. -/
def Makes (x : ExceptT Conflict Id α) (p : α → Prop) : Prop := ∀ v, Id.run x.run = .ok v → p v

namespace Makes

theorem pure {p : α → Prop} {v : α} (h : p v) : Makes (pure v) p := by
  intro w hw
  cases hw
  exact h

theorem bindOf {x : ExceptT Conflict Id α} {f : α → ExceptT Conflict Id β} {p : β → Prop}
    (h : ∀ a, Id.run x.run = .ok a → Makes (f a) p) : Makes (x >>= f) p := by
  intro w hw
  change ExceptT.bindCont f (Id.run x.run) = _ at hw
  cases hr : Id.run x.run with
  | ok a =>
    rw [hr] at hw
    exact h a hr w hw
  | error e =>
    rw [hr] at hw
    cases hw

theorem planwise : Planwise fun {α} (x : ExceptT Conflict Id α) p => Makes x p where
  pure := pure
  bind hx hf := bindOf fun a ha => hf a (hx a ha)

end Makes

theorem makes_lower (target : Target) (d : Declaration) :
    Makes (do return (← d.toAcl).revokes target) (d.lowering target = ·) := by
  refine .bindOf fun a ha => .pure ?_
  obtain ⟨hrole, hp, -, -⟩ := Acl.make_eq_ok_iff.mp ha
  rw [Acl.revokes, hp, hrole, lowering]

theorem makes_raise (target : Target) (d : Declaration) :
    Makes (do Acl.grants target (← d.toAcl)) (d.raising target = ·) := by
  refine .bindOf fun a ha => ?_
  obtain ⟨hrole, hp, ho, -⟩ := Acl.make_eq_ok_iff.mp ha
  intro w hw
  replace hw : a.grants target = .ok w := hw
  unfold Acl.grants at hw
  split at hw
  · cases hw
    rw [hrole, hp, ho, raising]
  · cases hw

theorem makes_dropRole (target : Target) (there : String → Bool) (d : Declaration) :
    Makes (dropRole target (fun r => Pure.pure (there r)) d)
      ((if stands there d.role then d.lowering target else []) = ·) := by
  have said : Makes (liftM (Pure.pure (there d.role) : Id Bool)) (there d.role = ·) :=
    fun _ hb => Except.ok.inj hb
  refine Makes.planwise.dropRole said (fun hs => ?_) fun he hs => ?_
  · have stays : stands there d.role = true := by
      rcases hs with he | hs
      · simp [stands, he]
      · simp [stands, hs]
    rw [stays]
    exact makes_lower target d
  · simp [stands, he, hs]

/-- A plan takes back and makes what the difference says, whether or not all of it fits. -/
theorem makes_plan (diff : PolicyDiff) (target : Target) (there : String → Bool) :
    Makes (diff.plan target fun r => Pure.pure (there r)) (diff.changes target there = ·) := by
  refine Makes.planwise.plan (fun e _ => makes_dropRole target there e.2)
    (fun e _ => makes_lower target e.2.1) (fun e _ => makes_raise target e.2)
    (fun e _ => makes_raise target e.2.2) fun ds ls as rs h₁ h₂ h₃ h₄ => ?_
  simp only [← List.forall₂_map_left_iff, List.forall₂_eq_eq_eq] at h₁ h₂ h₃ h₄
  subst h₁ h₂ h₃ h₄
  rw [flatten_dropped]
  simp only [changes, lowered, raised, List.flatMap_append, List.flatMap_map, List.append_assoc]
  simp only [List.flatMap_def]

theorem plan_of_fits (ho : ∀ d ∈ old, d.Fits target.kind) (hn : ∀ d ∈ new, d.Fits target.kind)
    (h : ofLists old new = .ok diff) :
    Id.run (diff.plan target fun r => pure (there r)).run = .ok (diff.changes target there) := by
  obtain ⟨o, n, hbo, hbn, rfl⟩ := exists_of_ofLists h
  have fits := fits_between (indexed_byRole hbo ho) (indexed_byRole hbn hn)
  exact congrArg (fun x => Id.run (ExceptT.run x)) (plan_eq fits)

theorem mem_changes_iff {place : Target} {role : String} (h : ofLists old new = .ok diff) :
    .revokeAll place role ∈ diff.changes target there ↔
      place = target ∧ Loses old new there role := by
  obtain ⟨o, n, ho, hn, rfl⟩ := exists_of_ofLists h
  have hi := Keyed.indexed_gather (keeps_speltAs old) (fun d hd => ⟨d, hd, rfl, rfl⟩) ho
  rw [mem_changes, loses_iff ho hn hi]

/-- Whoever is given something is spelt so by the merged declarations. -/
theorem vouched_of_raised {c : Change} {role : String} (h : ofLists old new = .ok diff)
    (hc : c ∈ diff.raised.flatMap (raising target)) (hr : c.grantee? = some role) :
    Vouched new there role := by
  obtain ⟨o, n, ho, hn, rfl⟩ := exists_of_ofLists h
  have hoi := Keyed.indexed_gather (keeps_speltAs old) (fun d hd => ⟨d, hd, rfl, rfl⟩) ho
  have hni := Keyed.indexed_gather (keeps_speltAs new) (fun d hd => ⟨d, hd, rfl, rfl⟩) hn
  obtain ⟨d, hd, hc⟩ := List.mem_flatMap.mp hc
  obtain ⟨_, _, rfl⟩ := mem_raising hc
  obtain rfl : d.role = role := Option.some.inj hr
  obtain ⟨k, hg, -⟩ := (mem_raised hoi.nodup hni.nodup).mp hd
  obtain rfl : d.key = k := (hni.entry _ (Keyed.mem_of_get? hg)).1
  exact .inr ⟨d, (get?_byRole_eq_some_iff hn).mp hg, rfl⟩

/-- The revokes of a plan are on its target, and from the roles that lose something. All other
statements, and all revokes but those from the forsaken, name a role that is there or that the merged
new declarations spell so; and from all who are forsaken it is revoked. -/
theorem plan_forsakes (h : ofLists old new = .ok diff) {cs : List Change}
    (hp : Id.run (diff.plan target fun r => pure (there r)).run = .ok cs) :
    (∀ place role, .revokeAll place role ∈ cs ↔ place = target ∧ Loses old new there role) ∧
    (∀ c ∈ cs, ∀ role, c.grantee? = some role → ¬Vouched new there role →
      c = .revokeAll target role) ∧
    ∀ role, .revokeAll target role ∈ cs ∧ ¬Vouched new there role ↔
      Forsaken old new there role := by
  obtain rfl : diff.changes target there = cs := makes_plan diff target there cs hp
  refine ⟨fun _ _ => mem_changes_iff h, fun c hc role hr hv => ?_, fun role => ?_⟩
  · rcases List.mem_append.mp hc with hc | hc
    · obtain ⟨d, -, hc⟩ := List.mem_flatMap.mp hc
      obtain rfl := mem_lowering hc
      exact congrArg _ (Option.some.inj hr)
    · exact absurd (vouched_of_raised h hc hr) hv
  · obtain ⟨_, _, _, hn, _⟩ := exists_of_ofLists h
    rw [mem_changes_iff h, forsaken_iff hn, and_iff_right rfl]

/-- A role that was renamed, by letter case only, and its policy with it. -/
def renamedOld : List Declaration := [⟨"Alice", .ofList [.usage], ∅, []⟩]

def renamedNew : List Declaration := [⟨"alice", .ofList [.usage], ∅, []⟩]

def renamedTarget : Target := { kind := .schema, name := "app" }

def isRenamed (role : String) : Bool := role == "alice"

theorem forsaken_renamed : Forsaken renamedOld renamedNew isRenamed "Alice" where
  gone := by decide
  given := ⟨_, (get?_byRole_eq_some_iff rfl).mp rfl, rfl, by decide⟩
  respelt := ⟨_, (get?_byRole_eq_some_iff rfl).mp rfl, by decide⟩

theorem plan_renamed : ∃ diff, ofLists renamedOld renamedNew = .ok diff ∧
    Id.run (diff.plan renamedTarget fun r => pure (isRenamed r)).run =
      .ok (diff.changes renamedTarget isRenamed) := by
  have hold : ∀ d ∈ renamedOld, d.Fits .schema := by
    intro d hd
    constructor <;> revert d <;> decide
  have hnew : ∀ d ∈ renamedNew, d.Fits .schema := by
    intro d hd
    constructor <;> revert d <;> decide
  exact ⟨_, rfl, plan_of_fits hold hnew rfl⟩

theorem plan_forsakes_renamed : ∃ diff cs, ofLists renamedOld renamedNew = .ok diff ∧
    Id.run (diff.plan renamedTarget fun r => pure (isRenamed r)).run = .ok cs ∧
    .revokeAll renamedTarget "Alice" ∈ cs ∧ ¬Vouched renamedNew isRenamed "Alice" := by
  obtain ⟨diff, hdiff, hplan⟩ := plan_renamed
  exact ⟨diff, _, hdiff, hplan, ((plan_forsakes hdiff hplan).2.2 "Alice").mpr forsaken_renamed⟩

theorem revoke_unvouched : ¬∀ old new diff target there cs, ofLists old new = .ok diff →
    Id.run (diff.plan target fun r => pure (there r)).run = .ok cs →
    ∀ place role, .revokeAll place role ∈ cs → Vouched new there role := by
  intro h
  obtain ⟨diff, hdiff, hplan⟩ := plan_renamed
  obtain ⟨hloses, hunvouched⟩ := (forsaken_iff rfl).mp forsaken_renamed
  have planned : .revokeAll renamedTarget "Alice" ∈ diff.changes renamedTarget isRenamed :=
    (mem_changes_iff hdiff).mpr ⟨rfl, hloses⟩
  exact hunvouched (h _ _ diff _ _ _ hdiff hplan _ _ planned)

end PolicyDiff

end DeclaredAccess
