import DeclaredAccess.Proofs.Checks
import DeclaredAccess.Proofs.Grant.Id

/-! What is known of a grant that a resource declares: its parts can stand in an identifier, and
where privileges are asked for there are some. -/

namespace DeclaredAccess

namespace PrivilegeSet

theorem addNamed_eq_ok {kind : ObjectKind} {s s' : PrivilegeSet} {name : String}
    (hk : kind ∈ ObjectKind.grantable) (h : addNamed kind s name = .ok s') :
    s ⊆ s' ∧ ∃ p, p ∈ s' := by
  unfold addNamed at h
  split at h
  · cases h
    refine ⟨fun p hp => mem_union.mpr (.inl hp), ?_⟩
    have ha : ∃ p, p ∈ kind.allowed := by
      cases kind with
      | schema => exact absurd hk (by decide)
      | database => exact ⟨.create, by decide⟩
      | table => exact ⟨.select, by decide⟩
      | sequence => exact ⟨.usage, by decide⟩
      | function => exact ⟨.execute, by decide⟩
    obtain ⟨p, hp⟩ := ha
    exact ⟨p, mem_union.mpr (.inr hp)⟩
  · obtain ⟨p, _, h⟩ := exists_of_bind_eq_ok h
    split at h
    · cases h
      exact ⟨fun q hq => mem_union.mpr (.inl hq), p, mem_union.mpr (.inr (by simp))⟩
    · cases h

/-- Each name spells a privilege. -/
theorem ofNames_nonempty {kind : ObjectKind} {names : List String} {s : PrivilegeSet}
    (hk : kind ∈ ObjectKind.grantable) (hn : names ≠ []) (h : ofNames kind names = .ok s) :
    s.isEmpty = false := by
  cases names with
  | nil => exact absurd rfl hn
  | cons n ns =>
    unfold ofNames at h
    rw [List.foldlM_cons] at h
    obtain ⟨s₁, h₁, h₂⟩ := exists_of_bind_eq_ok h
    obtain ⟨p, hp⟩ := (addNamed_eq_ok hk h₁).2
    have hs : p ∈ s := of_foldlM_ok (P := (p ∈ ·))
      (fun _ _ _ _ hq h => (addNamed_eq_ok hk h).1 p hq) hp h₂
    cases he : s.isEmpty with
    | false => rfl
    | true =>
      rw [isEmpty_iff.mp he] at hs
      exact absurd hs mem_empty

end PrivilegeSet

namespace Grant

theorem checkMarks_eq_ok_iff {key : String} {items : List String} :
    checkMarks key items = .ok () ↔ ∀ i ∈ items, ∀ m ∈ GrantId.marks, ¬m ∈ i.toList := by
  have marked (i : String) : (i.toList.any fun c => c == ':' || c == ',') = true ↔
      ∃ m ∈ GrantId.marks, m ∈ i.toList := by
    simp [GrantId.marks, and_comm]
  unfold checkMarks
  cases hf : items.find? fun i => i.toList.any fun c => c == ':' || c == ',' with
  | some i =>
    refine iff_of_false (fun h => by cases h) fun h => ?_
    have found := List.find?_some (p := fun i : String => i.toList.any fun c => c == ':' || c == ',') hf
    obtain ⟨m, hm, hc⟩ := (marked i).mp found
    exact h i (List.mem_of_find?_eq_some hf) m hm hc
  | none =>
    refine iff_of_true rfl fun i hi m hm hc => ?_
    exact List.find?_eq_none.mp hf i hi ((marked i).mpr ⟨m, hm, hc⟩)

theorem kindOf_grantable {name : String} {kind : ObjectKind} (h : kindOf name = .ok kind) :
    kind ∈ ObjectKind.grantable := by
  unfold kindOf at h
  split at h
  · split at h
    · cases h
      assumption
    · cases h
  · cases h

/-- What a resource gives that declares a grant, and what is checked of it. -/
structure Declares (r : Resource) (needsPrivileges : Bool) (g : Grant) (named name : String)
    (items names : List String) : Prop where
  given : r.required .grant "role" = .ok named
  role : g.role = if Text.lower named = "public" then "" else named
  database : r.required .grant "database" = .ok g.database
  schema : r.optional "schema" = .ok g.schema
  typed : r.required .grant "object_type" = .ok name
  kind : kindOf name = .ok g.kind
  listed : r.texts "objects" = .ok items
  objects : g.objects = sortNames items
  unlisted : g.kind = .database → items = []
  placed : g.kind ≠ .database → g.schema ≠ ""
  spelt : r.texts "privileges" = .ok names
  needed : needsPrivileges = true → names ≠ []
  privileges : PrivilegeSet.ofNames g.kind names = .ok g.privileges
  option : g.withGrantOption = r.flag "with_grant_option"
  point : '.' ∉ g.database.toList
  marks : ∀ s ∈ g.role :: g.database :: g.schema :: items, ∀ m ∈ GrantId.marks, ¬m ∈ s.toList

/-- Every check that a declaration goes through, and every part of the grant that it declares. -/
theorem ofResource_eq_ok_iff {r : Resource} {b : Bool} {g : Grant} : ofResource r b = .ok g ↔
    ∃ named name items names, Declares r b g named name items names := by
  unfold ofResource
  constructor
  · intro h
    obtain ⟨named, hnamed, h⟩ := exists_of_bind_eq_ok h
    obtain ⟨database, hdatabase, h⟩ := exists_of_bind_eq_ok h
    obtain ⟨schema, hschema, h⟩ := exists_of_bind_eq_ok h
    obtain ⟨name, hname, h⟩ := exists_of_bind_eq_ok h
    obtain ⟨kind, hkind, h⟩ := exists_of_bind_eq_ok h
    obtain ⟨items, hitems, h⟩ := exists_of_bind_eq_ok h
    obtain ⟨hunlisted, hplaced, h⟩ := of_guards_eq_ok h
    obtain ⟨names, hnames, h⟩ := exists_of_bind_eq_ok h
    obtain ⟨hneeded, h⟩ := of_guard_eq_ok h
    obtain ⟨privileges, hprivileges, h⟩ := exists_of_bind_eq_ok h
    obtain ⟨hpoint, h⟩ := of_guard_eq_ok h
    obtain ⟨⟨⟩, mrole, h⟩ := exists_of_bind_eq_ok h
    obtain ⟨⟨⟩, mdatabase, h⟩ := exists_of_bind_eq_ok h
    obtain ⟨⟨⟩, mschema, h⟩ := exists_of_bind_eq_ok h
    obtain ⟨⟨⟩, mitems, h⟩ := exists_of_bind_eq_ok h
    cases h
    refine ⟨named, name, items, names, hnamed, rfl, hdatabase, hschema, hname, hkind, hitems, rfl,
      fun hk => by simpa using hunlisted hk, fun hk => by simpa using hplaced hk, hnames,
      fun hb => by simpa [hb] using hneeded, hprivileges, rfl, by simpa using hpoint, ?_⟩
    rw [checkMarks_eq_ok_iff, List.forall_mem_singleton] at mrole mdatabase mschema
    exact List.forall_mem_cons.mpr ⟨mrole, List.forall_mem_cons.mpr ⟨mdatabase,
      List.forall_mem_cons.mpr ⟨mschema, checkMarks_eq_ok_iff.mp mitems⟩⟩⟩
  · rintro ⟨named, name, items, names, h⟩
    obtain ⟨role, database, kind, privileges, schema, sorted, option⟩ := g
    obtain ⟨hnamed, rfl, hdatabase, hschema, hname, hkind, hitems, rfl, hunlisted, hplaced, hnames,
      hneeded, hprivileges, rfl, hpoint, hmarks⟩ := h
    obtain ⟨mrole, hmarks⟩ := List.forall_mem_cons.mp hmarks
    obtain ⟨mdatabase, hmarks⟩ := List.forall_mem_cons.mp hmarks
    obtain ⟨mschema, mitems⟩ := List.forall_mem_cons.mp hmarks
    refine bind_eq_ok hnamed (bind_eq_ok hdatabase (bind_eq_ok hschema (bind_eq_ok hname
      (bind_eq_ok hkind (bind_eq_ok hitems ?_)))))
    refine guards_eq_ok (fun hk => by simpa using hunlisted hk) (fun hk => by simpa using hplaced hk)
      (bind_eq_ok hnames (guard_eq_ok ?_ (bind_eq_ok hprivileges (guard_eq_ok ?_ ?_))))
    · intro h
      obtain ⟨hb, hn⟩ := Bool.and_eq_true_iff.mp h
      exact hneeded hb (by simpa using hn)
    · simpa using hpoint
    · have unmarked {key s : String} (h : ∀ m ∈ GrantId.marks, ¬m ∈ s.toList) :
          checkMarks key [s] = .ok () :=
        checkMarks_eq_ok_iff.mpr (List.forall_mem_singleton.mpr h)
      exact bind_eq_ok (unmarked mrole) (bind_eq_ok (unmarked mdatabase)
        (bind_eq_ok (unmarked mschema) (bind_eq_ok (checkMarks_eq_ok_iff.mpr mitems) rfl)))

/-- What every declared grant satisfies. -/
structure Sound (g : Grant) : Prop extends Unmarked g where
  kind : g.kind ∈ ObjectKind.grantable
  unlisted : g.kind = .database → g.objects = []

theorem sound_of_declared {r : Resource} {b : Bool} {g : Grant} (h : ofResource r b = .ok g) :
    g.Sound ∧ (b = true → g.privileges.isEmpty = false) := by
  obtain ⟨named, name, items, names, h⟩ := ofResource_eq_ok_iff.mp h
  refine ⟨⟨⟨Resource.required_ne_empty h.database, h.point, h.marks _ (by simp), h.marks _ (by simp),
    fun o ho => h.marks o ?_⟩, kindOf_grantable h.kind, fun hk => ?_⟩, fun hb => ?_⟩
  · rw [h.objects, mem_sortNames] at ho
    simp [ho]
  · rw [h.objects, h.unlisted hk]
    exact List.mergeSort_nil
  · exact PrivilegeSet.ofNames_nonempty (kindOf_grantable h.kind) (h.needed hb) h.privileges

/-- The grant as it was last applied has the role and the place that are declared. Its objects are
those of the identifier, where there is one. -/
theorem declared_of_applied {r : Resource} {g : Grant} (h : applied r = .ok g) :
    ∃ g₀, ofResource r false = .ok g₀ ∧ g.role = g₀.role ∧ g.database = g₀.database ∧
      g.kind = g₀.kind ∧ g.schema = g₀.schema ∧
      ∀ a, GrantId.read r.id = .ok a → g.objects = a.objects ∧
        PrivilegeSet.ofNames g₀.kind a.privileges = .ok g.privileges := by
  unfold applied at h
  obtain ⟨g₀, h₀, h⟩ := exists_of_bind_eq_ok h
  refine ⟨g₀, h₀, ?_⟩
  split at h
  · rename_i he
    cases h
    refine ⟨rfl, rfl, rfl, rfl, fun a ha => ?_⟩
    rw [String.isEmpty_iff.mp he] at ha
    cases ha
  · obtain ⟨a, ha, h⟩ := exists_of_bind_eq_ok h
    obtain ⟨privileges, hp, h⟩ := exists_of_bind_eq_ok h
    cases h
    refine ⟨rfl, rfl, rfl, rfl, fun b hb => ?_⟩
    cases ha.symm.trans hb
    exact ⟨rfl, hp⟩

end Grant

end DeclaredAccess
