import DeclaredAccess.Proofs.Grant.Judged
import DeclaredAccess.Proofs.Schema.Settled

/-! Reading a grant again while the catalog stays as it is. What a read leaves is read as the same
grant, as long as it has the grant's identifier; and the verdict on a grant clears nothing that it has
not cleared before. So the second read changes nothing, unless the first one has cleared the
identifier because none of the listed objects is left: then the objects are cleared too, and what is
left to read is a grant on every object of the schema. -/

namespace DeclaredAccess

variable {c : Client} {g g' g₀ : Grant} {r r' : Resource}

/-! ## What clearing leaves -/

namespace Resource

variable {key : String}

theorem texts_congr (h : r'.get? key = r.get? key) : r'.texts key = r.texts key := by
  rw [texts, texts, getD_congr h]

theorem texts_of_empty (h : r.get? key = some (.list [])) : r.texts key = .ok [] := by
  rw [texts, getD_of_get? h]
  rfl

end Resource

namespace Verdict

/-- The fields that are cleared are empty, and the others are as they were. -/
theorem get?_clear (v : Verdict) (r : Resource) (key : String) : (v.clear r).get? key =
    if (v.objects = true ∧ key = "objects") ∨ (v.privileges = true ∧ key = "privileges") then
      some (.list []) else r.get? key := by
  have put (r : Resource) (k : String) : (r.put k (.list [])).get? key =
      if key = k then some (.list []) else r.get? key := by
    split
    · rename_i h
      rw [h]
      exact Resource.get?_put Value.noConfusion
    · exact Resource.get?_put_of_ne ‹_›
  have setId (r : Resource) : (r.setId "").get? key = r.get? key := rfl
  obtain ⟨i, o, p⟩ := v
  cases i <;> cases o <;> cases p <;> grind [clear]

theorem id_clear (v : Verdict) (r : Resource) : (v.clear r).id = if v.id then "" else r.id := by
  obtain ⟨i, o, p⟩ := v
  cases i <;> cases o <;> cases p <;> rfl

/-- Where everything is cleared already, nothing changes. -/
theorem clear_eq_self {v : Verdict} (hi : v.id = true → r.id = "")
    (ho : v.objects = true → r.get? "objects" = some (.list []))
    (hp : v.privileges = true → r.get? "privileges" = some (.list [])) : v.clear r = r := by
  have objects : (if v.objects then r.put "objects" (.list []) else r) = r := by
    split
    · exact Resource.put_of_get? (ho ‹_›)
    · rfl
  have privileges : (if v.privileges then r.put "privileges" (.list []) else r) = r := by
    split
    · exact Resource.put_of_get? (hp ‹_›)
    · rfl
  have id : (if v.id then r.setId "" else r) = r := by
    split
    · rw [← hi ‹_›, Resource.setId]
    · rfl
  simp only [clear, objects, privileges, id]

theorem clear_clear (v : Verdict) (r : Resource) : v.clear (v.clear r) = v.clear r :=
  clear_eq_self (fun h => by simp [id_clear, h]) (fun h => by simp [get?_clear, h])
    fun h => by simp [get?_clear, h]

end Verdict

namespace Grant

/-- What was accepted is accepted for the same role and place once some of it is cleared. -/
theorem declared_of_cleared {b : Bool} (h : ofResource r b = .ok g) (v : Verdict) :
    ∃ g', ofResource (v.clear r) false = .ok g' ∧ g'.scope = g.scope := by
  obtain ⟨_, _, items, names, hd⟩ := ofResource_eq_ok_iff.mp h
  have place : (v.clear r).SamePlace r := by
    intro key hk
    rw [v.get?_clear, if_neg]
    rintro (⟨_, rfl⟩ | ⟨_, rfl⟩) <;> simp at hk
  refine declared_of_samePlace h place ⟨?_, ?_⟩
  · cases ho : v.objects with
    | true =>
      refine ⟨[], Resource.texts_of_empty ?_, fun _ => rfl, fun _ hn => absurd hn List.not_mem_nil⟩
      simp [v.get?_clear, ho]
    | false =>
      refine ⟨items, (Resource.texts_congr ?_).trans hd.listed, hd.unlisted,
        fun o ho => hd.marks o (by simp [ho])⟩
      simp [v.get?_clear, ho]
  · cases hp : v.privileges with
    | true =>
      refine ⟨[], ∅, Resource.texts_of_empty ?_, rfl⟩
      simp [v.get?_clear, hp]
    | false =>
      refine ⟨names, _, (Resource.texts_congr ?_).trans hd.spelt, hd.privileges⟩
      simp [v.get?_clear, hp]

/-- Where the list of objects is empty, none is declared. -/
theorem objects_of_declared {b : Bool} (h : ofResource r b = .ok g)
    (hr : r.get? "objects" = some (.list [])) : g.objects = [] := by
  obtain ⟨_, _, items, _, hd⟩ := ofResource_eq_ok_iff.mp h
  have unlisted : items = [] := Except.ok.inj (hd.listed.symm.trans (Resource.texts_of_empty hr))
  rw [hd.objects, unlisted]
  exact List.mergeSort_nil

/-! ## What is left is read as the same grant -/

theorem declared_of_applied_scope (h : applied r = .ok g) :
    ∃ g₀, ofResource r false = .ok g₀ ∧ g₀.scope = g.scope := by
  obtain ⟨g₀, hd, hrole, hdatabase, hkind, hschema, _⟩ := declared_of_applied h
  exact ⟨g₀, hd, by rw [scope, scope, hrole, hdatabase, hkind, hschema]⟩

/-- An identifier declares nothing. -/
theorem ofResource_identified (g : Grant) (r : Resource) (b : Bool) :
    ofResource (g.identified r) b = ofResource r b := by
  unfold identified
  split <;> rfl

theorem applied_of_no_id (h : r.id = "") : applied r = ofResource r false := by
  unfold applied
  rw [h]
  cases ofResource r false <;> rfl

/-- The identifier tells all of the grant but its role and place. -/
theorem applied_of_same_id (h : applied r = .ok g) (hne : r.id ≠ "") (hi : r'.id = r.id)
    (hd : ofResource r' false = .ok g') (hs : g'.scope = g.scope) : applied r' = .ok g := by
  unfold applied at h
  obtain ⟨⟨role, database, kind, _, schema, _, _⟩, _, h⟩ := exists_of_bind_eq_ok h
  rw [if_neg (by simpa using hne)] at h
  obtain ⟨a, ha, h⟩ := exists_of_bind_eq_ok h
  obtain ⟨privileges, hp, h⟩ := exists_of_bind_eq_ok h
  cases h
  obtain ⟨role', database', kind', _, schema', _, _⟩ := g'
  obtain ⟨rfl, rfl, rfl, rfl⟩ := Scope.mk.inj hs
  exact (applied_eq_ok hd (by simpa [hi] using hne) (hi ▸ ha) hp).trans rfl

/-- What the identifier tells of a grant whose objects it records: no grant option where there are no
privileges. -/
def told (g : Grant) : Grant :=
  { g with withGrantOption := g.withGrantOption && !g.idPrivileges.isEmpty }

/-- A grant that a resource declares is read from what gets its identifier, up to the grant option. -/
theorem applied_of_given (h : ofResource r false = .ok g) (hn : g.objects ≠ [""]) (hi : r'.id = g.id)
    (hd : ofResource r' false = .ok g') (hs : g'.scope = g.scope) : applied r' = .ok g.told := by
  have reads := read_id (sound_of_declared h).1.toUnmarked
  rw [(recorded_eq_iff h).mpr hn] at reads
  have hprivileges := PrivilegeSet.ofNames_sortNames_keywords (placed_of_declared h).1
  obtain ⟨role, database, kind, _, schema, _, _⟩ := g'
  obtain ⟨rfl, rfl, rfl, rfl⟩ := Scope.mk.inj hs
  exact applied_eq_ok hd (by simpa [hi] using g.id_ne_empty) (hi ▸ reads) hprivileges

theorem isMet_told (g : Grant) (a : Acl) : g.told.isMet a = g.isMet a := by
  have declared : g.told.declaration = g.declaration := by
    unfold declaration told
    cases he : g.privileges.isEmpty with
    | false =>
      have hp : g.idPrivileges.isEmpty = false := by
        simpa [idPrivileges] using idPrivileges_ne_nil he
      simp [hp]
    | true => simp [PrivilegeSet.isEmpty_iff.mp he]
  rw [isMet, isMet, declared]

/-- Grants on one scope differ in nothing but their privileges, objects and grant option. -/
theorem eq_of_scope (h : g'.scope = g.scope) : g' = { g with
    privileges := g'.privileges, objects := g'.objects, withGrantOption := g'.withGrantOption } := by
  obtain ⟨role, database, kind, _, schema, _, _⟩ := g
  obtain ⟨role', database', kind', _, schema', _, _⟩ := g'
  obtain ⟨rfl, rfl, rfl, rfl⟩ := Scope.mk.inj h
  rfl

theorem isPresent_congr {σ : Type} (h : g'.scope = g.scope) :
    (g'.isPresent c : Task σ Bool) = g.isPresent c := by
  rw [eq_of_scope h]
  rfl

/-- Whether an identifier tells no object beyond the target of the grant. -/
def Bounds (g : Grant) (id : String) : Prop :=
  ∀ a, GrantId.read id = .ok a →
    ∀ o, (a.objects = [] ∨ o ∈ a.objects) → g.objects = [] ∨ o ∈ g.objects

/-- The identifier of a grant on the object with the empty name tells every object. -/
theorem not_bounds_of_lone {b : Bool} (h : ofResource r b = .ok g) (hn : g.objects = [""]) :
    ¬g.Bounds g.id := by
  intro hb
  have reads := read_id (sound_of_declared h).1.toUnmarked
  have recorded : g.recorded = [] := (recorded_eq h).trans (if_pos hn)
  rcases hb _ reads "any" (.inl recorded) with ho | ho
  · rw [hn] at ho
    cases ho
  · rw [hn] at ho
    exact absurd (List.mem_singleton.mp ho) (by decide)

end Grant

namespace Snapshot

variable {w : Snapshot}

theorem hosts_congr (h : g'.scope = g.scope) : w.hosts c g' = w.hosts c g := by
  rw [Grant.eq_of_scope h]
  rfl

/-- Where something is gone, no more is asked than what exists. -/
theorem Permits.of_absent (h : w.Permits c g) (hs : g'.scope = g.scope)
    (hh : w.hosts c g = false) : w.Permits c g' := by
  have absent : w.hosts c g' = false := (hosts_congr hs).trans hh
  refine ⟨?_, fun h => ?_, fun h => ?_⟩
  · rw [hosts_congr hs, Grant.isPresent_congr hs]
    exact h.present
  · cases absent.symm.trans h
  · cases absent.symm.trans h

/-- The catalog is asked nothing about the grant option. -/
theorem Permits.told (h : w.Permits c g) : w.Permits c g.told := ⟨h.present, h.found, h.ordered⟩

theorem verdict_told (w : Snapshot) (c : Client) (g : Grant) :
    w.verdict c g.told = w.verdict c g := by
  have met : (fun e : Value × Acl => g.told.isMet e.2) = fun e => g.isMet e.2 :=
    funext fun e => g.isMet_told e.2
  unfold verdict
  rw [met]
  rfl

/-! ## The second verdict -/

/-- Whether a read forgets the target of the grant: no listed object is left, or the identifier that
the resource is given does not tell the one object, whose name is empty. -/
def Forgets (w : Snapshot) (c : Client) (g : Grant) (r : Resource) : Prop :=
  w.hosts c g = true ∧
    ((g.objects ≠ [] ∧ w.found c g = []) ∨ (r.id = "" ∧ g.objects = [""]))

theorem judge_of_absent (hh : w.hosts c g = false) (r : Resource) :
    w.judge c g r = r.setId "" :=
  if_neg (by simp [hh])

/-- Where everything exists, a resource without an identifier gets that of the grant, and then it is
cleared. -/
theorem judge_of_present (hh : w.hosts c g = true) (r : Resource) :
    w.judge c g r = (w.verdict c g).clear (g.identified r) := by
  rw [← judge_eq_clear (g.identified_id_ne r), judge, judge, if_pos hh, if_pos hh,
    Grant.identified_of_id (g.identified_id_ne r)]

theorem verdict_id_of_present (hh : w.hosts c g = true) : (w.verdict c g).id = true ↔
    g.objects ≠ [] ∧ w.found c g = [] := by
  rw [(w.verdict_iff c g).1, hh]
  simp

theorem judge_id_of_present (hh : w.hosts c g = true)
    (hf : ¬(g.objects ≠ [] ∧ w.found c g = [])) : (w.judge c g r).id = (g.identified r).id := by
  have kept : (w.verdict c g).id = false := by
    rwa [← Bool.not_eq_true, verdict_id_of_present hh]
  rw [judge_of_present hh, Verdict.id_clear, kept]
  rfl

/-- The identifier that a read leaves tells no object beyond the target, unless that was forgotten. -/
theorem bounds_judge (ha : Grant.applied r = .ok g) (hf : ¬w.Forgets c g r) :
    g.Bounds (w.judge c g r).id := by
  intro a hread
  cases hh : w.hosts c g with
  | false =>
    rw [judge_of_absent hh] at hread
    cases hread
  | true =>
    rw [judge_id_of_present hh fun h => hf ⟨hh, .inl h⟩] at hread
    by_cases hi : r.id = ""
    · rw [Grant.identified_of_no_id hi] at hread
      have declared : Grant.ofResource r false = .ok g := (Grant.applied_of_no_id hi).symm.trans ha
      have recorded := (Grant.recorded_eq_iff declared).mpr fun h => hf ⟨hh, .inr ⟨hi, h⟩⟩
      cases hread.symm.trans (Grant.read_id (Grant.sound_of_declared declared).1.toUnmarked)
      rw [recorded]
      exact fun _ ho => ho
    · rw [Grant.identified_of_id hi] at hread
      obtain ⟨_, _, _, _, _, _, recorded⟩ := Grant.declared_of_applied ha
      rw [(recorded a hread).1]
      exact fun _ ho => ho

/-- What a read has left is judged the same again, unless the target was forgotten. -/
theorem exists_judged_again (ha : Grant.applied r = .ok g) (hp : w.Permits c g)
    (hf : ¬w.Forgets c g r) : ∃ g', Grant.applied (w.judge c g r) = .ok g' ∧ w.Permits c g' ∧
      w.judge c g' (w.judge c g r) = w.judge c g r := by
  obtain ⟨g₀, hd, hs⟩ := Grant.declared_of_applied_scope ha
  cases hh : w.hosts c g with
  | false =>
    rw [judge_of_absent hh]
    refine ⟨g₀, (Grant.applied_of_no_id rfl).trans hd, hp.of_absent hs hh, ?_⟩
    exact judge_of_absent ((hosts_congr hs).trans hh) _
  | true =>
    have hid := judge_id_of_present (r := r) hh fun h => hf ⟨hh, .inl h⟩
    rw [judge_of_present hh] at hid ⊢
    have hne := hid ▸ g.identified_id_ne r
    obtain ⟨g', hd', hs'⟩ := Grant.declared_of_cleared
      ((g.ofResource_identified r false).trans hd) (w.verdict c g)
    by_cases hi : r.id = ""
    · rw [Grant.identified_of_no_id hi] at hid hne hd' ⊢
      have declared : Grant.ofResource r false = .ok g := (Grant.applied_of_no_id hi).symm.trans ha
      refine ⟨g.told, ?_, hp.told, ?_⟩
      · exact Grant.applied_of_given declared (fun h => hf ⟨hh, .inr ⟨hi, h⟩⟩) hid hd' (hs'.trans hs)
      · rw [judge_eq_clear hne, verdict_told, Verdict.clear_clear]
    · rw [Grant.identified_of_id hi] at hid hne hd' ⊢
      refine ⟨g, Grant.applied_of_same_id ha hi hid hd' (hs'.trans hs), hp, ?_⟩
      rw [judge_eq_clear hne, Verdict.clear_clear]

/-- Where none of the listed objects is left, what a read leaves is read as a grant on every object,
and it gets the identifier of that grant. -/
theorem judged_anew (ha : Grant.applied r = .ok g) (hh : w.hosts c g = true)
    (hn : g.objects ≠ []) (hf : w.found c g = []) (ha' : Grant.applied (w.judge c g r) = .ok g') :
    (w.judge c g r).id = "" ∧ g'.objects = [] ∧ (w.judge c g' (w.judge c g r)).id = g'.id := by
  obtain ⟨g₀, hd, hs⟩ := Grant.declared_of_applied_scope ha
  have hid : (w.judge c g r).id = "" := by
    rw [judge_of_present hh, Verdict.id_clear, if_pos ((verdict_id_of_present hh).mpr ⟨hn, hf⟩)]
  have objects : (w.judge c g r).get? "objects" = some (.list []) := by
    have differ : (w.verdict c g).objects = true := by
      refine (w.verdict_iff c g).2.1.mpr ⟨hh, hn, fun h => ?_⟩
      obtain ⟨o, ho⟩ := List.exists_mem_of_ne_nil _ hn
      rw [hf] at h
      exact absurd ((h _).mpr ⟨o, ho, rfl⟩) List.not_mem_nil
    rw [judge_of_present hh, Verdict.get?_clear, if_pos (.inl ⟨differ, rfl⟩)]
  rw [Grant.applied_of_no_id hid] at ha'
  have unlisted : g'.objects = [] := Grant.objects_of_declared ha' objects
  have present : w.hosts c g' = true := by
    obtain ⟨g'', hd', hs'⟩ := Grant.declared_of_cleared
      ((g.ofResource_identified r false).trans hd) (w.verdict c g)
    rw [← judge_of_present hh] at hd'
    cases ha'.symm.trans hd'
    rw [hosts_congr (hs'.trans hs), hh]
  refine ⟨hid, unlisted, ?_⟩
  rw [judge_id_of_present present fun h => h.1 unlisted, Grant.identified_of_no_id hid]
  rfl

end Snapshot

namespace Operation

/-- After a read that returns, a second one returns too and changes nothing, and the identifier tells no
object beyond the target of the grant that was applied or declared, if and only if the target was not
forgotten. -/
theorem read_again_iff {w : Snapshot} {s s₁ : Standing Resource} {d d₁ : String} {a : Value}
    (h : (readGrant.run c).run w.serve s d = ((.ok a, s₁), d₁)) :
    ∃ g, Grant.applied s.work = .ok g ∧
      (((∃ s₂ d₂, (readGrant.run c).run w.serve s₁ d₁ = ((.ok a, s₂), d₂) ∧ s₂.work = s₁.work) ∧
          g.Bounds s₁.work.id) ↔ ¬w.Forgets c g s.work) := by
  obtain ⟨rfl, hread⟩ := run_readGrant_iff.mp h
  obtain ⟨⟨g, ha, hp, hw⟩, v, hv, hs⟩ := Snapshot.of_run_read hread
  refine ⟨g, ha, ?_, fun hf => ?_⟩
  · rintro ⟨⟨s₂, d₂, h₂, hw₂⟩, hb⟩ ⟨hh, hf⟩
    by_cases hfound : g.objects ≠ [] ∧ w.found c g = []
    · -- the second read gives the resource an identifier
      obtain ⟨⟨g', ha', _, hw'⟩, _⟩ := Snapshot.of_run_read (run_readGrant_iff.mp h₂).2
      rw [hw] at ha' hw' hw₂
      obtain ⟨hid, _, hid'⟩ := Snapshot.judged_anew ha hh hfound.1 hfound.2 ha'
      rw [← hw', hw₂, hid] at hid'
      exact g'.id_ne_empty hid'.symm
    · -- the first read gives it one that tells every object
      obtain ⟨hi, hlone⟩ := hf.resolve_left hfound
      have declared := (Grant.applied_of_no_id hi).symm.trans ha
      rw [hw, Snapshot.judge_id_of_present hh hfound, Grant.identified_of_no_id hi] at hb
      exact Grant.not_bounds_of_lone declared hlone hb
  · obtain ⟨g', ha', hp', hj⟩ := Snapshot.exists_judged_again ha hp hf
    rw [← hw] at ha' hj
    obtain ⟨s₂, d₂, h₂, hw₂⟩ := hp'.run_read ha' hv hs d₁
    refine ⟨⟨s₂, d₂, run_readGrant_iff.mpr ⟨rfl, h₂⟩, hw₂.trans hj⟩, ?_⟩
    rw [hw]
    exact Snapshot.bounds_judge ha hf

/-- A table that is left is compared with what was applied however often it is read. -/
theorem read_again_iff_oneTable : ∃ s₁ d₁, (readGrant.run .admin).run oneTable.serve
    ⟨{ version := some .assumed }, staleTables⟩ "" = ((.ok .null, s₁), d₁) ∧
      ∃ s₂ d₂, (readGrant.run .admin).run oneTable.serve s₁ d₁ = ((.ok .null, s₂), d₂) ∧
        s₂.work = s₁.work := by
  obtain ⟨s₁, d₁, returned⟩ := returned_oneTable
  obtain ⟨g, ha, hiff⟩ := read_again_iff returned
  cases ha.symm.trans applied_staleTables
  refine ⟨s₁, d₁, returned, (hiff.mpr ?_).1⟩
  rintro ⟨_, ⟨_, hn⟩ | ⟨hi, _⟩⟩
  · cases found_oneTable.symm.trans hn
  · exact (publicGrant ["", "b"]).id_ne_empty hi

/-! ## A table that is gone -/

/-- A catalog without tables. -/
def noTable : Snapshot where
  answer _ q := q.granted

/-- A grant on one table, as it was applied. -/
def oneTableGrant : Resource where
  id := "app.alice:table:s:a:SELECT"
  values := [("role", .text "alice"), ("database", .text "app"), ("object_type", .text "table"),
    ("schema", .text "s"), ("objects", .list [.text "a"]), ("privileges", .list [.text "SELECT"])]

/-- The grant on every table that is left once the table is gone. -/
def everyTable : Grant := ⟨"alice", "app", .table, ∅ ∪ .ofList [.select], "s", [], false⟩

theorem applied_oneTableGrant :
    Grant.applied oneTableGrant = .ok { everyTable with objects := ["a"] } := rfl

/-- What a read of it leaves. -/
theorem applied_judged_oneTableGrant : Grant.applied
    (noTable.judge .admin { everyTable with objects := ["a"] } oneTableGrant) = .ok everyTable := by
  have hsort : sortNames [] = [] := List.mergeSort_nil
  rw [everyTable, ← hsort]
  rfl

theorem permits_noTable {objects : List String} (h : objects = ["a"] ∨ objects = []) :
    noTable.Permits .admin { everyTable with objects } := by
  have returned : ∃ s' d', (Grant.refresh .admin { everyTable with objects }).run noTable.serve
      ⟨{}, oneTableGrant⟩ "" = ((.ok (), s'), d') := by
    rcases h with rfl | rfl
    · exact ⟨_, _, rfl⟩
    · exact ⟨_, _, rfl⟩
  obtain ⟨_, _, h⟩ := returned
  exact Snapshot.permits_of_run_refresh h

/-- The first read of a grant on a table that is gone clears the identifier, and the second one gives
the resource that of a grant on every table. -/
theorem gone_table_regains_id : ∃ s₁ d₁ s₂ d₂,
    (readGrant.run .admin).run noTable.serve ⟨{ version := some .assumed }, oneTableGrant⟩ "" =
      ((.ok .null, s₁), d₁) ∧
    (readGrant.run .admin).run noTable.serve s₁ d₁ = ((.ok .null, s₂), d₂) ∧
    s₁.work.id = "" ∧ s₂.work.id = everyTable.id := by
  obtain ⟨s₁, d₁, h₁, hw₁⟩ := (permits_noTable (.inl rfl)).run_read (v := .assumed)
    (s := ⟨{ version := some .assumed }, oneTableGrant⟩) applied_oneTableGrant rfl rfl ""
  obtain ⟨_, v, hv, hs⟩ := Snapshot.of_run_read h₁
  have applied : Grant.applied s₁.work = .ok everyTable := hw₁ ▸ applied_judged_oneTableGrant
  obtain ⟨s₂, d₂, h₂, hw₂⟩ := (permits_noTable (.inr rfl)).run_read applied hv hs d₁
  refine ⟨s₁, d₁, s₂, d₂, run_readGrant_iff.mpr ⟨rfl, h₁⟩, run_readGrant_iff.mpr ⟨rfl, h₂⟩, ?_, ?_⟩
  · rw [hw₁]
    rfl
  · rw [hw₂, hw₁]
    rfl

end Operation

end DeclaredAccess
