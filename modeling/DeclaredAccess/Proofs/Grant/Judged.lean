import DeclaredAccess.Proofs.Grant.Found
import DeclaredAccess.Proofs.Grant.Recovery
import DeclaredAccess.Proofs.Session.Transcript

/-! What a read clears of a grant's resource. The grant is known from the identifier, so the verdict
is one of the grant and of the catalog: it is the same for every resource that carries the identifier,
whatever the resource says by now about objects, privileges and grant option. -/

namespace DeclaredAccess

variable {c : Client} {g : Grant} {r : Resource}

namespace Value

theorem beq_text_iff {v : Value} {s : String} : (v == text s) = true ↔ v = text s := by
  cases v <;> simp [BEq.beq, same, sameNumber, quotient?]

theorem text_beq_iff {v : Value} {s : String} : (text s == v) = true ↔ v = text s := by
  cases v <;> simp [BEq.beq, same, sameNumber, quotient?, eq_comm]

end Value

/-- What a read clears: the identifier, the objects, the privileges. -/
structure Verdict where
  id : Bool
  objects : Bool
  privileges : Bool

/-- The resource without what is cleared. -/
def Verdict.clear (v : Verdict) (r : Resource) : Resource :=
  let r := if v.objects then r.put "objects" (.list []) else r
  let r := if v.privileges then r.put "privileges" (.list []) else r
  if v.id then r.setId "" else r

namespace Grant

/-- The objects found differ from the listed ones as sets. -/
theorem objectsDiffer_iff {found : Holdings} : g.objectsDiffer found = true ↔
    g.objects ≠ [] ∧ ¬∀ n, n ∈ found.names ↔ ∃ o ∈ g.objects, n = .text o := by
  have within : found.names.all ((g.objects.map Value.text).contains ·) = true ↔
      ∀ n ∈ found.names, ∃ o ∈ g.objects, n = .text o := by
    simp [List.contains_eq_any_beq, Value.beq_text_iff]
  have covered : (g.objects.map Value.text).all (found.names.contains ·) = true ↔
      ∀ n, (∃ o ∈ g.objects, n = .text o) → n ∈ found.names := by
    simp only [List.all_map, List.all_eq_true, Function.comp_apply, List.contains_eq_any_beq,
      List.any_eq_true, Value.text_beq_iff, exists_eq_right]
    exact ⟨fun h n ⟨o, ho, hn⟩ => hn ▸ h o ho, fun h o ho => h _ ⟨o, ho, rfl⟩⟩
  rw [objectsDiffer, Bool.and_eq_true, Bool.not_eq_true', Bool.not_eq_true', ← Bool.not_eq_true,
    ← Bool.not_eq_true, Bool.and_eq_true, within, covered]
  refine and_congr (by simp) (not_congr ?_)
  exact ⟨fun h n => ⟨h.1 n, h.2 n⟩, fun h => ⟨fun n => (h n).mp, fun n => (h n).mpr⟩⟩

theorem identified_of_no_id (h : r.id = "") : g.identified r = r.setId g.id :=
  if_pos (by simpa using h)

theorem identified_of_id (h : r.id ≠ "") : g.identified r = r := if_neg (by simpa using h)

theorem identified_id_ne (g : Grant) (r : Resource) : (g.identified r).id ≠ "" := by
  by_cases h : r.id = ""
  · rw [identified_of_no_id h]
    exact g.id_ne_empty
  · rwa [identified_of_id h]

theorem isMet_iff {a : Acl} : g.isMet a = true ↔ a.privileges = g.privileges ∧
    a.grantOptions = if g.withGrantOption then g.privileges else ∅ := by
  unfold isMet
  rw [Bool.and_eq_true, beq_iff_eq, beq_iff_eq]
  rfl

end Grant

namespace Snapshot

variable {w : Snapshot}

/-- The verdict on a grant. -/
def verdict (w : Snapshot) (c : Client) (g : Grant) : Verdict where
  id := !w.hosts c g || (!g.objects.isEmpty && (w.found c g).isEmpty)
  objects := w.hosts c g && g.objectsDiffer (w.found c g)
  privileges := w.hosts c g && !(w.found c g).all fun e => g.isMet e.2

/-- The identifier goes where something is gone; each of the other fields where it differs. -/
theorem verdict_iff (w : Snapshot) (c : Client) (g : Grant) :
    ((w.verdict c g).id = true ↔
      w.hosts c g = false ∨ (g.objects ≠ [] ∧ w.found c g = [])) ∧
    ((w.verdict c g).objects = true ↔ w.hosts c g = true ∧ g.objects ≠ [] ∧
      ¬∀ n, n ∈ (w.found c g).names ↔ ∃ o ∈ g.objects, n = .text o) ∧
    ((w.verdict c g).privileges = true ↔ w.hosts c g = true ∧ ∃ e ∈ w.found c g,
      e.2.privileges ≠ g.privileges ∨
        e.2.grantOptions ≠ if g.withGrantOption then g.privileges else ∅) := by
  refine ⟨?_, ?_, ?_⟩
  · simp [verdict]
  · rw [verdict, Bool.and_eq_true, Grant.objectsDiffer_iff]
  · have unmet (e : Value × Acl) : ¬g.isMet e.2 = true ↔ e.2.privileges ≠ g.privileges ∨
        e.2.grantOptions ≠ if g.withGrantOption then g.privileges else ∅ := by
      rw [Grant.isMet_iff, Classical.not_and_iff_not_or_not]
    simp only [verdict, Bool.and_eq_true, Bool.not_eq_true', ← Bool.not_eq_true, List.all_eq_true,
      Classical.not_forall, exists_prop, unmet]

/-- A comparison clears what the verdict says where the resource has an identifier. -/
theorem judge_eq_clear (hi : r.id ≠ "") : w.judge c g r = (w.verdict c g).clear r := by
  rw [judge, Grant.identified_of_id hi]
  cases hh : w.hosts c g with
  | false => simp [verdict, Verdict.clear, hh]
  | true =>
    cases hp : (w.found c g).all fun e => g.isMet e.2 <;>
      simp [verdict, Verdict.clear, Grant.settle, hh, hp]

end Snapshot

namespace Operation

/-- A read that returns clears the identifier exactly if the role, the database or the schema is gone
or none of the listed objects is left, the objects exactly if those that are found are not those that
are listed, and the privileges exactly if on some object the role holds other ones; nothing else
changes. All resources that carry the identifier of the grant share the verdict. -/
theorem read_clears_iff (h : Grant.ofResource r = .ok g) (hn : g.objects ≠ [""])
    (w : Snapshot) (c : Client) : ∃ v : Verdict,
      (v.id = true ↔ w.hosts c g = false ∨ (g.objects ≠ [] ∧ w.found c g = [])) ∧
      (v.objects = true ↔ w.hosts c g = true ∧ g.objects ≠ [] ∧
        ¬∀ n, n ∈ (w.found c g).names ↔ ∃ o ∈ g.objects, n = .text o) ∧
      (v.privileges = true ↔ w.hosts c g = true ∧ ∃ e ∈ w.found c g,
        e.2.privileges ≠ g.privileges ∨
          e.2.grantOptions ≠ if g.withGrantOption then g.privileges else ∅) ∧
      ∀ (s s' : Standing Resource) (d d' : String) (a : Value), g.CarriedBy s.work →
        (readGrant.run c).run w.serve s d = ((.ok a, s'), d') → s'.work = v.clear s.work := by
  obtain ⟨hid, hobjects, hprivileges⟩ := w.verdict_iff c g
  refine ⟨w.verdict c g, hid, hobjects, hprivileges, fun s s' d d' a hc hr => ?_⟩
  obtain ⟨⟨g', ha, _, hw⟩, _⟩ := Snapshot.of_run_read (run_readGrant_iff.mp hr).2
  obtain ⟨hi, g₀, hd, hs⟩ := hc
  have applied : Grant.applied s.work = .ok { g with objects := g.recorded } :=
    Grant.applied_of_scope h hi hd hs
  rw [(Grant.recorded_eq_iff h).mpr hn] at applied
  cases ha.symm.trans applied
  rw [hw]
  exact Snapshot.judge_eq_clear (by rw [hi]; exact g.id_ne_empty)

/-! ## Tables that drifted -/

/-- A catalog with one table, on which everybody may select. -/
def oneTable : Snapshot where
  answer _ q := match q with
    | .execute (.query (.objectPrivileges ..)) => .ok [[.text "b", .text "SELECT", .bool false]]
    | q => q.granted

/-- Fields that have changed since the identifier was given. -/
def staleTables : Resource :=
  publicTables (publicGrant ["", "b"]).id [.text "x"] [.text "select"] false

theorem carriedBy_staleTables : (publicGrant ["", "b"]).CarriedBy staleTables :=
  ⟨rfl, ⟨"", "app", .table, ∅ ∪ .ofList [.select], "s.*", sortNames ["x"], false⟩, rfl, rfl⟩

theorem permits_oneTable : oneTable.Permits .admin (publicGrant ["", "b"]) := by
  have returned : ∃ s' d', (Grant.refresh .admin (publicGrant ["", "b"])).run oneTable.serve
      ⟨{}, staleTables⟩ "" = ((.ok (), s'), d') := ⟨_, _, rfl⟩
  obtain ⟨_, _, h⟩ := returned
  exact Snapshot.permits_of_run_refresh h

theorem applied_staleTables : Grant.applied staleTables = .ok (publicGrant ["", "b"]) := by
  obtain ⟨hi, g', hd, hs⟩ := carriedBy_staleTables
  have hrecorded := Grant.recorded_eq ofResource_publicTables_two
  rw [Grant.applied_of_scope ofResource_publicTables_two hi hd hs, hrecorded]
  rfl

theorem found_oneTable : oneTable.found .admin (publicGrant ["", "b"]) =
    [(.text "b", Acl.Entry.ofHoldings "" [(.select, false)] "")] := rfl

theorem returned_oneTable : ∃ s' d', (readGrant.run .admin).run oneTable.serve
    ⟨{ version := some .assumed }, staleTables⟩ "" = ((.ok .null, s'), d') := by
  obtain ⟨s', d', hr, _⟩ := permits_oneTable.run_read (v := .assumed)
    (s := ⟨{ version := some .assumed }, staleTables⟩) applied_staleTables rfl rfl ""
  exact ⟨s', d', run_readGrant_iff.mpr ⟨rfl, hr⟩⟩

/-- Of two tables one is left, on which less is held; so both fields are cleared, and the identifier
stays. -/
theorem read_clears_iff_oneTable : ∃ s' d', (readGrant.run .admin).run oneTable.serve
    ⟨{ version := some .assumed }, staleTables⟩ "" = ((.ok .null, s'), d') ∧
      s'.work = Verdict.clear ⟨false, true, true⟩ staleTables := by
  obtain ⟨⟨id, objects, privileges⟩, hid, hobjects, hprivileges, hread⟩ :=
    read_clears_iff ofResource_publicTables_two (by decide) oneTable .admin
  obtain ⟨s', d', returned⟩ := returned_oneTable
  rw [found_oneTable] at hid hobjects hprivileges
  obtain rfl : id = false := by
    refine (Bool.not_eq_true _).mp fun h => ?_
    rcases hid.mp h with h | ⟨_, h⟩ <;> cases h
  obtain rfl : objects = true := by
    refine hobjects.mpr ⟨rfl, by decide, fun h => ?_⟩
    have unnamed : Value.text "" ∈ [Value.text "b"] := (h _).mpr ⟨"", by decide, rfl⟩
    simp at unnamed
  obtain rfl : privileges = true :=
    hprivileges.mpr ⟨rfl, _, List.mem_singleton_self _, .inl (by decide)⟩
  exact ⟨s', d', returned, hread _ _ _ _ _ carriedBy_staleTables returned⟩

end Operation

end DeclaredAccess
