import DeclaredAccess.Proofs.Catalog.Namesakes
import DeclaredAccess.Proofs.Grant.History
import DeclaredAccess.Proofs.Grant.Judged
import DeclaredAccess.Proofs.Operation.Failure
import DeclaredAccess.Proofs.Schema.Settled
import DeclaredAccess.Proofs.Session.Throughout

/-! What a read of a grant finds out about objects that share their names. It asks once what the role
holds, and compares the entries of the answer with the grant. There is one entry for each name; so
the privileges stay as they are exactly if, under each name, the role holds on the objects together
what was applied. That tells about each object only where no two of them have one name. -/

namespace DeclaredAccess

open DeclaredAccess.Task (Goes Spares Throughout goes_bind_ok goes_execute_ofExcept goes_locked_sent
  goes_ofExcept_bind_ok goes_transaction_sent goes_work_bind)

variable {σ : Type} {c : Client} {g : Grant} {t : List Exchange} {role : String} {target : Target}
  {rows : List Row}

/-- Where what the role holds is asked and answered, the answer decides what is returned. -/
theorem Catalog.objectPrivileges_of_answered {s s' : Standing σ} {r : Except Failure Holdings}
    (h : Goes (Catalog.objectPrivileges role target) s t r s') {role' : String} {target' : Target}
    (hq : ⟨.execute (.query (.objectPrivileges role' target')), .ok rows⟩ ∈ t) :
    role' = role ∧ target' = target ∧ r = (Holdings.ofRows role rows).mapError Failure.of := by
  obtain ⟨_, ⟨_, rfl, _⟩ | ⟨a, rfl, hr⟩⟩ := goes_execute_ofExcept h
  · cases hq
  · cases List.mem_singleton.mp hq
    exact ⟨rfl, rfl, hr⟩

namespace Grant

/-- Whether the exchange is about something else than what a role holds on objects. -/
def Elsewhere (y : Exchange) : Prop :=
  ∀ role target, y.request ≠ .execute (.query (.objectPrivileges role target))

theorem elsewhere_of_connecting {q : Request} (h : q.isConnecting = true) (b : q.Answer) :
    Elsewhere ⟨q, b⟩ := by
  intro role target he
  cases he
  cases h

theorem elsewhere_mark (m : Marker) (b : Except DriverError Unit) : Elsewhere ⟨.mark m, b⟩ := by
  intro role target he
  cases he

theorem elsewhere_transaction (c : Client) (name : String) {x : Task σ α}
    (hx : Throughout Elsewhere x) : Throughout Elsewhere (c.transaction name x) :=
  Throughout.stepwise.transaction (fun _ => elsewhere_of_connecting)
    (fun m _ => elsewhere_mark m) c name hx

/-- To look whether everything exists, nothing is asked about privileges. -/
theorem elsewhere_isPresent (c : Client) (g : Grant) :
    Throughout Elsewhere (g.isPresent c : Task σ Bool) := by
  have asks {q : Sql.Query} (hq : ∀ role target, q ≠ .objectPrivileges role target) (intent : String) :
      Throughout Elsewhere (Catalog.askOne q intent : Task σ Value) :=
    Throughout.stepwise.askOne (fun _ role target h => hq role target (by cases h; rfl)) intent
  have database : Throughout Elsewhere (do
      return (← Catalog.databaseExists g.database).truthy : Task σ Bool) :=
    .bind (asks (fun _ _ h => by cases h) _) fun _ => .pure _
  have findsRole : Throughout Elsewhere (g.findsRole : Task σ Bool) := by
    unfold Grant.findsRole
    split
    · refine .bind (asks (fun _ _ h => by cases h) _) fun there => ?_
      split
      · exact .pure _
      · exact database
    · exact database
  have findsSchema : Throughout Elsewhere (g.findsSchema : Task σ Bool) :=
    .bind (asks (fun _ _ h => by cases h) _) fun _ => .pure _
  refine .bind (elsewhere_transaction c _ findsRole) fun found => ?_
  split
  · exact .pure _
  · split
    · exact .pure _
    · exact elsewhere_transaction c _ findsSchema

variable {s s' : Standing Resource}

/-- A comparison with the catalog that returns has used the one answer it got. -/
theorem settle_of_refresh (h : Goes (g.refresh c) s t (.ok ()) s')
    (hq : ⟨.execute (.query (.objectPrivileges role target)), .ok rows⟩ ∈ t) :
    role = g.role ∧ target = g.target ∧ ∃ found, Holdings.ofRows role rows = .ok found ∧
      s'.work = g.settle found (g.identified s.work) := by
  rcases goes_refresh h with ⟨_, hr, _⟩ | ⟨_, _, _, h₁⟩ | ⟨u, v, _, rfl, h₁, hend⟩
  · cases hr
  · exact absurd rfl (elsewhere_isPresent c g _ _ _ _ h₁ _ hq role target)
  · obtain ⟨_, hr, _⟩ | ⟨found, s₂, s₃, -, hw, h₂⟩ := hend
    · cases hr
    have later : ⟨.execute (.query (.objectPrivileges role target)), .ok rows⟩ ∈ v :=
      (List.mem_append.mp hq).resolve_left fun hq =>
        elsewhere_isPresent c g _ _ _ _ h₁ _ hq role target rfl
    obtain ⟨_, x, _, hx, inside⟩ := goes_transaction_sent h₂ later ⟨_, rfl⟩
    obtain ⟨rfl, rfl, hr⟩ := Catalog.objectPrivileges_of_answered hx inside
    refine ⟨rfl, rfl, found, ?_, hw⟩
    cases hrows : Holdings.ofRows g.role rows with
    | ok held =>
      rw [hrows] at hr
      cases hr
      rfl
    | error e =>
      rw [hrows] at hr
      cases hr

/-- A read that returns has used the one answer it got, for the grant as it was last applied. -/
theorem settle_of_read {v : Value} (h : Goes (Operation.readGrant.run c) s t (.ok v) s')
    (hq : ⟨.execute (.query (.objectPrivileges role target)), .ok rows⟩ ∈ t) :
    ∃ g found, applied s.work = .ok g ∧ role = g.role ∧ target = g.target ∧
      Holdings.ofRows role rows = .ok found ∧ s'.work = g.settle found (g.identified s.work) := by
  obtain ⟨t₁, t₂, _, s₁, rfl, h₁, h₂⟩ := goes_bind_ok.mp (Operation.goes_quiet_ok h)
  obtain ⟨g, ha, h₃⟩ := goes_ofExcept_bind_ok.mp (goes_work_bind.mp h₂)
  have required : Throughout Elsewhere (c.require .privileges resourceName : Task Resource Unit) :=
    Throughout.stepwise.require (fun _ => elsewhere_of_connecting) c _ _
  have later : ⟨.execute (.query (.objectPrivileges role target)), .ok rows⟩ ∈ t₂ :=
    (List.mem_append.mp hq).resolve_left fun hq => required _ _ _ _ h₁ _ hq role target rfl
  obtain ⟨u, h₄, inside⟩ := goes_locked_sent h₃ later ⟨_, rfl⟩
  obtain ⟨hrole, htarget, found, hfound, hw⟩ := settle_of_refresh h₄ inside
  rw [Spares.require _ _ _ _ _ _ _ h₁] at ha hw
  exact ⟨g, found, ha, hrole, htarget, hfound, hw⟩

/-- Privileges that are not cleared yet stay exactly if every entry is what was applied. -/
theorem settle_keeps_privileges_iff {found : Holdings} {r : Resource}
    (hr : r.get? "privileges" ≠ some (.list [])) :
    (g.settle found (g.identified r)).get? "privileges" = r.get? "privileges" ↔
      ∀ e ∈ found, e.2.holding = g.declaration.holding := by
  have met (e : Value × Acl) : g.isMet e.2 = true ↔ e.2.holding = g.declaration.holding := by
    rw [isMet_iff, Holding.ext_iff]
    rfl
  have objects (r : Resource) : (if g.objectsDiffer found then r.put "objects" (.list []) else r).get?
      "privileges" = r.get? "privileges" := by
    split
    · exact Resource.get?_put_of_ne (by decide)
    · rfl
  have identified : (g.identified r).get? "privileges" = r.get? "privileges" := by
    unfold identified
    split <;> rfl
  have settled : (g.settle found (g.identified r)).get? "privileges" =
      if (found.all fun e => g.isMet e.2) then r.get? "privileges" else some (.list []) := by
    unfold settle
    dsimp only
    split <;> split
    · exact (objects _).trans identified
    · exact Resource.get?_put Value.noConfusion
    · exact (objects _).trans identified
    · exact Resource.get?_put Value.noConfusion
  simp only [← met, ← List.all_eq_true]
  rw [settled]
  split
  · exact iff_of_true rfl ‹_›
  · exact iff_of_false (fun h => hr h.symm) ‹_›

end Grant

open HeldObject (together)

namespace Operation

/-- Whatever a server says about objects, in any order: it is read, and there is one entry for each
name that occurs, with what is held on the objects of that name together. A read that got this answer
keeps privileges that are not cleared yet exactly if, under each name, that is what was applied; where
no two objects have one name, exactly if that is held on every object. -/
theorem read_keeps_privileges_iff {objects : List HeldObject} {answer : List Row}
    (ha : answer.Perm (HeldObject.rows objects)) (role : String) (target : Target) :
    (∃ found : Holdings, found.names.Nodup ∧
      (∀ v, v ∈ found.names ↔ ∃ o ∈ objects, v = .text o.name) ∧
      (∀ e ∈ found, ∃ o ∈ objects, e.1 = .text o.name ∧ e.2.holding = together objects o.name) ∧
      ∀ (s s' : Standing Resource) (t : List Exchange) (r : Except Failure Holdings),
        Goes (Catalog.objectPrivileges role target) s t r s' →
        ⟨.execute (.query (.objectPrivileges role target)), .ok answer⟩ ∈ t → r = .ok found) ∧
    ∀ (c : Client) (s s' : Standing Resource) (t : List Exchange) (v : Value),
      Goes (readGrant.run c) s t (.ok v) s' →
      ⟨.execute (.query (.objectPrivileges role target)), .ok answer⟩ ∈ t →
      ∃ g, Grant.applied s.work = .ok g ∧ role = g.role ∧ target = g.target ∧
        (s.work.get? "privileges" ≠ some (.list []) →
          (s'.work.get? "privileges" = s.work.get? "privileges" ↔
            ∀ o ∈ objects, together objects o.name = g.declaration.holding) ∧
          ((objects.map HeldObject.name).Nodup →
            (s'.work.get? "privileges" = s.work.get? "privileges" ↔
              ∀ o ∈ objects, o.held = g.declaration.holding))) := by
  obtain ⟨found, hfound, hnodup, hnames, hheld⟩ := HeldObject.ofRows_of_perm role ha
  refine ⟨⟨found, hnodup, hnames, hheld, fun s s' t r h hq => ?_⟩, fun c s s' t v h hq => ?_⟩
  · obtain ⟨_, _, hr⟩ := Catalog.objectPrivileges_of_answered h hq
    rw [hr, hfound]
    rfl
  · obtain ⟨g, found', happlied, rfl, rfl, hfound', hw⟩ := Grant.settle_of_read h hq
    cases hfound.symm.trans hfound'
    refine ⟨g, happlied, rfl, rfl, fun hp => ?_⟩
    have kept : s'.work.get? "privileges" = s.work.get? "privileges" ↔
        ∀ o ∈ objects, together objects o.name = g.declaration.holding := by
      rw [hw, Grant.settle_keeps_privileges_iff hp]
      constructor
      · intro h o ho
        obtain ⟨e, he, hname⟩ := List.mem_map.mp ((hnames (.text o.name)).mpr ⟨o, ho, rfl⟩)
        obtain ⟨o', _, hname', hheld'⟩ := hheld e he
        have same : o.name = o'.name := Value.text.inj (hname.symm.trans hname')
        rw [same, ← hheld', h e he]
      · intro h e he
        obtain ⟨o, ho, _, hheld'⟩ := hheld e he
        rw [hheld', h o ho]
    refine ⟨kept, fun hn => kept.trans (forall₂_congr fun o ho => ?_)⟩
    rw [HeldObject.together_of_nodup hn ho]

/-! ## Two functions of one name -/

/-- Two functions that have the same name; `alice` may execute one of them. -/
def overloads : List HeldObject :=
  [⟨"f", ⟨.ofList [.execute], ∅⟩, by decide⟩, ⟨"f", ∅, by decide⟩]

/-- A grant to `alice` on all functions of a schema. -/
def functionsGrant : Standing Resource where
  session := { version := some .assumed, engines := [("app", 0)], engineCount := 1 }
  work := {
    id := "app.alice:function:s::EXECUTE"
    values := [("role", .text "alice"), ("database", .text "app"),
      ("object_type", .text "function"), ("schema", .text "s"),
      ("privileges", .list [.text "EXECUTE"])] }

/-- All functions of the schema. -/
def functions : Target := { kind := .function, schema := "s" }

/-- A server on which everything exists, with the two functions. -/
def overloadsAnswer : (q : Request) → q.Answer
  | .execute (.query (.objectPrivileges ..)) => .ok (HeldObject.rows overloads)
  | q => q.granted

def lookingForFunctions : List Exchange :=
  [⟨.execute (.query (.objectPrivileges "alice" functions)), .ok (HeldObject.rows overloads)⟩]

/-- What is asked and answered when the grant is read. -/
def readingFunctions : List Exchange :=
  ⟨.acquire .read, ()⟩ :: (transactionOn lookingForRole .rollback ++
    (transactionOn lookingForSchema .rollback ++
      (transactionOn lookingForFunctions .rollback ++ [⟨.release .read, ()⟩])))

unseal List.mergeSort in
theorem goes_readingFunctions : Goes (readGrant.run .admin) functionsGrant readingFunctions
    (.ok .null) functionsGrant :=
  Task.goes_exchanges overloadsAnswer _ _

theorem asked_readingFunctions :
    ⟨.execute (.query (.objectPrivileges "alice" functions)), .ok (HeldObject.rows overloads)⟩ ∈
      readingFunctions := by
  simp [readingFunctions, transactionOn, lookingForFunctions]

unseal List.mergeSort in
theorem applied_functionsGrant : Grant.applied functionsGrant.work = .ok
    { role := "alice", database := "app", kind := .function, privileges := ∅ ∪ .ofList [.execute],
      schema := "s" } := rfl

theorem declares_functionsGrant :
    functionsGrant.work.get? "privileges" ≠ some (.list []) := by
  intro h
  cases h

/-- The privileges stay, since under the one name there is what was applied. -/
theorem read_keeps_privileges_iff_overloads : ∃ s' g,
    Goes (readGrant.run .admin) functionsGrant readingFunctions (.ok .null) s' ∧
      Grant.applied functionsGrant.work = .ok g ∧
      together overloads "f" = g.declaration.holding := by
  obtain ⟨g, ha, _, _, h⟩ := (read_keeps_privileges_iff (List.Perm.refl _) "alice" functions).2
    _ _ _ _ _ goes_readingFunctions asked_readingFunctions
  exact ⟨_, g, goes_readingFunctions, ha,
    (h declares_functionsGrant).1.mp rfl ⟨"f", ∅, by decide⟩ (by simp [overloads])⟩

/-- A read that keeps privileges may have missed an object on which less is held. -/
theorem missed_overload : ¬∀ (objects : List HeldObject) (answer : List Row) (role : String)
    (target : Target) (c : Client) (s s' : Standing Resource) (t : List Exchange) (v : Value)
    (g : Grant), answer.Perm (HeldObject.rows objects) → Goes (readGrant.run c) s t (.ok v) s' →
    ⟨.execute (.query (.objectPrivileges role target)), .ok answer⟩ ∈ t →
    Grant.applied s.work = .ok g → s.work.get? "privileges" ≠ some (.list []) →
    s'.work.get? "privileges" = s.work.get? "privileges" →
    ∀ o ∈ objects, o.held = g.declaration.holding := by
  intro h
  have held := h overloads _ "alice" functions _ _ _ _ _ _ (List.Perm.refl _) goes_readingFunctions
    asked_readingFunctions applied_functionsGrant declares_functionsGrant rfl ⟨"f", ∅, by decide⟩
    (by simp [overloads])
  exact absurd held (by decide)

end Operation

end DeclaredAccess
