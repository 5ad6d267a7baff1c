import DeclaredAccess.Proofs.Grant.Enclosed
import DeclaredAccess.Proofs.Grant.History

/-! What the removal of a grant leaves behind. One revoke names all the objects that the grant was
applied to, so it takes all of them or none: where one of them is gone it is refused as a whole. The
removal takes that for a sign that nothing is left, clears the identifier and returns, and what the
role holds on the objects that are still there stays. The same happens where anything else is said
to be missing. In every other case a removal that returns has left nothing. -/

namespace DeclaredAccess

open DeclaredAccess.Task (Goes)
open Ledger (Follows)

variable {site : Site} {c : Client} {p : Scope} {k k' : Ledger} {t : List Exchange}
  {s s' : Standing Resource} {g : Grant}

namespace Site

variable (site)

/-- Whether there is what privileges in a scope are held on under a name. -/
def Extant (p : Scope) (o : String) : Prop := match p.kind with
  | .database => site.databases p.database
  | .schema => site.schemas p.database p.schema
  | kind => site.schemas p.database p.schema ∧ o ∈ site.objects p.database kind p.schema

/-- Privileges are held only by a role that exists, and only on what exists. -/
def Backs (p : Scope) (held : String → Prop) : Prop :=
  ∀ o, held o → (p.role = "" ∨ site.roles p.role) ∧ site.Extant p o

/-- A revoke over a connection succeeds only where everything that it names is there, and is told
that something is missing only where something is. -/
def Judges (connection : String) : Exchange → Prop
  | ⟨.execute (.change (.revokeAll t role)), .ok _⟩ =>
    site.Finds connection (.revokeAll t role)
  | ⟨.execute (.change (.revokeAll t role)), .error e⟩ =>
    e.isMissing = true → ¬site.Finds connection (.revokeAll t role)
  | _ => True

variable {site}

theorem Extant.ne_empty {o : String} (hd : p.kind ≠ .database) (hk : p.kind ≠ .schema)
    (h : site.Extant p o) : o ≠ "" := by
  obtain ⟨role, database, kind, schema⟩ := p
  cases kind with
  | database => exact absurd rfl hd
  | schema => exact absurd rfl hk
  | _ => exact (site.isName_object _ _ _ o h.2).1

end Site

namespace Grant

/-- Where something is held in the scope, only listed objects can be missing. -/
theorem finds_revoke_iff (hs : g.scope = p) (hk : p.kind ≠ .schema) {held : String → Prop}
    (hb : site.Backs p held) {o : String} (ho : held o) :
    site.Finds g.database (.revokeAll g.target g.role) ↔
      ∀ o ∈ g.target.objects, site.Extant p o := by
  subst hs
  obtain ⟨hrole, hext⟩ := hb o ho
  have hrole : g.role = "" ∨ site.roles g.role := hrole
  show (g.role = "" ∨ site.roles g.role) ∧ site.Has g.database g.target ↔ _
  rw [and_iff_right hrole]
  by_cases hd : g.kind = .database
  · have hdatabase : site.databases g.database := by
      simpa [Site.Extant, scope, hd] using hext
    simp [target, hd, Site.Has, hdatabase]
  · rw [target_of_ne hd]
    obtain ⟨role, database, kind, privileges, schema, objects, option⟩ := g
    cases kind with
    | database => exact absurd rfl hd
    | schema => exact absurd rfl hk
    | _ =>
      have hschema : site.schemas database schema := hext.1
      exact ⟨fun h o ho => ⟨hschema, h.2 o ho⟩, fun h => ⟨hschema, fun o ho => (h o ho).2⟩⟩

/-! ## What an identifier recalls -/

variable {h : Grant}

theorem privileges_of_recalls (hg : g.Sound) (hn : g.privileges.isEmpty = false)
    (hr : h.Recalls g.id) : h.privileges.isEmpty = false :=
  (hr _ (read_id hg.toUnmarked)).2 (idPrivileges_ne_nil hn)

theorem target_objects_of_recalls (hg : g.Sound) (hs : h.scope = g.scope) (hr : h.Recalls g.id) :
    h.target.objects = g.recorded := by
  have hobjects : h.objects = g.recorded := (hr _ (read_id hg.toUnmarked)).1
  unfold target
  split
  · rename_i hd
    have hkind : h.kind = g.kind := congrArg Scope.kind hs
    have hnone : g.objects = [] := hg.unlisted (hkind ▸ hd)
    simp [recorded, hnone, sortNames]
  · exact hobjects

/-- An identifier records every object, unless the only one has an empty name. -/
theorem mem_recorded_of_ne {x o : String} (hx : g.objects = [] ∨ x ∈ g.objects) (hne : x ≠ "")
    (ho : o ∈ g.objects) : o ∈ g.recorded := by
  unfold recorded
  split
  · rename_i he
    rcases hx with hx | hx
    · rw [hx] at ho
      cases ho
    · have hm : x ∈ sortNames g.objects := mem_sortNames.mpr hx
      rw [he] at hm
      exact absurd (List.mem_singleton.mp hm) hne
  · exact mem_sortNames.mpr ho

/-- Where something that exists is held on the target of a grant, the objects of the target are
those that its identifier records. -/
theorem mem_recorded_iff (hg : g.Sound) {x : String} (hx : g.target.Includes x)
    (hext : site.Extant g.scope x) (o : String) : o ∈ g.recorded ↔ o ∈ g.target.objects := by
  rw [Target.Includes, target_objects hg] at hx
  rw [target_objects hg]
  refine ⟨mem_recorded, fun ho => ?_⟩
  have hd : g.kind ≠ .database := by
    intro hd
    rw [hg.unlisted hd] at ho
    cases ho
  exact mem_recorded_of_ne hx (hext.ne_empty hd hg.kind_ne_schema) ho

/-! ## Removals -/

/-- A removal that returns has taken what was applied, having found all that its statements name; or
it has changed nothing, having been told that something is missing. -/
theorem delete_returns (hd : p.Describes s.work) (hg : Goes (delete c) s t (.ok ()) s')
    (hk : Follows p k t k') : s'.work.id = "" ∧ ∃ h : Grant, h.scope = p ∧ h.Recalls s.work.id ∧
      (h.privileges.isEmpty = false →
        (FindsAll t ∧ h.Taken k.kept k'.kept ∧
          ∃ rows, (⟨.execute (.change (.revokeAll h.target h.role)), .ok rows⟩ : Exchange) ∈ t) ∨
        k'.kept = k.kept ∧ (FindsOtherMissing t ∨ ∃ e : DriverError, e.isMissing = true ∧
          (⟨.execute (.change (.revokeAll h.target h.role)), .error e⟩ : Exchange) ∈ t)) := by
  rcases goes_delete hg hk with ⟨_, _, _, he⟩ |
    ⟨h, t₁, w, o, s₁, s₂, k₁, rfl, _, hi, hu, hf, hx, hh, hk₂, hc, ho⟩
  · cases he
  obtain ⟨hs, _, hdb, hr⟩ := applied_spec c hd hx
  have sub : w ⊆ t₁ ++ ⟨.acquire .write, ()⟩ :: (w ++ [⟨.release .write, ()⟩]) :=
    fun y hy => by simp [hy]
  refine ⟨hi, h, hs, hr, fun hn => ?_⟩
  rcases ho with rfl | ⟨f, rfl, hm⟩
  · have found : FindsAll w := by
      refine Task.Heeds.committed (.block (a := .confined) ?_) _ _ _ _ hc
      exact block_apply c h false
    have taken : h.Taken k₁.kept k'.kept :=
      Task.goes_committed_ok (turns_apply false fun declared hd => turns_take hs hd) hdb hc hk₂
    obtain ⟨rows, hrows⟩ := revoke_answered hn hc
    refine .inl ⟨?_, hh ▸ taken, rows, sub hrows⟩
    exact hf.append (.cons rfl (found.append (.cons rfl .nil)))
  · refine .inr ⟨(Ledger.kept_of_uncommitted hk₂ (apply_fails hc).1).trans hh, ?_⟩
    refine (revoke_refused hn hm hc).imp (·.mono sub) fun h => ?_
    obtain ⟨e, he, hmem⟩ := h
    exact ⟨e, he, sub hmem⟩

/-- A removal that returns clears the identifier, whatever has become of the objects. Something that
still exists is left held on the target exactly if something was held there, and an object of the
target is gone or the removal was told that something else is missing. -/
theorem delete_leaves_iff {r : Resource} {v : Value} (hg : ofResource r = .ok g)
    (hid : s.work.id = g.id) (hd : g.scope.Describes s.work)
    (hrun : Goes (Operation.deleteGrant.run c) s t (.ok v) s') (hk : Follows g.scope k t k')
    (hj : ∀ y ∈ t, site.Judges g.database y) (hb : site.Backs g.scope k.kept) :
    s'.work.id = "" ∧
      ((∃ o, g.target.Includes o ∧ site.Extant g.scope o ∧ k'.kept o) ↔
        (∃ o, g.target.Includes o ∧ k.kept o) ∧
          (FindsOtherMissing t ∨ ∃ o ∈ g.target.objects, ¬site.Extant g.scope o)) := by
  obtain ⟨hsound, hprivileged⟩ := sound_of_declared hg
  obtain ⟨hi, h, hs, hrec, hcases⟩ := delete_returns hd (Operation.goes_quiet_ok hrun) hk
  rw [hid] at hrec
  have hn := privileges_of_recalls hsound (hprivileged rfl) hrec
  have hobjects := target_objects_of_recalls hsound hs hrec
  -- where something is held, a revoke finds everything exactly if no object of the target is gone
  have finds {o : String} (ho : g.target.Includes o) (hh : k.kept o) :
      site.Finds g.database (.revokeAll h.target h.role) ↔
        ∀ o ∈ g.target.objects, site.Extant g.scope o := by
    have hdatabase : h.database = g.database := congrArg Scope.database hs
    rw [← hdatabase, finds_revoke_iff hs hsound.kind_ne_schema hb hh, hobjects]
    simp only [mem_recorded_iff hsound ho (hb o hh).2]
  refine ⟨hi, ?_⟩
  rcases hcases hn with ⟨hall, htaken, rows, hrows⟩ | ⟨hheld, htold⟩
  · constructor
    · intro hleft
      obtain ⟨o, ho, _, hh⟩ := hleft
      have hincluded : h.target.Includes o := by
        rw [Target.Includes, hobjects]
        exact recorded_includes hsound ho
      exact absurd hincluded (((htaken o).mp hh).2 hn)
    · intro hwhere
      obtain ⟨⟨o, ho, hh⟩, hgone⟩ := hwhere
      rcases hgone with ⟨y, hy, hm, _⟩ | ⟨q, hq, hgone⟩
      · cases (hall y hy).symm.trans hm
      · exact absurd ((finds ho hh).mp (hj _ hrows) q hq) hgone
  · rw [hheld]
    constructor
    · intro hleft
      obtain ⟨o, ho, _, hh⟩ := hleft
      refine ⟨⟨o, ho, hh⟩, htold.imp_right fun hrefused => ?_⟩
      obtain ⟨e, hm, hmem⟩ := hrefused
      have hmissing := hj _ hmem hm
      rw [finds ho hh] at hmissing
      simpa using hmissing
    · intro hwhere
      obtain ⟨⟨o, ho, hh⟩, _⟩ := hwhere
      exact ⟨o, ho, (hb o hh).2, hh⟩

end Grant

/-! ## A grant on a table that is gone -/

/-- A grant to `alice` on two tables. -/
def tablesGrant (id : String) : Standing Resource :=
  let s := tableGrant id "a"
  { s with work := s.work.put "objects" (.list [.text "a", .text "d"]) }

/-- The server's word that a table is gone. -/
def tableGone : DriverError :=
  ⟨some { message := "relation \"s.d\" does not exist", sqlstate := some "42P01" }⟩

/-- A server that refuses to take privileges from tables of which one is gone. -/
def goneAnswer : (q : Request) → q.Answer
  | .execute (.change (.revokeAll ..)) => .error tableGone
  | q => q.granted

def refusedExchanges : List Exchange :=
  [⟨.execute (.query (.relationOwners "s")), .ok []⟩,
    ⟨.execute (.query (.schema (.text "s"))), .ok []⟩,
    ⟨.execute (.change (.revokeAll (aliceTables.target ["a", "d"]) "alice")), .error tableGone⟩]

/-- What is asked and answered when the grant is removed. -/
def removalExchanges : List Exchange :=
  ⟨.acquire .write, ()⟩ :: (transactionOn refusedExchanges .rollback ++ [⟨.release .write, ()⟩])

unseal List.mergeSort in
theorem goes_deleteGrant : Goes (Operation.deleteGrant.run .admin)
    (tablesGrant "app.alice:table:s:a,d:SELECT") removalExchanges (.ok .null) (tablesGrant "") :=
  Task.goes_exchanges goneAnswer _ _

/-- The grant that was applied. -/
def appliedGrant : Grant :=
  ⟨"alice", "app", .table, ∅ ∪ .ofList [.select], "s", ["a", "d"], false⟩

theorem ofResource_tablesGrant (id : String) (b : Bool) :
    Grant.ofResource (tablesGrant id).work b = .ok appliedGrant := by
  have hsort : sortNames ["a", "d"] = ["a", "d"] :=
    sortNames_eq_of_perm (.refl _) (by decide)
  have h : Grant.ofResource (tablesGrant id).work b =
      .ok { appliedGrant with objects := sortNames ["a", "d"] } := by
    cases b <;> rfl
  rw [hsort] at h
  exact h

theorem id_appliedGrant : appliedGrant.id = "app.alice:table:s:a,d:SELECT" := by
  have hobjects : sortNames appliedGrant.objects = ["a", "d"] :=
    sortNames_eq_of_perm (.refl _) (by decide)
  have hkeywords : sortNames appliedGrant.privileges.keywords = ["SELECT"] :=
    sortNames_eq_of_perm (.refl _) (by decide)
  rw [Grant.id, Grant.idChars, Grant.idPrivileges, hobjects, hkeywords]
  rfl

theorem describes_tablesGrant (id : String) :
    appliedGrant.scope.Describes (tablesGrant id).work := by
  intro b g hg
  cases (ofResource_tablesGrant id b).symm.trans hg
  rfl

/-- While a select on the one table is held, the server refuses the revoke. -/
theorem follows_removalExchanges : ∃ k', k'.kept "a" ∧
    Follows appliedGrant.scope { kept := (· = "a") } removalExchanges k' := by
  have refused (k : Ledger) (hk : k.kept = (· = "a")) :
      Follows aliceTables (k.begun "app") refusedExchanges (k.begun "app") := by
    refine .cons ⟨rfl, trivial⟩ (.cons ⟨rfl, trivial⟩ (.cons ⟨rfl, fun _ _ => ?_⟩ .nil))
    refine .inr ⟨"d", by decide, ?_⟩
    show ¬k.kept "d"
    rw [hk]
    decide
  have ended := Ledger.follows_transactionOn (m := .rollback) (refused { kept := (· = "a") } rfl)
  exact ⟨_, rfl, .cons rfl (Server.serves_append.mpr ⟨_, ended, .cons rfl .nil⟩)⟩

theorem not_extant_dropped : ¬threeTables.Extant appliedGrant.scope "d" := by
  intro h
  have hd : "d" ∈ ["a", "b", "c"] := h.2
  revert hd
  decide

theorem judges_removalExchanges : ∀ y ∈ removalExchanges,
    threeTables.Judges appliedGrant.database y := by
  have gone : ¬threeTables.Finds "app" (.revokeAll (aliceTables.target ["a", "d"]) "alice") :=
    fun h => not_extant_dropped ⟨h.2.1, h.2.2 "d" (by decide)⟩
  intro y hy
  simp only [removalExchanges, transactionOn, refusedExchanges, List.cons_append, List.nil_append,
    List.mem_cons, List.not_mem_nil, or_false] at hy
  rcases hy with rfl | rfl | rfl | rfl | rfl | rfl | rfl | rfl | rfl
  case inr.inr.inr.inr.inr.inl => exact fun _ => gone
  all_goals trivial

theorem backs_heldTable : threeTables.Backs appliedGrant.scope (· = "a") := by
  rintro o rfl
  exact ⟨.inr (.inl rfl), ⟨rfl, rfl⟩, by decide⟩

theorem Grant.delete_leaves_iff_dropped : ∃ t s' k',
    Goes (Operation.deleteGrant.run .admin) (tablesGrant "app.alice:table:s:a,d:SELECT") t
      (.ok .null) s' ∧
    Follows appliedGrant.scope { kept := (· = "a") } t k' ∧ s'.work.id = "" ∧
    ∃ o, appliedGrant.target.Includes o ∧ threeTables.Extant appliedGrant.scope o ∧ k'.kept o := by
  obtain ⟨k', _, hk⟩ := follows_removalExchanges
  obtain ⟨hi, hleft⟩ := Grant.delete_leaves_iff (ofResource_tablesGrant "" true)
    id_appliedGrant.symm (describes_tablesGrant _) goes_deleteGrant hk judges_removalExchanges
    backs_heldTable
  refine ⟨_, _, k', goes_deleteGrant, hk, hi, hleft.mpr ⟨⟨"a", .inr (by decide), rfl⟩, .inr ?_⟩⟩
  exact ⟨"d", by decide, not_extant_dropped⟩

/-- A removal clears the identifier and leaves what is held on one table, since another one is
gone. -/
theorem dropped_table_forgets_other : ¬∀ (site : Site) (c : Client) (g : Grant) (r : Resource)
    (s s' : Standing Resource) (t : List Exchange) (v : Value) (k k' : Ledger),
    Grant.ofResource r = .ok g → s.work.id = g.id → g.scope.Describes s.work →
    Goes (Operation.deleteGrant.run c) s t (.ok v) s' → Follows g.scope k t k' →
    (∀ y ∈ t, site.Judges g.database y) → site.Backs g.scope k.kept →
      s'.work.id = "" ∧ ∀ o, g.target.Includes o → site.Extant g.scope o → ¬k'.kept o := by
  intro h
  obtain ⟨k', ha, hk⟩ := follows_removalExchanges
  obtain ⟨_, hnone⟩ := h threeTables .admin appliedGrant (tablesGrant "").work _ _ _ _ _ k'
    (ofResource_tablesGrant "" true) id_appliedGrant.symm (describes_tablesGrant _)
    goes_deleteGrant hk judges_removalExchanges backs_heldTable
  exact hnone "a" (.inr (by decide)) ⟨⟨rfl, rfl⟩, by decide⟩ ha

end DeclaredAccess
