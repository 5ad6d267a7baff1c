import DeclaredAccess.Operation
import DeclaredAccess.Proofs.Catalog.Listed
import DeclaredAccess.Proofs.Grant.Granted
import DeclaredAccess.Proofs.Session.Transcript

/-! A grant that is made is reached: the role holds what is declared on every place of the target,
and nothing else has changed. Reading it back then finds every listed object with just what is
declared, so a comparison with the catalog leaves the resource as it is, at the end of the making
and in every read after it. -/

namespace DeclaredAccess

open DeclaredAccess.Task (Goes)
open Sql (Writable writable_cons writable_append writable_nil)

variable {σ : Type} {site : Site} {g : Grant} {c : Client} {s : Standing Resource} {k : Journal}

/-- Whether what the role holds on every place of the target is what the grant declares. -/
def Site.Confirms (site : Site) (g : Grant) (w : Rights) : Prop :=
  ∀ place, site.covers g.database place g.target = true →
    w.held place g.role = .ofGrant g.privileges g.withGrantOption

namespace Grant

theorem confirms_granted (g : Grant) (w : Rights) :
    site.Confirms g ⟨site.granted g w.held, w.members⟩ := by
  intro place hc
  exact if_pos ⟨hc, rfl⟩

/-! ## What is found -/

theorem covers_object {o : String} (hd : g.kind ≠ .database)
    (hi : g.kind.inSchema = true) (ho : o ∈ site.objects g.database g.kind g.schema)
    (hm : g.objects = [] ∨ o ∈ g.objects) :
    site.covers g.database (.object g.database g.kind g.schema o) g.target = true := by
  rw [target_of_ne hd]
  exact decide_eq_true ⟨hi, rfl, rfl, rfl, ho, hm⟩

theorem inSchema_of_ne (hg : g.Sound) (hd : g.kind ≠ .database) : g.kind.inSchema = true := by
  cases hk : g.kind with
  | database => exact absurd hk hd
  | schema => exact absurd hk hg.kind_ne_schema
  | _ => rfl

/-- Where objects are listed, they are the ones that a target names. -/
theorem named_iff (hg : g.Sound) (hh : site.Hosts g) (hne : g.objects ≠ []) {o : String} :
    site.Named g.database g.target o ↔ o ∈ g.objects := by
  have hd : g.kind ≠ .database := fun h => hne (hg.unlisted h)
  constructor
  · intro h
    obtain ⟨place, hc, _, rfl⟩ := h
    rw [target_of_ne hd] at hc
    cases place with
    | database d => exact absurd (of_decide_eq_true hc).1 hd
    | schema d n =>
      have hk : g.kind = .schema := (of_decide_eq_true hc).1
      exact absurd hk hg.kind_ne_schema
    | object d kind n o =>
      obtain ⟨_, _, _, _, _, hl⟩ := of_decide_eq_true hc
      exact hl.resolve_left hne
  · intro ho
    have hthere := hh.objects hd o ho
    exact ⟨_, covers_object hd (inSchema_of_ne hg hd) hthere (.inr ho), hthere, rfl⟩

/-- Where the names that are found are those of the places, and what is found is what is declared,
there is nothing to settle. -/
theorem settle_eq_self (hg : g.Sound) (hh : site.Hosts g) {found : Holdings} {names : List String}
    (hn : found.names = names.map .text)
    (hi : ∀ name, name ∈ names ↔ site.Named g.database g.target name)
    (ha : ∀ e ∈ found, e.2.privileges = g.privileges ∧
      e.2.grantOptions = if g.withGrantOption then g.privileges else ∅) (r : Resource) :
    g.settle found r = r := by
  have hcontains (l : List String) (o : String) :
      (l.map Value.text).contains (.text o) = true ↔ o ∈ l := by
    simp only [List.contains_eq_any_beq, List.any_eq_true, List.mem_map]
    constructor
    · intro h
      obtain ⟨_, ⟨p, hp, rfl⟩, he⟩ := h
      have : Value.same (.text o) (.text p) = true := he
      obtain rfl : o = p := by simpa [Value.same] using this
      exact hp
    · intro h
      refine ⟨_, ⟨o, h, rfl⟩, ?_⟩
      show Value.same (.text o) (.text o) = true
      simp [Value.same]
  have hdiffer : g.objectsDiffer found = false := by
    unfold objectsDiffer
    dsimp only
    rw [hn]
    by_cases hne : g.objects = []
    · simp [hne]
    · have hsame (o : String) : o ∈ names ↔ o ∈ g.objects := (hi o).trans (named_iff hg hh hne)
      have hleft : ((names.map Value.text).all fun v =>
          (g.objects.map Value.text).contains v) = true := by
        simp only [List.all_map, List.all_eq_true, Function.comp_apply, hcontains]
        exact fun o ho => (hsame o).mp ho
      have hright : ((g.objects.map Value.text).all fun v =>
          (names.map Value.text).contains v) = true := by
        simp only [List.all_map, List.all_eq_true, Function.comp_apply, hcontains]
        exact fun o ho => (hsame o).mpr ho
      rw [hleft, hright]
      simp
  have hmet : (found.all fun e => g.isMet e.2) = true := by
    refine List.all_eq_true.mpr fun e he => ?_
    obtain ⟨hp, ho⟩ := ha e he
    simp [isMet, declaration, hp, ho]
  have hleft : (!g.objects.isEmpty && found.isEmpty) = false := by
    by_cases hne : g.objects = []
    · simp [hne]
    · obtain ⟨o, ho⟩ := List.exists_mem_of_ne_nil _ hne
      have hm : o ∈ names := (hi o).mpr ((named_iff hg hh hne).mpr ho)
      have hf : found ≠ [] := by
        intro he
        subst he
        have hempty : names = [] := List.map_eq_nil_iff.mp hn.symm
        rw [hempty] at hm
        cases hm
      simp [hf]
  unfold settle
  rw [hdiffer, hmet, hleft]
  rfl

/-! ## Looking -/

theorem writable_objectPrivileges (hg : g.Sound) (hh : site.Hosts g) :
    Writable (Sql.Query.objectPrivileges g.role g.target).quoted := by
  have hrole : Writable (Sql.unlessEmpty g.role) := by
    unfold Sql.unlessEmpty
    split
    · exact writable_nil
    · rename_i hn
      have hr := hh.role.resolve_left fun he => hn (by rw [he]; rfl)
      exact writable_cons.mpr ⟨(site.isName_role _ hr).2, writable_nil⟩
  have hletter : ∀ kind : ObjectKind, '\x00' ∉ (Sql.defaultsLetter kind).toList := by
    intro kind
    cases kind <;> decide
  refine writable_append.mpr ⟨?_, writable_cons.mpr ⟨hletter _, hrole⟩⟩
  by_cases hd : g.kind = .database
  · have ht : g.target = { kind := .database, name := g.database } := if_pos hd
    rw [ht]
    exact writable_cons.mpr ⟨(site.isName_database _ hh.database).2, writable_nil⟩
  · have hschema : '\x00' ∉ g.schema.toList := (site.isName_schema _ _ (hh.schema hd)).2
    have hlisted (column : String) (hc : '\x00' ∉ column.toList) :
        Writable (Sql.listedQuoted column g.objects) := by
      unfold Sql.listedQuoted
      split
      · exact writable_nil
      · exact writable_cons.mpr ⟨hc, fun o ho =>
          (site.isName_object _ _ _ o (hh.objects hd o ho)).2⟩
    have hkinds := Sql.writable_kinds
    rw [target_of_ne hd]
    unfold Sql.objectsQuoted
    cases hk : g.kind with
    | database => exact absurd hk hd
    | schema => exact absurd hk hg.kind_ne_schema
    | table =>
      exact writable_append.mpr ⟨writable_cons.mpr ⟨hschema, hkinds.1⟩, hlisted _ (by decide)⟩
    | sequence =>
      exact writable_append.mpr ⟨writable_cons.mpr ⟨hschema, hkinds.2⟩, hlisted _ (by decide)⟩
    | function => exact writable_cons.mpr ⟨hschema, hlisted _ (by decide)⟩

/-- The role and the database are found. -/
theorem leads_findsRole (hh : site.Hosts g) {s : Standing σ} :
    site.server.Leads (g.findsRole : Task σ Bool) s k fun b s' k' => b = true ∧ s' = s ∧ k' = k := by
  have database : site.server.Leads (do return (← Catalog.databaseExists g.database).truthy : Task σ Bool)
      s k fun b s' k' => b = true ∧ s' = s ∧ k' = k := by
    have there : ∀ rows, site.Tells k (.databaseExists (.text g.database)) rows →
        Site.Says rows (site.databases g.database) := fun rows h => h
    refine .bind ((Site.leads_truth rfl ?_ there _).mono fun v s' k' hq => .pure ?_)
    · exact writable_cons.mpr ⟨(site.isName_database _ hh.database).2, writable_nil⟩
    · exact ⟨hq.2.2.mpr hh.database, hq.1, hq.2.1⟩
  unfold findsRole
  split
  · rename_i hn
    have hrole : site.roles g.role := hh.role.resolve_left fun he => by simp [he] at hn
    have there : ∀ rows, site.Tells k (.roleExists g.role) rows →
        Site.Says rows (site.roles g.role) := fun rows h => h
    refine .bind ((Site.leads_truth rfl ?_ there _).mono fun v s' k' hq => ?_)
    · exact writable_cons.mpr ⟨(site.isName_role _ hrole).2, writable_nil⟩
    · obtain ⟨rfl, rfl, hv⟩ := hq
      rw [hv.mpr hrole]
      exact database
  · exact database

theorem leads_findsSchema (hh : site.Hosts g) (hd : g.kind ≠ .database) {s : Standing σ}
    (hc : k.database = g.database) :
    site.server.Leads (g.findsSchema : Task σ Bool) s k fun b s' k' => b = true ∧ s' = s ∧ k' = k := by
  have there : ∀ rows, site.Tells k (.schemaExists (.text g.schema)) rows →
      Site.Says rows (site.schemas g.database g.schema) := fun rows h => hc ▸ h
  refine .bind ((Site.leads_truth rfl ?_ there _).mono fun v s' k' hq => .pure ?_)
  · exact writable_cons.mpr ⟨(site.isName_schema _ _ (hh.schema hd)).2, writable_nil⟩
  · exact ⟨hq.2.2.mpr (hh.schema hd), hq.1, hq.2.1⟩

theorem leads_isPresent (hg : g.Sound) (hh : site.Hosts g) {s : Standing σ} :
    site.server.Leads (g.isPresent c : Task σ Bool) s k fun b s' k' =>
      b = true ∧ s.Agrees s' ∧ k'.kept = k.kept := by
  unfold isPresent
  refine .bind (site.willing.leads_transaction fun s₀ h₀ => (leads_findsRole hh).mono fun b s₁ k₁ hq s₂ h₂ => ?_)
  obtain ⟨rfl, rfl, rfl⟩ := hq
  have hagrees := h₀.trans h₂
  simp only [Bool.not_true, Bool.false_eq_true, if_false]
  split
  · exact .pure ⟨rfl, hagrees, rfl⟩
  · rename_i hd
    refine site.willing.leads_transaction fun s₃ h₃ => ?_
    rw [c.databaseOr_of_ne hg.database_ne]
    refine (leads_findsSchema hh hd rfl).mono fun b s₄ k₄ hq s₅ h₅ => ?_
    obtain ⟨rfl, rfl, rfl⟩ := hq
    exact ⟨rfl, (hagrees.trans h₃).trans h₅, rfl⟩

/-- What the role holds is found as it is, place by place. -/
theorem leads_objectPrivileges (hg : g.Sound) (hh : site.Hosts g) {s : Standing σ}
    (hc : k.database = g.database) (hw : site.Confirms g k.seen) :
    site.server.Leads (Catalog.objectPrivileges g.role g.target : Task σ Holdings) s k fun found s' k' =>
      s' = s ∧ k' = k ∧ (∃ vs, Value.inOrder found.names = .ok vs) ∧
        ∀ r, g.settle found r = r := by
  have hkind : g.target.kind ≠ .schema := by
    rw [kind_target]
    exact hg.kind_ne_schema
  have hsub : (Holding.ofGrant g.privileges g.withGrantOption).grantOptions ⊆ g.privileges := by
    intro p hp
    unfold Holding.ofGrant at hp
    dsimp only at hp
    split at hp
    · exact hp
    · exact absurd hp PrivilegeSet.mem_empty
  refine .bind (site.willing.leads_query rfl (writable_objectPrivileges hg hh) fun rows hrows => ?_)
  have hlists := hrows hkind
  rw [hc] at hlists
  obtain ⟨names, found, hread, hn, hi, ha⟩ := hlists.ofRows (fun place hp _ => hw place hp) hsub g.role
  have hordered : Value.inOrder found.names = .ok ((sortNames names).map .text) := by
    rw [hn]
    exact Value.inOrder_texts names
  exact .ofExcept hread ⟨rfl, rfl, ⟨_, hordered⟩, settle_eq_self hg hh hn hi ha⟩

/-- Where the catalog confirms a grant, a comparison with it leaves the resource as it is. -/
theorem leads_refresh (hg : g.Sound) (hh : site.Hosts g) (hw : site.Confirms g k.kept)
    (hid : s.work.id = g.id) :
    site.server.Leads (g.refresh c) s k fun _ s' k' => s.Agrees s' ∧ k'.kept = k.kept := by
  unfold refresh
  refine .bind ((leads_isPresent hg hh).mono fun b s₁ k₁ hq => ?_)
  obtain ⟨rfl, hagrees, hkept⟩ := hq
  have hidentified : (if s₁.work.id.isEmpty then s₁.work.setId g.id else s₁.work) = s₁.work := by
    rw [hagrees.1, hid, if_neg (by simpa using g.id_ne_empty)]
  rw [if_pos rfl]
  refine .bind (.changeWork ?_)
  rw [hidentified]
  refine .bind (site.willing.leads_transaction fun s₂ h₂ => ?_)
  rw [c.databaseOr_of_ne hg.database_ne]
  have hseen : site.Confirms g (k₁.begun g.database).seen := by
    show site.Confirms g k₁.kept
    rw [hkept]
    exact hw
  refine (leads_objectPrivileges hg hh rfl hseen).mono fun found s₃ k₃ hq s₄ h₄ => ?_
  obtain ⟨rfl, rfl, ⟨vs, hvs⟩, hsettle⟩ := hq
  refine .bind (.bind (.ofExcept hvs (.pure (.changeWork ⟨?_, hkept⟩))))
  rw [hsettle]
  exact (hagrees.trans h₂).trans h₄

/-! ## Making and reading a grant -/

theorem leads_create (hg : ofResource s.work = .ok g) (hh : site.Hosts g) (hc : site.Knows c)
    (hv : (site.versionFor s.session).supports .privileges = true) :
    site.server.Leads (create c) s k fun _ s' k' => s'.work = s.work.setId g.id ∧
      site.versionFor s'.session = site.versionFor s.session ∧
        k'.kept = ⟨site.granted g k.kept.held, k.kept.members⟩ := by
  obtain ⟨hsound, hn⟩ := sound_of_declared hg
  obtain ⟨hplaced, _⟩ := placed_of_declared hg
  unfold create
  refine .bind ((Site.leads_require c hv).mono fun _ s₁ k₁ hq => ?_)
  obtain ⟨hwork, hversion, hkept⟩ := hq
  refine .bind (.work ?_)
  rw [hwork]
  refine .bind (.ofExcept hg (site.willing.leads_locked ?_))
  refine .bind ((leads_committed_apply hsound hh hc (hn rfl) hplaced).mono fun _ s₂ k₂ hq => ?_)
  obtain ⟨hagrees, hmade⟩ := hq
  refine .bind (.changeWork ?_)
  have hconfirms : site.Confirms g k₂.kept := by
    rw [hmade]
    exact g.confirms_granted k₁.kept
  refine (leads_refresh hsound hh hconfirms rfl).mono fun _ s₃ k₃ hq => ⟨?_, ?_, ?_⟩
  · rw [hq.1.1, hagrees.1, hwork]
  · rw [← hversion]
    show site.versionFor s₃.session = site.versionFor s₁.session
    rw [Site.versionFor, hq.1.2, Site.versionFor, ← hagrees.2]
  · rw [hq.2, hmade, hkept]

/-- Where the catalog confirms the grant that was applied, a read leaves the resource as it is. -/
theorem leads_read (hg : applied s.work = .ok g) (hsound : g.Sound) (hh : site.Hosts g)
    (hid : s.work.id = g.id) (hw : site.Confirms g k.kept)
    (hv : (site.versionFor s.session).supports .privileges = true) :
    site.server.Leads (read c) s k fun _ s' k' => s'.work = s.work ∧ k'.kept = k.kept := by
  unfold read
  refine .bind ((Site.leads_require c hv).mono fun _ s₁ k₁ hq => ?_)
  obtain ⟨hwork, _, hkept⟩ := hq
  refine .bind (.work ?_)
  rw [hwork]
  refine .bind (.ofExcept hg (site.willing.leads_locked ?_))
  have hconfirms : site.Confirms g k₁.kept := by
    rw [hkept]
    exact hw
  have hid₁ : s₁.work.id = g.id := by
    rw [hwork]
    exact hid
  refine (leads_refresh hsound hh hconfirms hid₁).mono fun _ s₂ k₂ hq => ⟨?_, ?_⟩
  · rw [hq.1.1, hwork]
  · rw [hq.2, hkept]

/-- Where all that a declared grant names is there, the grant can be made, and however the server
answers it is: the role holds on each place of the target what is declared, nothing else that is held
changes and nobody's membership does, and the resource gets the grant's identifier and keeps its
fields. A read that follows leaves the resource as it is. -/
theorem create_reaches (hg : ofResource s.work = .ok g) (hh : site.Hosts g) (hc : site.Knows c)
    (hv : (site.versionFor s.session).supports .privileges = true) :
    (∃ t s' k', Goes (Operation.createGrant.run c) s t (.ok .null) s' ∧ site.server.Serves k t k') ∧
      ∀ t r s' k', Goes (Operation.createGrant.run c) s t r s' → site.server.Serves k t k' →
        r = .ok .null ∧ s'.work = s.work.setId g.id ∧
          (∀ place, site.covers g.database place g.target = true →
            k'.kept.held place g.role =
              ⟨g.privileges, if g.withGrantOption then g.privileges else ∅⟩) ∧
          (∀ place role, ¬(site.covers g.database place g.target = true ∧ role = g.role) →
            k'.kept.held place role = k.kept.held place role) ∧
          k'.kept.members = k.kept.members ∧
          ∀ t₂ r₂ s₂ k₂, Goes (Operation.readGrant.run c) s' t₂ r₂ s₂ → site.server.Serves k' t₂ k₂ →
            r₂ = .ok .null ∧ s₂.work = s'.work := by
  obtain ⟨hsound, _⟩ := sound_of_declared hg
  have created : site.server.Leads (Operation.createGrant.run c) s k fun v s' k' =>
      v = .null ∧ s'.work = s.work.setId g.id ∧
        site.versionFor s'.session = site.versionFor s.session ∧
          k'.kept = ⟨site.granted g k.kept.held, k.kept.members⟩ :=
    .bind ((leads_create hg hh hc hv).mono fun _ s' k' hq => .pure ⟨rfl, hq⟩)
  refine ⟨?_, fun t r s' k' hgoes hserves => ?_⟩
  · obtain ⟨t, v, s', k', hgoes, hserves, rfl, _⟩ := created.exists_goes
    exact ⟨t, s', k', hgoes, hserves⟩
  · obtain ⟨v, rfl, rfl, hwork, hversion, hkept⟩ := created.of_goes hgoes hserves
    have hheld : k'.kept.held = site.granted g k.kept.held := by rw [hkept]
    refine ⟨rfl, hwork, fun place hp => ?_, fun place role hp => ?_, by rw [hkept], ?_⟩
    · rw [hheld]
      exact if_pos ⟨hp, rfl⟩
    · rw [hheld]
      exact if_neg hp
    · intro t₂ r₂ s₂ k₂ hgoes₂ hserves₂
      have named : "" ∉ g.objects := by
        intro hm
        have hd : g.kind ≠ .database := by
          intro hd
          rw [hsound.unlisted hd] at hm
          cases hm
        exact (site.isName_object _ _ _ _ (hh.objects hd _ hm)).1 rfl
      have happlied : applied s'.work = .ok g := by
        rw [hwork]
        exact applied_setId hg named
      have hid : s'.work.id = g.id := by
        rw [hwork]
        rfl
      have hconfirms : site.Confirms g k'.kept := by
        rw [hkept]
        exact g.confirms_granted _
      rw [← hversion] at hv
      have reads : site.server.Leads (Operation.readGrant.run c) s' k' fun v s₂ _ =>
          v = .null ∧ s₂.work = s'.work :=
        .bind ((leads_read happlied hsound hh hid hconfirms hv).mono fun _ s₂ k₂ hq =>
          .pure ⟨rfl, hq.1⟩)
      obtain ⟨v, rfl, rfl, hsame⟩ := reads.of_goes hgoes₂ hserves₂
      exact ⟨rfl, hsame⟩

end Grant

/-- A grant to `alice` on two of the tables, not in their order and with grant option. -/
def twoTables (id : String) : Standing Resource where
  session := {}
  work := { id, values := [("role", .text "alice"), ("database", .text "app"),
    ("object_type", .text "Table"), ("schema", .text "s"), ("objects", .list [.text "b", .text "a"]),
    ("privileges", .list [.text "update", .text "SELECT"]), ("with_grant_option", .bool true)] }

/-- The grant that is declared. -/
def twoTablesGrant : Grant := ⟨"alice", "app", .table,
  ∅ ∪ .ofList [.update] ∪ .ofList [.select], "s", ["a", "b"], true⟩

theorem ofResource_twoTables (id : String) :
    Grant.ofResource (twoTables id).work = .ok twoTablesGrant := by
  have hsort : sortNames ["b", "a"] = ["a", "b"] :=
    sortNames_eq_of_perm (by decide) (by decide)
  have h : Grant.ofResource (twoTables id).work =
      .ok { twoTablesGrant with objects := sortNames ["b", "a"] } := rfl
  rw [hsort] at h
  exact h

theorem id_twoTablesGrant : twoTablesGrant.id = "app.alice:table:s:a,b:SELECT*,UPDATE*" := by
  have hobjects : sortNames twoTablesGrant.objects = ["a", "b"] :=
    sortNames_eq_of_perm (.refl _) (by decide)
  have hkeywords : sortNames twoTablesGrant.privileges.keywords = ["SELECT", "UPDATE"] :=
    sortNames_eq_of_perm (by decide) (by decide)
  rw [Grant.id, Grant.idChars, Grant.idPrivileges, hobjects, hkeywords]
  rfl

/-- Everybody may insert into every place, and `admin` is a member of `alice`. -/
def inserters : Journal where
  kept := { held := fun _ _ => ⟨.ofList [.insert], ∅⟩
            members := fun role member => role = "alice" ∧ member = "admin" }

theorem Grant.create_reaches_twoTables : ∃ t s' k' t₂ s₂ k₂,
    Goes (Operation.createGrant.run .admin) (twoTables "") t (.ok .null) s' ∧
      threeTables.server.Serves inserters t k' ∧
      s'.work = (twoTables "app.alice:table:s:a,b:SELECT*,UPDATE*").work ∧
      (∀ o ∈ ["a", "b"], k'.kept.held (.object "app" .table "s" o) "alice" =
        ⟨.ofList [.select, .update], .ofList [.select, .update]⟩) ∧
      k'.kept.held (.object "app" .table "s" "c") "alice" = ⟨.ofList [.insert], ∅⟩ ∧
      k'.kept.held (.object "app" .table "s" "a") "admin" = ⟨.ofList [.insert], ∅⟩ ∧
      k'.kept.members = inserters.kept.members ∧
      Goes (Operation.readGrant.run .admin) s' t₂ (.ok .null) s₂ ∧
      threeTables.server.Serves k' t₂ k₂ ∧ s₂.work = s'.work := by
  have hh : threeTables.Hosts twoTablesGrant :=
    ⟨.inr (.inl rfl), rfl, fun _ => ⟨rfl, rfl⟩, fun _ => by decide⟩
  have hc : threeTables.Knows .admin := .inr (.inr rfl)
  obtain ⟨⟨t, s', k', hgoes, hserves⟩, hevery⟩ :=
    Grant.create_reaches (k := inserters) (ofResource_twoTables "") hh hc (by decide)
  obtain ⟨_, hwork, hheld, hother, hmembers, hreads⟩ := hevery t _ s' k' hgoes hserves
  rw [id_twoTablesGrant] at hwork
  obtain ⟨t₂, ⟨r₂, s₂⟩, k₂, hread, hserves₂⟩ :=
    threeTables.server.exists_serves (Operation.readGrant.run .admin s') k'
  obtain ⟨rfl, hsame⟩ := hreads t₂ r₂ s₂ k₂ hread hserves₂
  refine ⟨t, s', k', t₂, s₂, k₂, hgoes, hserves, hwork, fun o ho => ?_, ?_, ?_, hmembers, hread,
    hserves₂, hsame⟩
  · have covered : ∀ o ∈ ["a", "b"],
        threeTables.covers "app" (.object "app" .table "s" o) twoTablesGrant.target = true := by
      decide
    have declared : twoTablesGrant.privileges = .ofList [.select, .update] := by decide
    exact (hheld _ (covered o ho)).trans (Holding.ext declared declared)
  · exact hother _ _ fun h => absurd h.1 (by decide)
  · exact hother _ _ fun h => absurd h.2 (by decide)

end DeclaredAccess
