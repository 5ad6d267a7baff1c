import DeclaredAccess.Proofs.Catalog.Elevated
import DeclaredAccess.Proofs.Grant.Applied

/-! What making a grant does to the rights. The revoke leaves the role nothing on the target, so the
grant after it leaves exactly what is declared; both name only what is there, so neither is refused.
No other role and no other place is touched. -/

namespace DeclaredAccess

open Sql (Change)

variable {σ : Type} {site : Site} {g : Grant} {c : Client}

/-- The role, the database, the schema and the listed objects of a grant are there. -/
structure Site.Hosts (site : Site) (g : Grant) : Prop where
  role : g.role = "" ∨ site.roles g.role
  database : site.databases g.database
  schema : g.kind ≠ .database → site.schemas g.database g.schema
  objects : g.kind ≠ .database → ∀ o ∈ g.objects, o ∈ site.objects g.database g.kind g.schema

/-- What is held once a grant was made: what is declared on the places of its target, and elsewhere
what was held before. -/
def Site.granted (site : Site) (g : Grant) (held : Place → String → Holding) (place : Place)
    (role : String) : Holding :=
  if site.covers g.database place g.target ∧ role = g.role then
    .ofGrant g.privileges g.withGrantOption
  else held place role

namespace Grant

theorem target_of_ne (h : g.kind ≠ .database) :
    g.target = { kind := g.kind, schema := g.schema, objects := g.objects } := if_neg h

theorem kind_target (g : Grant) : g.target.kind = g.kind := by
  unfold target
  split
  · exact Eq.symm ‹_›
  · rfl

/-- Privileges on schemas are declared with the schema. -/
theorem Sound.kind_ne_schema (hg : g.Sound) : g.kind ≠ .schema := by
  intro he
  have hkind := hg.kind
  rw [he] at hkind
  exact absurd hkind (by decide)

theorem has_target (hg : g.Sound) (h : site.Hosts g) : site.Has g.database g.target := by
  by_cases hd : g.kind = .database
  · have ht : g.target = { kind := .database, name := g.database } := if_pos hd
    rw [ht]
    exact h.database
  · have there : site.schemas g.database g.schema ∧
        ∀ o ∈ g.objects, o ∈ site.objects g.database g.kind g.schema := ⟨h.schema hd, h.objects hd⟩
    rw [target_of_ne hd]
    cases hk : g.kind with
    | database => exact absurd hk hd
    | schema => exact absurd hk hg.kind_ne_schema
    | _ =>
      rw [hk] at there
      exact there

/-- What a declared grant becomes an access control list with. -/
theorem exists_toAcl (g : Grant) : ∃ declared, g.declaration.toAcl = .ok declared := by
  have hcovered : g.declaration.grantOptions ⊆ g.declaration.privileges := by
    intro p hp
    unfold declaration at hp ⊢
    dsimp only at hp ⊢
    split at hp
    · exact hp
    · exact absurd hp PrivilegeSet.mem_empty
  exact ⟨⟨_, _, _, _, hcovered⟩, Acl.make_eq_ok_iff.mpr ⟨rfl, rfl, rfl, rfl⟩⟩

theorem exists_grants (hp : g.privileges ⊆ g.kind.allowed) {declared : Acl}
    (hd : g.declaration.toAcl = .ok declared) : ∃ l, declared.grants g.target = .ok l := by
  have hprivileges : declared.privileges = g.privileges := (Acl.make_eq_ok_iff.mp hd).2.1
  have hplaced : (declared.misplaced g.target).isEmpty = true := by
    refine PrivilegeSet.isEmpty_iff.mpr (PrivilegeSet.ext_mem fun p => ?_)
    have hallowed : p ∈ g.privileges → p ∈ g.kind.allowed := hp p
    simpa [Acl.misplaced, hprivileges, kind_target] using hallowed
  exact ⟨_, if_pos hplaced⟩

/-- A revoke of everything and a grant after it. -/
theorem effect_regrant {covers : Target → Bool} {held : String → Holding} (privileges : PrivilegeSet)
    (t : Target) (role : String) (option : Bool) :
    (Change.grant privileges t role option).effect covers
      ((Change.revokeAll t role).effect covers held) =
    fun r => if covers t ∧ r = role then .ofGrant privileges option else held r := by
  funext r
  simp only [Change.effect]
  split
  · exact Holding.empty_union _
  · rfl

/-- The statements of a grant leave the role what is declared. -/
theorem rewrites_statements (hg : g.Sound) (hh : site.Hosts g)
    (hn : g.privileges.isEmpty = false) (hp : g.privileges ⊆ g.kind.allowed) {declared : Acl}
    (hd : g.declaration.toAcl = .ok declared) :
    site.Rewrites g.database (g.statements declared true : Task σ Unit) (site.granted g) := by
  intro s k hc _
  obtain ⟨l, hl⟩ := exists_grants hp hd
  have there : (g.role = "" ∨ site.roles g.role) ∧ site.Has k.database g.target :=
    ⟨hh.role, hc ▸ has_target hg hh⟩
  unfold statements
  rw [revokes_eq hd, hn]
  refine .bind (.bind (Site.leads_change (c := .revokeAll g.target g.role) rfl there (.pure ?_)))
  rw [if_pos rfl]
  refine .bind (.ofConflict hl ?_)
  rw [grants_eq hn hd hl]
  have there' : site.Finds (k.write (site.after k.database (.revokeAll g.target g.role)
    k.seen)).database (.grant g.privileges g.target g.role g.withGrantOption) := there
  refine .bind (Site.leads_change rfl there' (.pure ⟨.refl _, ?_⟩))
  rw [Stack.seen_write, Stack.write_write, Stack.database_write, hc]
  refine congrArg (fun held => k.write ⟨held, k.seen.members⟩) ?_
  funext place
  exact effect_regrant _ _ _ _

theorem leads_owners (hh : site.Hosts g) {s : Standing σ} {k : Journal} :
    site.server.Leads (g.owners : Task σ (List Value)) s k fun vs s' k' =>
      s' = s ∧ k' = k ∧ site.Roles vs := by
  unfold owners
  split
  · exact .pure ⟨rfl, rfl, [], rfl, by simp⟩
  · exact Site.leads_ownersIn (site.isName_schema _ _ (hh.schema ‹_›))

/-- To apply a grant, as a member of whichever owners, leaves the role what is declared. -/
theorem rewrites_apply (hg : g.Sound) (hh : site.Hosts g) (hc : site.Knows c)
    (hn : g.privileges.isEmpty = false) (hp : g.privileges ⊆ g.kind.allowed) :
    site.Rewrites g.database (g.apply c true : Task σ Unit) (site.granted g) := by
  intro s k hk hopen
  obtain ⟨declared, hd⟩ := g.exists_toAcl
  unfold apply
  refine .bind ((leads_owners hh).mono fun vs s₁ k₁ hq => ?_)
  obtain ⟨rfl, rfl, hroles⟩ := hq
  refine .bind (.ofConflict hd (.bind ((Site.leads_actorRole hc).mono fun v s₁ k₁ hq => ?_)))
  obtain ⟨rfl, rfl, actor, rfl, hactor⟩ := hq
  have inner := rewrites_statements (σ := σ) hg hh hn hp hd
  exact Site.Rewrites.elevatedAll hroles hactor inner _ _ hk hopen

/-- The grant is kept once its transaction is committed. -/
theorem leads_committed_apply (hg : g.Sound) (hh : site.Hosts g) (hc : site.Knows c)
    (hn : g.privileges.isEmpty = false) (hp : g.privileges ⊆ g.kind.allowed) {s : Standing σ}
    {k : Journal} :
    site.server.Leads (c.committed g.database (g.apply c true)) s k fun _ s' k' =>
      s.Agrees s' ∧ k'.kept = ⟨site.granted g k.kept.held, k.kept.members⟩ := by
  refine site.willing.leads_committed fun s₀ h₀ => ?_
  rw [c.databaseOr_of_ne hg.database_ne]
  have applied := rewrites_apply (σ := σ) hg hh hc hn hp s₀ (k.begun g.database) rfl
    (List.cons_ne_nil _ _)
  refine applied.mono fun _ s₁ k₁ hq s₂ h₂ => ⟨(h₀.trans hq.1).trans h₂, ?_⟩
  rw [hq.2]
  rfl

end Grant

end DeclaredAccess
