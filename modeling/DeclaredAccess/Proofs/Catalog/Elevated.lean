import DeclaredAccess.Proofs.Catalog.Leads
import DeclaredAccess.Proofs.Checks

/-! Blocks that write, against a server that is true to a journal. The questions that come before
such a block are about roles that exist, and the elevations around it grant memberships that nobody
had and take them back again, so the block's own changes are all that becomes of the rights. -/

namespace DeclaredAccess

open Sql (Query Writable writable_cons writable_append writable_nil writable_kinds)

variable {σ α β : Type}

namespace Site

variable {site : Site} {s : Standing σ} {k : Journal}

/-! ## Questions -/

/-- A question that is answered by what is there. -/
theorem leads_truth {q : Query} {p : Prop} (hv : (q.values.all fun v => v.text?.isSome) = true)
    (hw : Writable q.quoted) (ht : ∀ rows, site.Tells k q rows → Says rows p) (intent : String) :
    site.server.Leads (Catalog.askOne q intent : Task σ Value) s k fun v s' k' =>
      s' = s ∧ k' = k ∧ (v.truthy = true ↔ p) := by
  refine site.willing.leads_askOne hv hw fun rows hr => ?_
  obtain ⟨v, hc, hp⟩ := ht rows hr
  exact ⟨v, hc, rfl, rfl, hp⟩

theorem column_texts (names : List String) :
    Catalog.column (names.map fun n => [Value.text n]) = .ok (names.map .text) :=
  mapM_map_ok fun _ _ => rfl

/-- Values that name roles there are. -/
def Roles (site : Site) (vs : List Value) : Prop :=
  ∃ names : List String, vs = names.map .text ∧ ∀ n ∈ names, site.roles n

theorem Roles.distinct {vs : List Value} (h : site.Roles vs) :
    ∃ ws, Value.distinct vs = .ok ws ∧ site.Roles ws := by
  obtain ⟨names, rfl, hn⟩ := h
  exact ⟨_, Value.distinct_texts names, names.eraseDups, rfl, fun n hm =>
    hn n (List.mem_eraseDups.mp hm)⟩

theorem Roles.inOrder {vs : List Value} (h : site.Roles vs) :
    ∃ ws, Value.inOrder vs = .ok ws ∧ site.Roles ws := by
  obtain ⟨names, rfl, hn⟩ := h
  exact ⟨_, Value.inOrder_texts names, sortNames names, rfl, fun n hm =>
    hn n ((List.mergeSort_perm _ _).mem_iff.mp hm)⟩

theorem Roles.append_one {vs : List Value} (h : site.Roles vs) {owner : String}
    (ho : site.roles owner) : site.Roles (vs ++ [.text owner]) := by
  obtain ⟨names, rfl, hn⟩ := h
  refine ⟨names ++ [owner], by simp, fun n hm => ?_⟩
  rcases List.mem_append.mp hm with hm | hm
  · exact hn n hm
  · obtain rfl := List.mem_singleton.mp hm
    exact ho

theorem Roles.filter_truthy {vs : List Value} (h : site.Roles vs) :
    site.Roles (vs.filter Value.truthy) := by
  obtain ⟨names, rfl, hn⟩ := h
  refine ⟨names.filter fun n => (Value.text n).truthy, by rw [List.filter_map]; rfl, fun n hm => ?_⟩
  exact hn n (List.mem_filter.mp hm).1

/-- The owners in a schema are roles. -/
theorem leads_ownersIn {schema : String} (hn : IsName schema) :
    site.server.Leads (Catalog.ownersIn schema : Task σ (List Value)) s k fun vs s' k' =>
      s' = s ∧ k' = k ∧ site.Roles vs := by
  have hwrite : Writable (schema :: []) := writable_cons.mpr ⟨hn.2, writable_nil⟩
  unfold Catalog.ownersIn
  refine .bind (.bind (site.willing.leads_query rfl ?_ fun rows hr => ?_))
  · exact writable_cons.mpr ⟨hn.2, writable_append.mpr writable_kinds⟩
  · obtain ⟨names, rfl, hroles⟩ := exists_map_of_forall hr
    refine .ofExcept (column_texts names) ?_
    obtain ⟨owners, hd, howners⟩ := Roles.distinct ⟨names, rfl, hroles⟩
    refine .bind (.ofExcept hd ?_)
    refine .bind (.bind (site.willing.leads_query rfl ?_ fun rows hr => ?_))
    · exact writable_cons.mpr ⟨by decide, hwrite⟩
    · rcases hr with rfl | ⟨owner, entries, ho, rfl⟩
      · obtain ⟨ws, hw, hroles⟩ := howners.inOrder
        exact .pure (.ofExcept hw ⟨rfl, rfl, hroles⟩)
      · obtain ⟨us, hu, hus⟩ := (howners.append_one ho).distinct
        obtain ⟨ws, hw, hws⟩ := hus.inOrder
        exact .pure (.bind (.ofExcept hu (.ofExcept hw ⟨rfl, rfl, hws⟩)))

/-- The client's own role is there, where it has one. -/
def Knows (site : Site) (c : Client) : Prop := c.actor = "" ∨ site.roles c.actor

theorem leads_actorRole {c : Client} (hc : site.Knows c) :
    site.server.Leads (c.actorRole : Task σ Value) s k fun v s' k' =>
      s' = s ∧ k' = k ∧ ∃ actor, v = .text actor ∧ site.roles actor := by
  refine (site.willing.leads_actorRole fun rows hr => hr).mono fun v s' k' hv => ?_
  obtain ⟨rfl, rfl, rfl⟩ := hv
  refine ⟨rfl, rfl, _, rfl, ?_⟩
  split
  · exact site.user_exists
  · rename_i hne
    exact hc.resolve_left fun he => hne (by rw [he]; rfl)

/-! ## Elevations -/

/-- In a transaction on the database the task turns what is held by `f`, and the members stay. -/
def Rewrites (site : Site) (database : String) (x : Task σ α)
    (f : (Place → String → Holding) → Place → String → Holding) : Prop :=
  ∀ (s : Standing σ) (k : Journal), k.database = database → k.pending ≠ [] →
    site.server.Leads x s k fun _ s' k' =>
      s.Agrees s' ∧ k' = k.write ⟨f k.seen.held, k.seen.members⟩

/-- A membership is granted only where it is not there yet. -/
theorem leads_elevationFor {role actor : String} (hr : site.roles role) (ha : site.roles actor) :
    site.server.Leads (Task.elevationFor (.text role) (.text actor) : Task σ _) s k fun m s' k' =>
      s' = s ∧ k' = k ∧
        (m = none ∨ m = some (role, actor) ∧ ¬k.seen.members role actor) := by
  refine site.willing.leads_elevationFor (site.isName_role _ hr).2
    (site.isName_role _ ha).2 (fun rows h => h) fun rows h => ?_
  obtain ⟨v, hv, hmember⟩ : Says rows (k.seen.members role actor) := h
  exact ⟨v, hv, fun hn hm => Bool.eq_false_iff.mp hn (hmember.mpr hm)⟩

/-- A membership that was not there is gone again once it was granted and revoked. -/
theorem members_after_revoke {members : String → String → Prop} {role actor : String}
    (h : ¬members role actor) :
    (fun r m => (members r m ∨ r ∈ [role] ∧ m = actor) ∧ ¬(r ∈ [role] ∧ m = actor)) = members := by
  funext r m
  refine propext ⟨fun hm => hm.1.resolve_right hm.2, fun hm => ⟨.inl hm, fun he => h ?_⟩⟩
  obtain ⟨hr, rfl⟩ := he
  rwa [← List.mem_singleton.mp hr]

variable {database : String} {f : (Place → String → Holding) → Place → String → Holding}

/-- The membership is there during the block only. -/
theorem Rewrites.asMember {role actor : String} (hr : site.roles role) (ha : site.roles actor)
    {block : Task σ α} (hb : site.Rewrites database block f) {s : Standing σ} {k : Journal}
    (hc : k.database = database) (hm : ¬k.seen.members role actor) :
    site.server.Leads (Task.asMember role actor block) s k fun _ s' k' =>
      s.Agrees s' ∧ k' = k.write ⟨f k.seen.held, k.seen.members⟩ := by
  have there : (∀ r ∈ [role], site.roles r) ∧ site.roles actor :=
    ⟨List.forall_mem_singleton.mpr hr, ha⟩
  unfold Task.asMember
  refine .bind (leads_change (c := .grantMembership [role] actor) rfl there (.bind (.attempt ?_)))
  have inside := hb s ((k.write (site.after k.database (.grantMembership [role] actor)
    k.seen)).mark .savepoint) hc (List.cons_ne_nil _ _)
  refine site.willing.leads_savepoint (inside.mono fun v s₁ k₁ hk => ?_)
  obtain ⟨hs, rfl⟩ := hk
  -- what was written in the savepoint is written in the transaction
  change site.server.Leads _ s₁ (k.write _) _
  refine .bind (leads_change (c := .revokeMembership [role] actor) rfl there (.pure ⟨hs, ?_⟩))
  rw [Stack.seen_write, Stack.write_write]
  exact congrArg (fun m => k.write ⟨f k.seen.held, m⟩) (members_after_revoke hm)

theorem Rewrites.elevated {role actor : String} (hr : site.roles role) (ha : site.roles actor)
    {block : Task σ α} (hb : site.Rewrites database block f) :
    site.Rewrites database (Task.elevated (.text role) (.text actor) block) f := by
  intro s k hc hp
  rw [Task.elevated_eq]
  refine .bind ((leads_elevationFor hr ha).mono fun m s₁ k₁ hq => ?_)
  obtain ⟨rfl, rfl, rfl | ⟨rfl, hm⟩⟩ := hq
  · exact hb _ _ hc hp
  · exact Rewrites.asMember hr ha hb hc hm

/-- Whichever roles a block is run as a member of, the rights become what the block makes of them. -/
theorem Rewrites.elevatedAll {roles : List Value} (hr : site.Roles roles) {actor : String}
    (ha : site.roles actor) {block : Task σ α} (hb : site.Rewrites database block f) :
    site.Rewrites database (Task.elevatedAll roles (.text actor) block) f := by
  intro s k hc hp
  obtain ⟨vs, hd, hvs⟩ := hr.filter_truthy.distinct
  obtain ⟨ws, ho, names, rfl, hn⟩ := hvs.inOrder
  unfold Task.elevatedAll
  refine .bind (.ofExcept hd (.bind (.ofExcept ho ?_)))
  have inner : site.Rewrites database ((names.map Value.text).foldr (fun r body =>
      Task.elevated r (.text actor) body) block) f := by
    clear ho
    induction names with
    | nil => exact hb
    | cons n names ih =>
      obtain ⟨hrole, hrest⟩ := List.forall_mem_cons.mp hn
      exact (ih hrest).elevated hrole ha
  exact inner s k hc hp

end Site

end DeclaredAccess
