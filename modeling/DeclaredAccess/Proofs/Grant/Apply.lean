import DeclaredAccess.Proofs.Grant.Declared
import DeclaredAccess.Proofs.Grant.Effect

/-! What applying a grant makes of what the role holds: everything on the target is taken, and where
the grant is declared, every object of the target is held again. -/

namespace DeclaredAccess

open DeclaredAccess.Task (Turns Blames Block Goes Returns goes_bind goes_pure goes_fail goes_change)

variable {σ α β : Type} {p : Scope} {c : Client}

theorem Scope.target_objects_target (p : Scope) (objects : List String) :
    p.target (p.target objects).objects = p.target objects := by
  unfold target
  split
  · rfl
  · rfl

namespace Grant

variable {g : Grant}

theorem concerns (hs : g.scope = p) : p.Concerns p.database g.target g.role := by
  subst hs
  exact ⟨rfl, (g.scope.target_objects_target g.objects).symm, .inr rfl⟩

/-- After everything on the target was taken; without privileges nothing is. -/
def Taken (g : Grant) (h h' : String → Prop) : Prop :=
  ∀ o, h' o ↔ h o ∧ (g.privileges.isEmpty = false → ¬g.target.Includes o)

/-- After the grant was made on the target. -/
def Given (g : Grant) (h h' : String → Prop) : Prop :=
  (∀ o ∈ g.target.objects, h' o) ∧ ∀ o, ¬g.target.Includes o → (h' o ↔ h o)

/-- What a change that went through did to the ledger. -/
theorem alters_of_change {c : Sql.Change} (hc : c.isVersioned = false) {intent : String} {v : Unit}
    {s s' : Standing σ} {t : List Exchange} {k k' : Ledger}
    (hg : Goes (Catalog.change c intent : Task σ Unit) s t (.ok v) s')
    (hk : Ledger.Follows p k t k') : Ledger.Alters p k c k' := by
  obtain ⟨_, a, rfl, ha⟩ := (goes_change hc).mp hg
  cases a with
  | error e => cases ha
  | ok rows =>
    obtain ⟨k₁, hm, hn⟩ := Server.serves_cons.mp hk
    obtain rfl := Server.serves_nil.mp hn
    exact hm

theorem turns_revoke (hs : g.scope = p) (intent : String) :
    Turns p (Catalog.change (.revokeAll g.target g.role) intent : Task σ Unit)
      fun h h' => ∀ o, h' o ↔ h o ∧ ¬g.target.Includes o := by
  intro s t v s' k k' hg hk hc _
  have hw := alters_of_change rfl hg hk
  simp only [Ledger.Alters, hc, concerns hs, if_true] at hw
  exact ⟨_, fun _ => Iff.rfl, hw⟩

theorem turns_grant (hs : g.scope = p) (privileges : PrivilegeSet) (option : Bool)
    (intent : String) : Turns p
      (Catalog.change (.grant privileges g.target g.role option) intent : Task σ Unit) g.Given := by
  intro s t v s' k k' hg hk hc _
  have hw := alters_of_change rfl hg hk
  simp only [Ledger.Alters, hc, concerns hs, if_true] at hw
  obtain ⟨added, hl, hi, rfl⟩ := hw
  refine ⟨_, ⟨fun o ho => .inr (hl o ho), fun o ho => ?_⟩, rfl⟩
  exact ⟨fun h => h.elim (fun h => h) fun h => absurd (hi o h) ho, .inl⟩

theorem blames_revoke (hs : g.scope = p) (intent : String) : Blames p g.target
    (Catalog.change (.revokeAll g.target g.role) intent : Task σ Unit) := by
  intro s t f s' k k' hg hf hk hc
  obtain ⟨_, a, rfl, ha⟩ := (goes_change rfl).mp hg
  cases a with
  | ok rows => cases ha
  | error e =>
    cases ha
    obtain ⟨k₁, hm, hn⟩ := Server.serves_cons.mp hk
    obtain ⟨_, hl⟩ : k₁ = k ∧ (_ → e.isMissing = true → k.Lacks g.target) := hm
    refine .inr (hl ?_ (DriverError.isMissing_of_isNotFound hf))
    rw [hc]
    exact concerns hs

/-! ## The statements of a grant -/

theorem revokes_eq {declared : Acl} (hd : g.declaration.toAcl = .ok declared) :
    declared.revokes g.target =
      if g.privileges.isEmpty then [] else [.revokeAll g.target g.role] := by
  obtain ⟨hr, hp, _⟩ := Acl.make_eq_ok_iff.mp hd
  unfold Acl.revokes
  rw [hr, hp]
  rfl

theorem grants_eq {declared : Acl} {l : List Sql.Change} (hn : g.privileges.isEmpty = false)
    (hd : g.declaration.toAcl = .ok declared) (hl : declared.grants g.target = .ok l) :
    l = [.grant g.privileges g.target g.role g.withGrantOption] := by
  obtain ⟨hr, hp, ho, _⟩ := Acl.make_eq_ok_iff.mp hd
  have hr : declared.role = g.role := hr
  have hp : declared.privileges = g.privileges := hp
  have ho : declared.grantOptions = if g.withGrantOption then g.privileges else ∅ := ho
  unfold Acl.grants at hl
  split at hl
  · cases hl
    rw [hr, hp, ho]
    cases hw : g.withGrantOption with
    | true =>
      have he : (g.privileges \ g.privileges).isEmpty = true :=
        PrivilegeSet.isEmpty_iff.mpr (PrivilegeSet.ext_mem (by simp))
      simp [he, hn]
    | false =>
      have he : g.privileges \ ∅ = g.privileges := PrivilegeSet.ext_mem (by simp)
      have hz : (∅ : PrivilegeSet).isEmpty = true := PrivilegeSet.isEmpty_iff.mpr rfl
      simp [he, hn, hz]
  · cases hl

theorem turns_take (hs : g.scope = p) {declared : Acl} (hd : g.declaration.toAcl = .ok declared) :
    Turns p (g.statements declared false : Task σ Unit) g.Taken := by
  unfold statements
  rw [revokes_eq hd]
  refine Turns.then_pure ?_ ()
  cases hn : g.privileges.isEmpty with
  | true =>
    refine (Turns.pure ()).mono fun a b hb o => ?_
    rw [hb, hn]
    simp
  | false =>
    refine ((turns_revoke hs _).then_pure ()).mono fun a b hb o => ?_
    rw [hb o, hn]
    simp

theorem blames_take (hs : g.scope = p) {declared : Acl} (hd : g.declaration.toAcl = .ok declared) :
    Blames p g.target (g.statements declared false : Task σ Unit) := by
  unfold statements
  rw [revokes_eq hd]
  refine Blames.then_pure ?_ ()
  split
  · exact .pure _
  · exact (blames_revoke hs _).then_pure _

theorem turns_give (hs : g.scope = p) {declared : Acl} (hd : g.declaration.toAcl = .ok declared)
    (hn : g.privileges.isEmpty = false) :
    Turns p (g.statements declared true : Task σ Unit) g.Given := by
  have give (declared : Acl) (hd : g.declaration.toAcl = .ok declared) (intent : String) :
      Turns p (do
        (← declared.grants g.target).forM fun s => Catalog.change s intent : Task σ Unit)
        g.Given := by
    refine .afterOf (.ofConflict _) fun l hl => ?_
    rw [grants_eq hn hd (Task.eq_ok_of_returns hl)]
    exact (turns_grant hs _ _ _).then_pure _
  unfold statements
  rw [revokes_eq hd, hn]
  refine .bind ((turns_revoke hs _).then_pure _) (fun _ => give declared hd _) ?_
  intro a b d hb hg
  obtain ⟨hl, hi⟩ := hg
  refine ⟨hl, fun o ho => (hi o ho).trans ((hb o).trans ?_)⟩
  exact ⟨And.left, fun h => ⟨h, ho⟩⟩

/-! ## Applying -/

theorem turns_apply (regrant : Bool)
    {r : (String → Prop) → (String → Prop) → Prop}
    (h : ∀ declared, g.declaration.toAcl = .ok declared →
      Turns p (g.statements declared regrant : Task σ Unit) r) :
    Turns p (g.apply c regrant : Task σ Unit) r :=
  .after (block_owners g) fun _ => .afterOf (.ofConflict _) fun declared hd =>
    .after (.actorRole c) fun _ => .elevatedAll (h declared (Task.eq_ok_of_returns hd))

theorem blames_apply (hs : g.scope = p) :
    Blames p g.target (g.apply c false : Task σ Unit) :=
  .after (block_owners g) fun _ => .afterOf (.ofConflict _) fun _ hd =>
    .after (.actorRole c) fun _ => .elevatedAll (blames_take hs (Task.eq_ok_of_returns hd))

end Grant

end DeclaredAccess
