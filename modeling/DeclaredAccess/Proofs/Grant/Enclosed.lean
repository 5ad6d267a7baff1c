import DeclaredAccess.Proofs.Grant.Granted

/-! How the transaction in which a grant is removed ends, by what its one revoke was answered. The
elevations, the savepoints and the transaction around the revoke let its success and its failure
through. So the transaction is committed only if the revoke was answered, and if it fails because
something is missing, then this was said of the revoke or of a statement around it. -/

namespace DeclaredAccess

open DeclaredAccess.Task (Block Goes Returns goes_bind goes_pure goes_change replied)

variable {σ α β γ : Type} {s s' : Standing σ} {t u : List Exchange} {c : Client}

theorem FindsOtherMissing.mono (h : FindsOtherMissing t) (hs : t ⊆ u) : FindsOtherMissing u := by
  obtain ⟨y, hy, hm⟩ := h
  exact ⟨y, hs hy, hm⟩

namespace Task

/-- The task ends as another one inside of it does: it succeeds only where that one has succeeded.
Where it fails because something is missing, so has that one, unless something other than what
privileges are taken from was said to be missing. -/
structure Encloses (x : Task σ α) (y : Task σ β) : Prop where
  succeeds : ∀ (s : Standing σ) (t : List Exchange) (v : α) (s' : Standing σ),
    Goes x s t (.ok v) s' → ∃ s₁ u w s₂, Goes y s₁ u (.ok w) s₂ ∧ u ⊆ t
  misses : ∀ (s : Standing σ) (t : List Exchange) (f : Failure) (s' : Standing σ),
    Goes x s t (.error f) s' → f.error.isNotFound = true →
      FindsOtherMissing t ∨ ∃ s₁ u g s₂, Goes y s₁ u (.error g) s₂ ∧ g.error.isNotFound = true ∧
        u ⊆ t

namespace Encloses

theorem refl (x : Task σ α) : Encloses x x where
  succeeds _ _ _ _ hg := ⟨_, _, _, _, hg, fun _ hy => hy⟩
  misses _ _ _ _ hg hf := .inr ⟨_, _, _, _, hg, hf, fun _ hy => hy⟩

theorem trans {x : Task σ α} {y : Task σ β} {z : Task σ γ} (hx : Encloses x y)
    (hy : Encloses y z) : Encloses x z where
  succeeds s t v s' hg := by
    obtain ⟨_, _, _, _, h₁, hs₁⟩ := hx.succeeds _ _ _ _ hg
    obtain ⟨_, _, _, _, h₂, hs₂⟩ := hy.succeeds _ _ _ _ h₁
    exact ⟨_, _, _, _, h₂, fun _ hy => hs₁ (hs₂ hy)⟩
  misses s t f s' hg hf := by
    rcases hx.misses _ _ _ _ hg hf with hm | ⟨_, _, _, _, h₁, hf₁, hs₁⟩
    · exact .inl hm
    · rcases hy.misses _ _ _ _ h₁ hf₁ with hm | ⟨_, _, _, _, h₂, hf₂, hs₂⟩
      · exact .inl (hm.mono hs₁)
      · exact .inr ⟨_, _, _, _, h₂, hf₂, fun _ hy => hs₁ (hs₂ hy)⟩

theorem afterOf {x : Task σ α} {f : α → Task σ β} {y : Task σ γ} (hx : Block .asking x)
    (hf : ∀ v, Returns x v → Encloses (f v) y) : Encloses (x >>= f) y where
  succeeds s t w s' hg := by
    rcases goes_bind.mp hg with ⟨t₁, t₂, v, s₁, rfl, h₁, h₂⟩ | ⟨_, _, he⟩
    · obtain ⟨_, _, _, _, h, hs⟩ := (hf v ⟨_, _, _, h₁⟩).succeeds _ _ _ _ h₂
      exact ⟨_, _, _, _, h, fun _ hy => List.mem_append_right _ (hs hy)⟩
    · cases he
  misses s t e s' hg he := by
    rcases goes_bind.mp hg with ⟨t₁, t₂, v, s₁, rfl, h₁, h₂⟩ | ⟨_, h₁, hr⟩
    · rcases (hf v ⟨_, _, _, h₁⟩).misses _ _ _ _ h₂ he with hm | ⟨_, _, _, _, h, hg, hs⟩
      · exact .inl hm.append_right
      · exact .inr ⟨_, _, _, _, h, hg, fun _ hy => List.mem_append_right _ (hs hy)⟩
    · cases hr
      exact .inl (hx.finds_missing h₁ he)

theorem after {x : Task σ α} {f : α → Task σ β} {y : Task σ γ} (hx : Block .asking x)
    (hf : ∀ v, Encloses (f v) y) : Encloses (x >>= f) y :=
  .afterOf hx fun v _ => hf v

theorem savepoint (body : Task σ α) : Encloses (savepoint body) body where
  succeeds s t v s' hg := by
    rcases goes_savepoint.mp hg with ⟨e, _, _, hr⟩ | ⟨u, w, b, rfl, hu, _⟩ | ⟨u, f, b, _, _, hr⟩
    · cases hr
    · refine ⟨_, _, _, _, hu, fun _ hy => ?_⟩
      exact List.mem_cons_of_mem _ (List.mem_append_left _ hy)
    · cases b with
      | ok _ => cases hr
      | error e => cases hr
  misses s t f s' hg hf := by
    rcases goes_savepoint.mp hg with ⟨e, _, _, hr⟩ | ⟨u, w, b, _, _, hr⟩ | ⟨u, g, b, rfl, hu, hr⟩
    · cases hr
      cases hf
    · cases b with
      | ok _ => cases hr
      | error e => cases hr; cases hf
    · cases b with
      | error e => cases hr; cases hf
      | ok _ =>
        cases hr
        refine .inr ⟨_, _, _, _, hu, hf, fun _ hy => ?_⟩
        exact List.mem_cons_of_mem _ (List.mem_append_left _ hy)

theorem elevated (role actor : Value) (block : Task σ α) :
    Encloses (elevated role actor block) block where
  succeeds s t v s' hg := by
    have he := goes_elevated hg
    generalize ho : (Except.ok v : Except Failure α) = o at he
    cases he with
    | failed h₀ => cases ho
    | needless h₀ h =>
      rw [← ho] at h
      exact ⟨_, _, _, _, h, fun _ hy => List.mem_append_right _ hy⟩
    | refused h₀ => cases ho
    | held h₀ h =>
      obtain ⟨rfl, rows, rfl⟩ := eq_ok_of_takenBack ho.symm
      obtain ⟨_, _, _, _, h, hs⟩ := (savepoint block).succeeds _ _ _ _ h
      refine ⟨_, _, _, _, h, fun _ hy => List.mem_append_right _ ?_⟩
      exact List.mem_cons_of_mem _ (List.mem_append_left _ (hs hy))
  misses s t f s' hg hf := by
    have he := goes_elevated hg
    generalize ho : (Except.error f : Except Failure α) = o at he
    cases he with
    | failed h₀ =>
      cases ho
      exact .inl ((Block.elevationFor role actor).finds_missing h₀ hf)
    | needless h₀ h =>
      rw [← ho] at h
      exact .inr ⟨_, _, _, _, h, hf, fun _ hy => List.mem_append_right _ hy⟩
    | refused h₀ =>
      cases ho
      refine .inl (.append_right ⟨_, List.mem_cons_self, ?_, rfl⟩)
      exact DriverError.isMissing_of_isNotFound hf
    | held h₀ h =>
      rcases takenBack_missing ho hf with ⟨e, rfl, he⟩ | ⟨g, rfl, hgf⟩
      · exact .inl (.append_right (.cons (.append_right ⟨_, List.mem_cons_self, he, rfl⟩)))
      · rw [← hgf] at hf
        rcases (savepoint block).misses _ _ _ _ h hf with hm | ⟨_, _, _, _, h, hg, hs⟩
        · exact .inl (.append_right (.cons hm.append_left))
        · refine .inr ⟨_, _, _, _, h, hg, fun _ hy => List.mem_append_right _ ?_⟩
          exact List.mem_cons_of_mem _ (List.mem_append_left _ (hs hy))

theorem elevatedAll (roles : List Value) (actor : Value) (block : Task σ α) :
    Encloses (elevatedAll roles actor block) block :=
  elevatedAll_of (Q := (Encloses · block)) (refl block) (fun hx => after (.ofExcept hx))
    fun role x => (elevated role actor x).trans

theorem committed (c : Client) (name : String) (body : Task σ Unit) :
    Encloses (c.committed name body) body where
  succeeds s t v s' hg := by
    obtain ⟨t₀, s₀, peer, u, w, s₁, _, hu, _, rfl⟩ := goes_transaction_succeeds hg
    rcases goes_bind.mp hu with ⟨u₁, u₂, _, s₂, rfl, h₁, _⟩ | ⟨_, _, he⟩
    · exact ⟨_, _, _, _, h₁, fun _ hy => by simp [hy]⟩
    · cases he
  misses s t f s' hg hf := by
    obtain ⟨t₀, s₀, peer, v, w, s₁, _, h, rfl⟩ := goes_committed_missing hf hg
    exact .inr ⟨_, _, _, _, h, hf, fun _ hy => by simp [hy]⟩

end Encloses

end Task

namespace Grant

variable {g : Grant} {r : Except Failure Unit}

theorem encloses_statements {declared : Acl} (hd : g.declaration.toAcl = .ok declared) :
    Task.Encloses (c.committed g.database (g.apply c false) : Task σ Unit)
      (g.statements declared false : Task σ Unit) := by
  refine (Task.Encloses.committed c g.database _).trans ?_
  refine .after (block_owners g) fun _ => .afterOf (.ofConflict _) fun declared' hd' => ?_
  cases hd.symm.trans (Task.eq_ok_of_returns hd')
  exact .after (.actorRole c) fun _ => .elevatedAll _ _ _

/-- Where there are privileges, one revoke is sent. -/
theorem goes_statements {declared : Acl} (hd : g.declaration.toAcl = .ok declared)
    (hn : g.privileges.isEmpty = false)
    (hg : Goes (g.statements declared false : Task σ Unit) s t r s') :
    ∃ a intent, t = [⟨.execute (.change (.revokeAll g.target g.role)), a⟩] ∧
      r = (replied intent a).map fun _ => () := by
  unfold statements at hg
  rw [revokes_eq hd, hn] at hg
  simp only [Bool.false_eq_true, if_false, List.forM, bind_pure_unit] at hg
  obtain ⟨_, a, rfl, rfl⟩ := (goes_change rfl).mp hg
  exact ⟨a, _, rfl, rfl⟩

/-- A grant is removed only by its revoke. -/
theorem revoke_answered (hn : g.privileges.isEmpty = false)
    (hg : Goes (c.committed g.database (g.apply c false) : Task σ Unit) s t (.ok ()) s') :
    ∃ rows, (⟨.execute (.change (.revokeAll g.target g.role)), .ok rows⟩ : Exchange) ∈ t := by
  obtain ⟨declared, hd⟩ := g.exists_toAcl
  obtain ⟨_, _, _, _, h, hs⟩ := (encloses_statements hd).succeeds _ _ _ _ hg
  obtain ⟨a, _, rfl, hr⟩ := goes_statements hd hn h
  cases a with
  | error e => cases hr
  | ok rows => exact ⟨rows, hs List.mem_cons_self⟩

/-- Where a removal fails because something is missing, its revoke was answered so, or another
statement was. -/
theorem revoke_refused (hn : g.privileges.isEmpty = false) {f : Failure}
    (hf : f.error.isNotFound = true)
    (hg : Goes (c.committed g.database (g.apply c false) : Task σ Unit) s t (.error f) s') :
    FindsOtherMissing t ∨ ∃ e : DriverError, e.isMissing = true ∧
      (⟨.execute (.change (.revokeAll g.target g.role)), .error e⟩ : Exchange) ∈ t := by
  obtain ⟨declared, hd⟩ := g.exists_toAcl
  refine ((encloses_statements hd).misses _ _ _ _ hg hf).imp_right fun h => ?_
  obtain ⟨_, _, f', _, h, hf', hs⟩ := h
  obtain ⟨a, _, rfl, hr⟩ := goes_statements hd hn h
  cases a with
  | ok rows => cases hr
  | error e =>
    cases hr
    exact ⟨e, DriverError.isMissing_of_isNotFound hf', hs List.mem_cons_self⟩

end Grant

end DeclaredAccess
