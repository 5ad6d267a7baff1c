import DeclaredAccess.Proofs.Session.Throughout

/-! Where policies are dealt with inside a task. A schema's policies are moved by a part of an
operation, with elevations, savepoints, a transaction and the lock around it, and with other
statements before and after it. None of these asks whether a role exists or gives or takes
privileges, so what an operation does about policies is what that part of it does. -/

namespace DeclaredAccess

variable {σ α β γ : Type} {s s' : Standing σ} {t u : List Exchange} {c : Client}

/-- Whether a policy is dealt with: it is asked whether a role exists, or privileges are given to
one or taken from one. -/
def Exchange.isPolicy : Exchange → Bool
  | ⟨.execute (.query (.roleExists _)), _⟩ => true
  | ⟨.execute (.change (.grant ..)), _⟩ => true
  | ⟨.execute (.change (.revokeAll ..)), _⟩ => true
  | _ => false

/-- What is done about policies. -/
def policyPart (t : List Exchange) : List Exchange := t.filter Exchange.isPolicy

@[simp] theorem policyPart_nil : policyPart [] = [] := rfl

@[simp] theorem policyPart_append (t u : List Exchange) :
    policyPart (t ++ u) = policyPart t ++ policyPart u :=
  List.filter_append t u

theorem policyPart_cons {y : Exchange} (h : y.isPolicy = false) :
    policyPart (y :: t) = policyPart t :=
  List.filter_cons_of_neg (by simp [h])

theorem mem_policyPart {y : Exchange} : y ∈ policyPart t ↔ y ∈ t ∧ y.isPolicy = true :=
  List.mem_filter

namespace Task

/-- However it goes, the task leaves policies alone. -/
def Silent (x : Task σ α) : Prop := Throughout (fun y => y.isPolicy = false) x

theorem Silent.part {x : Task σ α} (h : Silent x) {r : Except Failure α} (hg : Goes x s t r s') :
    policyPart t = [] :=
  List.filter_eq_nil_iff.mpr fun y hy => by simp [h _ _ _ _ hg y hy]

theorem silent_elevationFor (role actor : Value) :
    Silent (elevationFor role actor : Task σ (Option (String × String))) :=
  Throughout.stepwise.elevationFor (fun _ => rfl) fun _ => rfl

theorem silent_rollback : Silent (rollback : Task σ Unit) :=
  Throughout.stepwise.rollback fun _ _ _ => rfl

theorem silent_commit : Silent (commit : Task σ Unit) := Throughout.stepwise.commit fun _ => rfl

theorem policyPart_setUp {name : String} (h : EngineSetUp c name s t s') : policyPart t = [] := by
  cases h with
  | known _ => rfl
  | new _ => rfl

/-- What a task does about policies is done by another one inside of it. The task succeeds only
where it goes through that one and that one succeeds. -/
def Wraps (x : Task σ α) (y : Task σ β) : Prop :=
  ∀ (s : Standing σ) (t : List Exchange) (r : Except Failure α) (s' : Standing σ),
    Goes x s t r s' → (policyPart t = [] ∧ ∀ v, r ≠ .ok v) ∨
      ∃ s₁ u o s₂, Goes y s₁ u o s₂ ∧ policyPart t = policyPart u ∧
        ∀ v, r = .ok v → ∃ w, o = .ok w

namespace Wraps

theorem refl (x : Task σ α) : Wraps x x :=
  fun _ _ _ _ hg => .inr ⟨_, _, _, _, hg, rfl, fun v hv => ⟨v, hv⟩⟩

theorem trans {x : Task σ α} {y : Task σ β} {z : Task σ γ} (hx : Wraps x y) (hy : Wraps y z) :
    Wraps x z := by
  intro s t r s' hg
  rcases hx _ _ _ _ hg with h | ⟨_, u, o, _, h₁, hu, ho⟩
  · exact .inl h
  · rcases hy _ _ _ _ h₁ with ⟨hn, hne⟩ | ⟨_, w, o', _, h₂, hw, ho'⟩
    · refine .inl ⟨hu.trans hn, fun v hv => ?_⟩
      obtain ⟨w, hw⟩ := ho v hv
      exact hne w hw
    · refine .inr ⟨_, w, o', _, h₂, hu.trans hw, fun v hv => ?_⟩
      obtain ⟨w, hw⟩ := ho v hv
      exact ho' w hw

/-- A task leaves policies alone if the one inside of it does. -/
theorem silent {x : Task σ α} {y : Task σ β} (h : Wraps x y) (hy : Silent y) : Silent x := by
  intro s t r s' hg z hz
  refine Bool.eq_false_iff.mpr fun hp => ?_
  have part : policyPart t = [] := by
    rcases h _ _ _ _ hg with ⟨hn, _⟩ | ⟨_, _, _, _, h₁, hu, _⟩
    · exact hn
    · exact hu.trans (hy.part h₁)
  have inside : z ∈ policyPart t := mem_policyPart.mpr ⟨hz, hp⟩
  rw [part] at inside
  cases inside

theorem after {x : Task σ α} {f : α → Task σ β} {y : Task σ γ} (hx : Silent x)
    (hf : ∀ v, Wraps (f v) y) : Wraps (x >>= f) y := by
  intro s t r s' hg
  rcases goes_bind.mp hg with ⟨t₁, t₂, v, s₁, rfl, h₁, h₂⟩ | ⟨e, h₁, rfl⟩
  · rw [policyPart_append, hx.part h₁]
    exact hf v _ _ _ _ h₂
  · exact .inl ⟨hx.part h₁, fun _ hv => nomatch hv⟩

theorem before {x : Task σ α} {f : α → Task σ β} {y : Task σ γ} (hx : Wraps x y)
    (hf : ∀ v, Silent (f v)) : Wraps (x >>= f) y := by
  intro s t r s' hg
  rcases goes_bind.mp hg with ⟨t₁, t₂, v, s₁, rfl, h₁, h₂⟩ | ⟨e, h₁, rfl⟩
  · rw [policyPart_append, (hf v).part h₂, List.append_nil]
    rcases hx _ _ _ _ h₁ with ⟨_, hne⟩ | ⟨_, u, o, _, h, hu, ho⟩
    · exact absurd rfl (hne v)
    · exact .inr ⟨_, u, o, _, h, hu, fun _ _ => ho v rfl⟩
  · rcases hx _ _ _ _ h₁ with ⟨hn, _⟩ | ⟨_, u, o, _, h, hu, _⟩
    · exact .inl ⟨hn, fun _ hv => nomatch hv⟩
    · exact .inr ⟨_, u, o, _, h, hu, fun _ hv => nomatch hv⟩

theorem whenThen {p : Prop} [Decidable p] {x : Task σ Unit} {f : Unit → Task σ α} {y : Task σ β}
    (hx : Silent x) (hf : ∀ v, Wraps (f v) y) : Wraps (if p then x >>= f else f ()) y := by
  split
  · exact .after hx hf
  · exact hf ()

/-- What stands around a block on both sides. -/
theorem policyPart_between {y z : Exchange} (hy : y.isPolicy = false) (hz : z.isPolicy = false) :
    policyPart (y :: (u ++ [z])) = policyPart u := by
  rw [policyPart_cons hy, policyPart_append, policyPart_cons hz, policyPart_nil, List.append_nil]

theorem savepoint (body : Task σ α) : Wraps (savepoint body) body := by
  intro s t r s' hg
  rcases goes_savepoint.mp hg with ⟨e, rfl, _, rfl⟩ | ⟨u, v, a, rfl, h, _⟩ | ⟨u, f, a, rfl, h, rfl⟩
  · exact .inl ⟨rfl, fun _ hv => nomatch hv⟩
  · exact .inr ⟨_, u, _, _, h, policyPart_between rfl rfl, fun _ _ => ⟨v, rfl⟩⟩
  · refine .inr ⟨_, u, _, _, h, policyPart_between rfl rfl, fun _ hv => ?_⟩
    cases a with
    | ok _ => cases hv
    | error e => cases hv

theorem elevated (role actor : Value) (block : Task σ α) :
    Wraps (elevated role actor block) block := by
  have asked := silent_elevationFor (σ := σ) role actor
  intro s t r s' hg
  cases goes_elevated hg with
  | failed h₀ => exact .inl ⟨asked.part h₀, fun _ hv => nomatch hv⟩
  | needless h₀ h =>
    refine .inr ⟨_, _, _, _, h, ?_, fun v hv => ⟨v, hv⟩⟩
    rw [policyPart_append, asked.part h₀, List.nil_append]
  | refused h₀ =>
    refine .inl ⟨?_, fun _ hv => nomatch hv⟩
    rw [policyPart_append, asked.part h₀]
    rfl
  | held h₀ h =>
    rw [policyPart_append, asked.part h₀, List.nil_append, policyPart_between rfl rfl]
    rcases savepoint block _ _ _ _ h with ⟨hn, hne⟩ | ⟨_, w, o, _, hw, hu, ho⟩
    · exact .inl ⟨hn, fun v hv => hne v (eq_ok_of_takenBack hv).1⟩
    · exact .inr ⟨_, w, o, _, hw, hu, fun v hv => ho v (eq_ok_of_takenBack hv).1⟩

theorem elevatedAll (roles : List Value) (actor : Value) (block : Task σ α) :
    Wraps (elevatedAll roles actor block) block :=
  elevatedAll_of (Q := (Wraps · block)) (refl block) (fun _ => after (.ofExcept _)) fun role x =>
    (elevated role actor x).trans

theorem transaction (c : Client) (name : String) (body : Task σ α) :
    Wraps (c.transaction name body) body := by
  intro s t r s' hg
  obtain ⟨t₀, s₀, hs, ⟨e, rfl, _, rfl⟩ | ⟨peer, x, rfl, h⟩⟩ := goes_transaction hg
  · refine .inl ⟨?_, fun _ hv => nomatch hv⟩
    rw [policyPart_append, policyPart_setUp hs]
    rfl
  · rw [policyPart_append, policyPart_setUp hs, List.nil_append, policyPart_between rfl rfl]
    rcases h with ⟨_, rfl, _, rfl, _⟩ | ⟨_, rfl, _, rfl⟩ | ⟨v, w, o, o', s₁, rfl, hv, hw, rfl⟩
    · exact .inl ⟨rfl, fun _ hv => nomatch hv⟩
    · exact .inl ⟨rfl, fun _ hv => nomatch hv⟩
    · refine .inr ⟨_, v, o, _, hv, ?_, fun a ha => ?_⟩
      · rw [policyPart_cons rfl, policyPart_append, silent_rollback.part hw, List.append_nil]
      · cases o' with
        | ok _ => exact ⟨a, ha⟩
        | error f => cases ha

theorem committed (c : Client) (name : String) (body : Task σ Unit) :
    Wraps (c.committed name body) body :=
  (transaction c name _).trans (.before (.refl body) fun _ => silent_commit)

theorem locked (mode : LockMode) (body : Task σ α) : Wraps (locked mode body) body := by
  intro s t r s' hg
  obtain ⟨u, rfl, h⟩ := goes_locked.mp hg
  exact .inr ⟨_, u, r, _, h, policyPart_between rfl rfl, fun v hv => ⟨v, hv⟩⟩

end Wraps

end Task

end DeclaredAccess
