import DeclaredAccess.Proofs.Grant.Ledger
import DeclaredAccess.Proofs.Operation.Course
import DeclaredAccess.Proofs.Session.Found

/-! What becomes of a ledger in a task that runs inside a transaction. Questions and elevations leave
it as it is, so all that happens to it are the changes that the innermost block makes. -/

namespace DeclaredAccess

variable {σ α β : Type} {s s' : Standing σ} {t : List Exchange} {p : Scope} {k k' : Ledger}

/-- Whether the exchange is an attempt to take privileges. -/
def Exchange.isRevocation : Exchange → Bool
  | ⟨.execute (.change (.revokeAll ..)), _⟩ => true
  | _ => false

/-- Something other than what the privileges are taken from was said to be missing. -/
def FindsOtherMissing (t : List Exchange) : Prop :=
  ∃ y ∈ t, y.findsMissing = true ∧ y.isRevocation = false

theorem FindsOtherMissing.append_left {u : List Exchange} (h : FindsOtherMissing t) :
    FindsOtherMissing (t ++ u) := by
  obtain ⟨y, hy, hm⟩ := h
  exact ⟨y, List.mem_append_left _ hy, hm⟩

theorem FindsOtherMissing.append_right {u : List Exchange} (h : FindsOtherMissing u) :
    FindsOtherMissing (t ++ u) := by
  obtain ⟨y, hy, hm⟩ := h
  exact ⟨y, List.mem_append_right _ hy, hm⟩

theorem FindsOtherMissing.cons {y : Exchange} (h : FindsOtherMissing t) :
    FindsOtherMissing (y :: t) :=
  .append_right (t := [y]) h

namespace Ledger

open Server (serves_append serves_cons serves_nil)

/-- Memberships are no privileges. -/
theorem follows_membership {group member : String} {rows : List Row}
    {b : Except DriverError (List Row)} {u : List Exchange}
    (h : Follows p k (⟨.execute (.change (.grantMembership [group] member)), .ok rows⟩ ::
      (u ++ [⟨.execute (.change (.revokeMembership [group] member)), b⟩])) k') :
    Follows p k u k' := by
  obtain ⟨k₁, hg, h₁⟩ := serves_cons.mp h
  obtain rfl : k₁ = k := hg
  obtain ⟨k₂, hu, h₂⟩ := serves_append.mp h₁
  obtain ⟨k₃, hr, h₃⟩ := serves_cons.mp h₂
  obtain rfl := serves_nil.mp h₃
  cases b with
  | ok rows =>
    obtain rfl : k' = k₂ := hr
    exact hu
  | error e =>
    obtain rfl : k' = k₂ := hr
    exact hu

theorem follows_locked {mode : LockMode} {u : List Exchange}
    (h : Follows p k (⟨.acquire mode, ()⟩ :: (u ++ [⟨.release mode, ()⟩])) k') :
    Follows p k u k' := by
  obtain ⟨k₁, ha, h₁⟩ := serves_cons.mp h
  obtain rfl : k₁ = k := ha
  obtain ⟨k₂, hu, h₂⟩ := serves_append.mp h₁
  obtain ⟨k₃, hr, h₃⟩ := serves_cons.mp h₂
  obtain rfl := serves_nil.mp h₃
  obtain rfl : k' = k₂ := hr
  exact hu

theorem follows_savepoint {m : Marker} {u : List Exchange}
    (h : Follows p k (⟨.mark .savepoint, .ok ()⟩ :: (u ++ [⟨.mark m, .ok ()⟩])) k') :
    ∃ k₁, Follows p (k.mark .savepoint) u k₁ ∧ k' = k₁.mark m := by
  obtain ⟨k₁, hs, h₁⟩ := serves_cons.mp h
  obtain rfl : k₁ = k.mark .savepoint := hs
  obtain ⟨k₂, hu, h₂⟩ := serves_append.mp h₁
  obtain ⟨k₃, hm, h₃⟩ := serves_cons.mp h₂
  obtain rfl := serves_nil.mp h₃
  exact ⟨k₂, hu, hm⟩

end Ledger

namespace Task

theorem Block.finds_missing {x : Task σ α} (hx : Block .asking x) {f : Failure}
    (hg : Goes x s t (.error f) s') (hf : f.error.isNotFound = true) : FindsOtherMissing t := by
  induction hx generalizing s s' t with
  | pure v => obtain ⟨_, he, _⟩ := goes_pure.mp hg; cases he
  | fail h =>
    obtain ⟨_, he, _⟩ := goes_fail.mp hg
    cases he
    rw [h] at hf
    cases hf
  | bindOf _ _ ihx ihf =>
    rcases goes_bind.mp hg with ⟨t₁, t₂, v, s₁, rfl, h₁, h₂⟩ | ⟨e, h₁, he⟩
    · exact (ihf v ⟨_, _, _, h₁⟩ h₂).append_right
    · cases he
      exact ihx h₁
  | query q intent =>
    obtain ⟨_, ⟨e, _, _, he⟩ | ⟨_, b, _, rfl, he⟩⟩ := goes_execute.mp hg
    · cases he
      cases hf
    · cases b with
      | ok rows => cases he
      | error e =>
        cases he
        exact ⟨_, List.mem_cons_self, DriverError.isMissing_of_isNotFound hf, rfl⟩
  | change h _ => exact h.elim
  | elevated h _ _ _ _ => exact h.elim
  | version h _ => exact h.elim
  | changeWork h _ => exact h.elim

/-! ## What is held -/

/-- In a transaction on the scope's database the task, where it succeeds, turns what is held by
`r`. -/
def Turns (p : Scope) (x : Task σ α) (r : (String → Prop) → (String → Prop) → Prop) : Prop :=
  ∀ (s : Standing σ) (t : List Exchange) (v : α) (s' : Standing σ) (k k' : Ledger),
    Goes x s t (.ok v) s' → Ledger.Follows p k t k' → k.database = p.database →
      k.pending ≠ [] → ∃ h, r k.seen h ∧ k' = k.write h

/-- Where the task fails because something is missing, either this was not said of what privileges
were to be taken from, or nothing is held on part of the target. -/
def Blames (p : Scope) (target : Target) (x : Task σ α) : Prop :=
  ∀ (s : Standing σ) (t : List Exchange) (f : Failure) (s' : Standing σ) (k k' : Ledger),
    Goes x s t (.error f) s' → f.error.isNotFound = true → Ledger.Follows p k t k' →
      k.database = p.database → FindsOtherMissing t ∨ k.Lacks target

section

variable {r r' r'' : (String → Prop) → (String → Prop) → Prop} {target : Target}

theorem Turns.mono {x : Task σ α} (hx : Turns p x r) (h : ∀ a b, r a b → r' a b) :
    Turns p x r' := by
  intro s t v s' k k' hg hk hc hp
  obtain ⟨held, hr, rfl⟩ := hx _ _ _ _ _ _ hg hk hc hp
  exact ⟨held, h _ _ hr, rfl⟩

theorem Turns.pure (v : α) : Turns p (pure v : Task σ α) fun a b => b = a := by
  intro s t w s' k k' hg hk _ hp
  obtain ⟨rfl, _⟩ := goes_pure.mp hg
  exact ⟨k.seen, rfl, (Server.serves_nil.mp hk).trans (Stack.write_seen hp).symm⟩

theorem Turns.bind {x : Task σ α} {f : α → Task σ β} (hx : Turns p x r)
    (hf : ∀ v, Turns p (f v) r') (h : ∀ a b d, r a b → r' b d → r'' a d) :
    Turns p (x >>= f) r'' := by
  intro s t w s' k k' hg hk hc hp
  rcases goes_bind.mp hg with ⟨t₁, t₂, v, s₁, rfl, h₁, h₂⟩ | ⟨_, _, he⟩
  · obtain ⟨k₁, hk₁, hk₂⟩ := Server.serves_append.mp hk
    obtain ⟨held₁, hr₁, rfl⟩ := hx _ _ _ _ _ _ h₁ hk₁ hc hp
    obtain ⟨held₂, hr₂, rfl⟩ := hf v _ _ _ _ _ _ h₂ hk₂ hc (List.cons_ne_nil _ _)
    exact ⟨held₂, h _ _ _ hr₁ hr₂, rfl⟩
  · cases he

theorem Turns.then_pure {x : Task σ α} (hx : Turns p x r) (v : β) :
    Turns p (x >>= fun _ => Pure.pure v) r := by
  refine .bind hx (fun _ => .pure v) ?_
  intro a b _ h he
  obtain rfl := he
  exact h

theorem Blames.pure (v : α) : Blames p target (pure v : Task σ α) := by
  intro s t f s' k k' hg
  obtain ⟨_, he, _⟩ := goes_pure.mp hg
  cases he

theorem Blames.then_pure {x : Task σ α} (hx : Blames p target x) (v : β) :
    Blames p target (x >>= fun _ => Pure.pure v) := by
  intro s t f s' k k' hg hf hk hc
  rcases goes_bind.mp hg with ⟨_, _, _, _, _, _, h⟩ | ⟨e, h, he⟩
  · obtain ⟨_, he, _⟩ := goes_pure.mp h
    cases he
  · cases he
    exact hx _ _ _ _ _ _ h hf hk hc

theorem Turns.afterOf {x : Task σ α} {f : α → Task σ β} (hx : Block .asking x)
    (hf : ∀ v, Returns x v → Turns p (f v) r) : Turns p (x >>= f) r := by
  intro s t w s' k k' hg hk hc hp
  rcases goes_bind.mp hg with ⟨t₁, t₂, v, s₁, rfl, h₁, h₂⟩ | ⟨_, _, he⟩
  · obtain ⟨k₁, hk₁, hk₂⟩ := Server.serves_append.mp hk
    obtain rfl := Ledger.eq_of_questions hk₁ (hx.asks h₁).2
    exact hf v ⟨_, _, _, h₁⟩ _ _ _ _ _ _ h₂ hk₂ hc hp
  · cases he

theorem Turns.after {x : Task σ α} {f : α → Task σ β} (hx : Block .asking x)
    (hf : ∀ v, Turns p (f v) r) : Turns p (x >>= f) r :=
  .afterOf hx fun v _ => hf v

theorem Blames.afterOf {x : Task σ α} {f : α → Task σ β} (hx : Block .asking x)
    (hf : ∀ v, Returns x v → Blames p target (f v)) : Blames p target (x >>= f) := by
  intro s t e s' k k' hg he hk hc
  rcases goes_bind.mp hg with ⟨t₁, t₂, v, s₁, rfl, h₁, h₂⟩ | ⟨_, h₁, hr⟩
  · obtain ⟨k₁, hk₁, hk₂⟩ := Server.serves_append.mp hk
    obtain rfl := Ledger.eq_of_questions hk₁ (hx.asks h₁).2
    exact (hf v ⟨_, _, _, h₁⟩ _ _ _ _ _ _ h₂ he hk₂ hc).imp (·.append_right) fun h => h
  · cases hr
    exact .inl (hx.finds_missing h₁ he)

theorem Blames.after {x : Task σ α} {f : α → Task σ β} (hx : Block .asking x)
    (hf : ∀ v, Blames p target (f v)) : Blames p target (x >>= f) :=
  .afterOf hx fun v _ => hf v

/-- Memberships are no privileges, and a savepoint that is released keeps what was done in it. -/
theorem Turns.elevated {role actor : Value} {block : Task σ α} (hb : Turns p block r) :
    Turns p (elevated role actor block) r := by
  intro s t v s' k k' hg hk hc hp
  have he := goes_elevated hg
  generalize ho : (Except.ok v : Except Failure α) = o at he
  cases he with
  | failed h₀ => cases ho
  | needless h₀ h =>
    obtain ⟨k₁, hk₁, hk₂⟩ := Server.serves_append.mp hk
    obtain rfl := Ledger.eq_of_questions hk₁ ((Block.elevationFor role actor).asks h₀).2
    rw [← ho] at h
    exact hb _ _ _ _ _ _ h hk₂ hc hp
  | refused h₀ => cases ho
  | held h₀ h =>
    obtain ⟨rfl, rows, rfl⟩ := eq_ok_of_takenBack ho.symm
    obtain ⟨k₁, hk₁, hm⟩ := Server.serves_append.mp hk
    obtain rfl := Ledger.eq_of_questions hk₁ ((Block.elevationFor role actor).asks h₀).2
    have hs := Ledger.follows_membership hm
    rcases goes_savepoint.mp h with ⟨e, _, _, hr⟩ | ⟨u, w, b, rfl, hu, hr⟩ | ⟨u, f, b, _, _, hr⟩
    · cases hr
    · cases b with
      | error e => cases hr
      | ok _ =>
        cases hr
        obtain ⟨k₂, hk₂, rfl⟩ := Ledger.follows_savepoint hs
        obtain ⟨held, hr, rfl⟩ := hb _ _ _ _ _ _ hu hk₂ hc (List.cons_ne_nil _ _)
        exact ⟨held, hr, rfl⟩
    · cases b with
      | error e => cases hr
      | ok _ => cases hr

theorem Blames.elevated {role actor : Value} {block : Task σ α} (hb : Blames p target block) :
    Blames p target (elevated role actor block) := by
  intro s t f s' k k' hg hf hk hc
  have he := goes_elevated hg
  generalize ho : (Except.error f : Except Failure α) = o at he
  cases he with
  | failed h₀ =>
    cases ho
    exact .inl ((Block.elevationFor role actor).finds_missing h₀ hf)
  | needless h₀ h =>
    obtain ⟨k₁, hk₁, hk₂⟩ := Server.serves_append.mp hk
    obtain rfl := Ledger.eq_of_questions hk₁ ((Block.elevationFor role actor).asks h₀).2
    rw [← ho] at h
    exact (hb _ _ _ _ _ _ h hf hk₂ hc).imp (·.append_right) fun h => h
  | refused h₀ =>
    cases ho
    refine .inl (.append_right ⟨_, List.mem_cons_self, ?_, rfl⟩)
    exact DriverError.isMissing_of_isNotFound hf
  | held h₀ h =>
    obtain ⟨k₁, hk₁, hm⟩ := Server.serves_append.mp hk
    obtain rfl := Ledger.eq_of_questions hk₁ ((Block.elevationFor role actor).asks h₀).2
    have hs := Ledger.follows_membership hm
    rcases takenBack_missing ho hf with ⟨e, rfl, he⟩ | ⟨g, rfl, hgf⟩
    · exact .inl (.append_right (.cons (.append_right ⟨_, List.mem_cons_self, he, rfl⟩)))
    · rw [← hgf] at hf
      rcases goes_savepoint.mp h with ⟨e, _, _, hr⟩ | ⟨u, w, b, _, _, hr⟩ | ⟨u, f, b, rfl, hu, hr⟩
      · cases hr
        cases hf
      · cases b with
        | error e => cases hr; cases hf
        | ok _ => cases hr
      · cases b with
        | error e => cases hr; cases hf
        | ok _ =>
          cases hr
          obtain ⟨k₂, hk₂, _⟩ := Ledger.follows_savepoint hs
          refine (hb _ _ _ _ _ _ hu hf hk₂ hc).imp (fun h => ?_) fun h => h
          exact .append_right (.cons (.append_left (.cons (.append_left h))))

theorem Turns.elevatedAll {roles : List Value} {actor : Value} {block : Task σ α}
    (hb : Turns p block r) : Turns p (elevatedAll roles actor block) r :=
  elevatedAll_of (Q := (Turns p · r)) hb (fun hx => .after (.ofExcept hx)) fun _ _ => .elevated

theorem Blames.elevatedAll {roles : List Value} {actor : Value} {block : Task σ α}
    (hb : Blames p target block) : Blames p target (elevatedAll roles actor block) :=
  elevatedAll_of (Q := Blames p target) hb (fun hx => .after (.ofExcept hx)) fun _ _ => .elevated

end

end Task

/-! ## Transactions -/

namespace Ledger

open Server (serves_append serves_cons serves_nil)

/-- Between its begin and its end a transaction is what its body and the rollback make of it. -/
theorem follows_transaction {c : Client} {name database : String} {peer : Peer}
    {t₀ v w : List Exchange} (he : EngineSetUp c name s t₀ s')
    (h : Follows p k (t₀ ++ ⟨.connect database, .ok peer⟩ ::
      (⟨.mark .begin, .ok ()⟩ :: (v ++ w) ++ [⟨.disconnect, ()⟩])) k') :
    ∃ k₁ k₂, Follows p (k.begun database) v k₁ ∧ Follows p k₁ w k₂ ∧ k'.kept = k₂.kept := by
  obtain ⟨k₀, h₀, h₁⟩ := serves_append.mp h
  have hk : k₀ = k := by
    cases he with
    | known _ => exact serves_nil.mp h₀
    | new _ =>
      obtain ⟨k₁, ho, hn⟩ := serves_cons.mp h₀
      exact (serves_nil.mp hn).trans ho
  subst hk
  obtain ⟨k₁, hc, h₂⟩ := serves_cons.mp h₁
  obtain rfl : k₁ = k₀.opened database := hc
  obtain ⟨k₂, h₃, h₄⟩ := serves_append.mp h₂
  obtain ⟨k₃, hb, h₅⟩ := serves_cons.mp h₃
  obtain rfl : k₃ = k₀.begun database := hb
  obtain ⟨k₄, hv, hw⟩ := serves_append.mp h₅
  obtain ⟨k₅, hd, h₆⟩ := serves_cons.mp h₄
  obtain rfl := serves_nil.mp h₆
  obtain rfl : k' = k₂.closed := hd
  exact ⟨k₄, k₂, hv, hw, rfl⟩

end Ledger

namespace Task

variable {c : Client} {name : String} {r : (String → Prop) → (String → Prop) → Prop}

/-- A transaction that succeeds has kept for good what its body held for good. -/
theorem goes_transaction_ok {body : Task σ α} {v : α}
    (hg : Goes (c.transaction name body) s t (.ok v) s') (hk : Ledger.Follows p k t k') :
    ∃ s₀ u s₁ k₁, Goes body s₀ u (.ok v) s₁ ∧
      Ledger.Follows p (k.begun (c.databaseOr name)) u k₁ ∧ k'.kept = k₁.kept := by
  obtain ⟨t₀, s₀, peer, u, w, s₁, he, hu, hw, rfl⟩ := goes_transaction_succeeds hg
  obtain ⟨k₁, k₂, h₁, h₂, hh⟩ := Ledger.follows_transaction he hk
  exact ⟨_, u, s₁, k₁, hu, h₁, hh.trans (Ledger.kept_of_uncommitted h₂ (rollback_uncommitted hw))⟩

theorem goes_committed_ok {body : Task σ Unit} (hb : Turns p body r)
    (hn : c.databaseOr name = p.database)
    (hg : Goes (c.committed name body) s t (.ok ()) s') (hk : Ledger.Follows p k t k') :
    r k.kept k'.kept := by
  obtain ⟨s₀, u, s₁, k₁, h, hu, hh⟩ := goes_transaction_ok hg hk
  rcases goes_bind.mp h with ⟨u₁, u₂, _, s₂, rfl, h₁, h₂⟩ | ⟨_, _, he⟩
  · obtain ⟨_, b, rfl, hc⟩ := goes_commit.mp h₂
    cases b with
    | error e => cases hc
    | ok _ =>
      obtain ⟨k₂, hk₁, hk₂⟩ := Server.serves_append.mp hu
      obtain ⟨held, hr, rfl⟩ := hb _ _ _ _ _ _ h₁ hk₁ hn (List.cons_ne_nil _ _)
      obtain ⟨k₃, hm, hn⟩ := Server.serves_cons.mp hk₂
      obtain rfl := Server.serves_nil.mp hn
      obtain rfl : k₁ = Stack.mark _ .commit := hm
      rw [hh]
      exact hr
  · cases he

theorem committed_blames {body : Task σ Unit} {target : Target} (hb : Blames p target body)
    (hn : c.databaseOr name = p.database) {f : Failure} (hf : f.error.isNotFound = true)
    (hg : Goes (c.committed name body) s t (.error f) s') (hk : Ledger.Follows p k t k') :
    FindsOtherMissing t ∨ (∀ o, ¬k.kept o) ∨ ∃ o ∈ target.objects, ¬k.kept o := by
  obtain ⟨t₀, s₀, peer, v, w, s₁, he, h, rfl⟩ := goes_committed_missing hf hg
  obtain ⟨k₁, _, hk₁, _⟩ := Ledger.follows_transaction he hk
  refine (hb _ _ _ _ _ _ h hf hk₁ hn).imp (fun h => ?_) fun h => h
  exact .append_right (.cons (.append_left (.cons (.append_left h))))

end Task

end DeclaredAccess
