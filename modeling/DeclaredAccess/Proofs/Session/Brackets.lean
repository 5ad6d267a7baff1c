import DeclaredAccess.Proofs.Session.Inversion

/-! The tasks that do something before and after another one: connections, transactions, the
catalog lock and elevations. What they do afterwards is done on every way out of the task
between. -/

namespace DeclaredAccess

variable {σ α β : Type} {s s' : Standing σ} {t : List Exchange}

theorem Client.databaseOr_of_ne (c : Client) {name : String} (h : name ≠ "") :
    c.databaseOr name = name := by
  unfold databaseOr
  exact if_neg (by simpa using h)

theorem Client.defaultDatabase_ne_empty (c : Client) : c.defaultDatabase ≠ "" := by
  unfold defaultDatabase
  split
  · split
    · decide
    · rename_i h
      simpa using h
  · decide

/-- `EngineSetUp c name s t s'`: the connections to a database are set up, or have been before. -/
inductive EngineSetUp (c : Client) (name : String) (s : Standing σ) :
    List Exchange → Standing σ → Prop
  | known {n : Nat} (h : s.session.engines.get? (c.databaseOr name) = some n) :
    EngineSetUp c name s [] s
  | new (h : s.session.engines.get? (c.databaseOr name) = none) :
    EngineSetUp c name s [⟨.openEngine (c.databaseOr name) c.poolOptions, ()⟩]
      { s with session := { s.session with
          engines := s.session.engines.put (c.databaseOr name) s.session.engineCount
          engineCount := s.session.engineCount + 1 } }

namespace Task

/-! ## Connections -/

theorem goes_engine {c : Client} {name : String} {r : Except Failure Nat}
    (h : Goes (c.engine name) s t r s') : EngineSetUp c name s t s' ∧ ∃ n, r = .ok n := by
  unfold Client.engine at h
  rw [goes_session_bind] at h
  cases he : s.session.engines.get? (c.databaseOr name) with
  | some n =>
    rw [he] at h
    obtain ⟨rfl, rfl, rfl⟩ := goes_pure.mp h
    exact ⟨.known he, n, rfl⟩
  | none =>
    rw [he] at h
    obtain ⟨_, u, rfl, hn⟩ := goes_ask_bind.mp h
    rw [goes_changeSession_bind] at hn
    obtain ⟨rfl, rfl, rfl⟩ := goes_pure.mp hn
    exact ⟨.new he, _, rfl⟩

/-- A connection is refused, or it is open while the body runs and closed after it. -/
theorem goes_connected {c : Client} {name : String} {body : Peer → Task σ α}
    {r : Except Failure α} (h : Goes (c.connected name body) s t r s') :
    ∃ t₀ s₀, EngineSetUp c name s t₀ s₀ ∧
      ((∃ e, t = t₀ ++ [⟨.connect (c.databaseOr name), .error e⟩] ∧ s' = s₀ ∧
          r = .error (Failure.of (.database e))) ∨
        ∃ peer u, t = t₀ ++ ⟨.connect (c.databaseOr name), .ok peer⟩ :: (u ++ [⟨.disconnect, ()⟩]) ∧
          Goes (body peer) s₀ u r s') := by
  unfold Client.connected at h
  have hd : ∀ {u o s₁}, Goes (discard (c.engine name)) s u o s₁ →
      EngineSetUp c name s u s₁ ∧ o = .ok () := by
    intro u o s₁ h₀
    rcases goes_bind.mp h₀ with ⟨u₁, u₂, n, s₂, rfl, hn, hp⟩ | ⟨f, hn, rfl⟩
    · obtain ⟨rfl, rfl, rfl⟩ := goes_pure.mp hp
      exact ⟨by simpa using (goes_engine hn).1, rfl⟩
    · obtain ⟨_, n, hr⟩ := goes_engine hn
      cases hr
  rcases goes_bind.mp h with ⟨t₀, t₁, _, s₀, rfl, h₀, h₁⟩ | ⟨f, h₀, rfl⟩
  · refine ⟨t₀, s₀, (hd h₀).1, ?_⟩
    obtain ⟨a, u, rfl, h₂⟩ := goes_ask_bind.mp h₁
    cases a with
    | error e =>
      obtain ⟨rfl, rfl, rfl⟩ := goes_fail.mp h₂
      exact .inl ⟨e, rfl, rfl, rfl⟩
    | ok peer =>
      obtain ⟨u₁, u₂, o, s₁, w, rfl, hb, hc, rfl⟩ := goes_andFinally.mp h₂
      obtain ⟨a, rfl, rfl, rfl⟩ := goes_ask.mp hc
      exact .inr ⟨peer, u₁, rfl, hb⟩
  · cases (hd h₀).2

/-- The version is known, or the server is asked for it; that can fail, and what is learnt then is
kept. -/
theorem goes_version {c : Client} {r : Except Failure Version}
    (h : Goes (c.version : Task σ Version) s t r s') :
    (∃ v, s.session.version = some v ∧ t = [] ∧ r = .ok v ∧ s' = s) ∨
      ∃ t₀ s₀, s.session.version = none ∧ EngineSetUp c "" s t₀ s₀ ∧
        ((∃ e, t = t₀ ++ [⟨.connect (c.databaseOr ""), .error e⟩] ∧ s' = s₀ ∧
            r = .error (Failure.of (.database e))) ∨
          ∃ peer v, t = t₀ ++ [⟨.connect (c.databaseOr ""), .ok peer⟩, ⟨.disconnect, ()⟩] ∧
            r = .ok v ∧ s' = { s₀ with session := { s₀.session with version := some v } }) := by
  unfold Client.version at h
  rw [goes_session_bind] at h
  cases hv : s.session.version with
  | some v =>
    rw [hv] at h
    obtain ⟨rfl, rfl, rfl⟩ := goes_pure.mp h
    exact .inl ⟨v, rfl, rfl, rfl, rfl⟩
  | none =>
    rw [hv] at h
    refine .inr ?_
    rcases goes_bind.mp h with ⟨t₁, t₂, reported, s₁, rfl, hc, hr⟩ | ⟨f, hc, rfl⟩
    · obtain ⟨t₀, s₀, he, ⟨e, rfl, rfl, ho⟩ | ⟨peer, u, rfl, hb⟩⟩ := goes_connected hc
      · cases ho
      · obtain ⟨rfl, ho, rfl⟩ := goes_pure.mp hb
        dsimp only at hr
        rw [goes_changeSession_bind] at hr
        obtain ⟨rfl, rfl, rfl⟩ := goes_pure.mp hr
        exact ⟨t₀, s₁, rfl, he, .inr ⟨peer, _, by simp, rfl, rfl⟩⟩
    · obtain ⟨t₀, s₀, he, ⟨e, rfl, rfl, ho⟩ | ⟨peer, u, rfl, hb⟩⟩ := goes_connected hc
      · cases ho
        exact ⟨t₀, _, rfl, he, .inl ⟨e, rfl, rfl, rfl⟩⟩
      · obtain ⟨_, ho, _⟩ := goes_pure.mp hb
        cases ho

section

variable {κ : Type} {f : κ → Exchange → Option κ} {k : κ}

/-- A monitor of the exchanges to which it means nothing that engines are set up. -/
theorem setUp_foldlM {c : Client} {name : String} (h : EngineSetUp c name s t s')
    (ho : ∀ d o, f k ⟨.openEngine d o, ()⟩ = some k) : t.foldlM f k = some k := by
  cases h with
  | known _ => rfl
  | new _ =>
    rw [List.foldlM_cons, ho]
    rfl

/-- The connection on which the version is asked for carries no transaction, so it means nothing to
a monitor of transactions. -/
theorem version_foldlM {c : Client} {r : Except Failure Version}
    (h : Goes (c.version : Task σ Version) s t r s')
    (ho : ∀ d o, f k ⟨.openEngine d o, ()⟩ = some k)
    (he : ∀ d e, f k ⟨.connect d, .error e⟩ = some k)
    (hc : ∀ d p, [⟨.connect d, .ok p⟩, ⟨.disconnect, ()⟩].foldlM f k = some k) :
    t.foldlM f k = some k := by
  rcases goes_version h with ⟨v, _, rfl, _⟩ | ⟨t₀, s₀, _, hs, ⟨e, rfl, _⟩ | ⟨peer, v, rfl, _⟩⟩
  · rfl
  · rw [List.foldlM_append, setUp_foldlM hs ho]
    show (f k _).bind _ = _
    rw [he]
    rfl
  · rw [List.foldlM_append, setUp_foldlM hs ho]
    exact hc _ _

end

/-! ## Transactions -/

/-- A server is refused for its dialect or for its driver. -/
theorem Peer.eq_of_check {peer : Peer} {e : Error} (h : peer.check = .error e) :
    e = .dialect peer.dialect ∨ e = .driver peer.driver := by
  unfold Peer.check at h
  split at h
  · exact .inl (Except.error.inj h).symm
  · split at h
    · exact .inr (Except.error.inj h).symm
    · cases h

/-- A transaction is refused with its connection or at its begin, or its body runs in it. Then it
ends where the body ended it, or else by a rollback. -/
theorem goes_transaction {c : Client} {name : String} {body : Task σ α} {r : Except Failure α}
    (h : Goes (c.transaction name body) s t r s') :
    ∃ t₀ s₀, EngineSetUp c name s t₀ s₀ ∧
      ((∃ e, t = t₀ ++ [⟨.connect (c.databaseOr name), .error e⟩] ∧ s' = s₀ ∧
          r = .error (Failure.of (.database e))) ∨
        ∃ peer u, t = t₀ ++ ⟨.connect (c.databaseOr name), .ok peer⟩ :: (u ++ [⟨.disconnect, ()⟩]) ∧
          ((∃ e, u = [] ∧ s' = s₀ ∧ r = .error (Failure.of e) ∧ peer.check = .error e) ∨
            (∃ e, u = [⟨.mark .begin, .error e⟩] ∧ s' = s₀ ∧
              r = .error (Failure.of (.database e))) ∨
            ∃ v w o o' s₁, u = ⟨.mark .begin, .ok ()⟩ :: (v ++ w) ∧ Goes body (s₀.within true) v o s₁ ∧
              Goes rollback s₁ w o' s' ∧ r = o'.bind fun _ => o)) := by
  unfold Client.transaction at h
  obtain ⟨t₀, s₀, he, hr | ⟨peer, u, rfl, hb⟩⟩ := goes_connected h
  · exact ⟨t₀, s₀, he, .inl hr⟩
  · refine ⟨t₀, s₀, he, .inr ⟨peer, u, rfl, ?_⟩⟩
    rcases goes_bind.mp hb with ⟨u₁, u₂, _, s₁, rfl, hc, hn⟩ | ⟨f, hc, rfl⟩
    · obtain ⟨rfl, rfl, _⟩ := goes_ofExcept.mp hc
      rcases goes_bind.mp hn with ⟨u₃, u₄, _, s₂, rfl, hm, hx⟩ | ⟨f, hm, rfl⟩
      · obtain ⟨rfl, a, rfl, ha⟩ := goes_mark.mp hm
        cases a with
        | error e => cases ha
        | ok _ =>
          rw [goes_changeSession_bind] at hx
          obtain ⟨v, w, o, s₃, o', rfl, hv, hw, rfl⟩ := goes_andFinally.mp hx
          exact .inr (.inr ⟨v, w, o, o', s₃, rfl, hv, hw, rfl⟩)
      · obtain ⟨rfl, a, rfl, ha⟩ := goes_mark.mp hm
        cases a with
        | ok _ => cases ha
        | error e => cases ha; exact .inr (.inl ⟨e, rfl, rfl, rfl⟩)
    · obtain ⟨rfl, rfl, ho⟩ := goes_ofExcept.mp hc
      cases hp : peer.check with
      | ok _ => rw [hp] at ho; cases ho
      | error e => rw [hp] at ho; cases ho; exact .inl ⟨e, rfl, rfl, rfl, rfl⟩

/-- Where a transaction succeeds, its body has succeeded in it, and there was nothing to roll back or
that has succeeded too. -/
theorem goes_transaction_succeeds {c : Client} {name : String} {body : Task σ α} {v : α}
    (hg : Goes (c.transaction name body) s t (.ok v) s') : ∃ t₀ s₀ peer u w s₁,
      EngineSetUp c name s t₀ s₀ ∧ Goes body (s₀.within true) u (.ok v) s₁ ∧
        Goes rollback s₁ w (.ok ()) s' ∧
        t = t₀ ++ ⟨.connect (c.databaseOr name), .ok peer⟩ ::
          (⟨.mark .begin, .ok ()⟩ :: (u ++ w) ++ [⟨.disconnect, ()⟩]) := by
  obtain ⟨t₀, s₀, he, ⟨_, _, _, hr⟩ | ⟨peer, x, rfl, h⟩⟩ := goes_transaction hg
  · cases hr
  · rcases h with ⟨_, _, _, hr, _⟩ | ⟨_, _, _, hr⟩ | ⟨u, w, o, o', s₁, rfl, hu, hw, hr⟩
    · cases hr
    · cases hr
    · cases o' with
      | error f => cases hr
      | ok _ =>
        obtain rfl : .ok v = o := hr
        exact ⟨t₀, s₀, peer, u, w, s₁, he, hu, hw, rfl⟩

/-- A statement in a transaction that succeeds was sent by its body. -/
theorem goes_transaction_sent {c : Client} {name : String} {body : Task σ α} {v : α}
    (hg : Goes (c.transaction name body) s t (.ok v) s') {y : Exchange} (hy : y ∈ t)
    (hq : ∃ q, y.request = .execute q) : ∃ s₀ u s₁, Goes body s₀ u (.ok v) s₁ ∧ y ∈ u := by
  obtain ⟨t₀, s₀, peer, u, w, s₁, he, hu, hw, rfl⟩ := goes_transaction_succeeds hg
  have sent : ∀ y ∈ t₀ ++ ⟨.connect (c.databaseOr name), .ok peer⟩ ::
      (⟨.mark .begin, .ok ()⟩ :: (u ++ w) ++ [⟨.disconnect, ()⟩]),
      (∃ q, y.request = .execute q) → y ∈ u := by
    rcases goes_rollback.mp hw with ⟨_, rfl, _⟩ | ⟨_, _, b, rfl, _⟩ <;> cases he <;>
      simp +contextual [or_imp]
  exact ⟨_, u, s₁, hu, sent y hy hq⟩

theorem goes_unlessMissing {x : Task σ Unit} {r : Except Failure Unit}
    (hg : Goes (unlessMissing x) s t r s') : ∃ o, Goes x s t o s' ∧
      (o = .ok () ∧ r = .ok () ∨ ∃ f, o = .error f ∧
        (f.error.isNotFound = true ∧ r = .ok () ∨ r = .error f)) := by
  obtain ⟨t₁, t₂, o, s₁, rfl, hx, h⟩ := goes_attempt_bind.mp hg
  cases o with
  | ok u =>
    obtain ⟨rfl, rfl, rfl⟩ := goes_pure.mp h
    exact ⟨.ok (), by rw [List.append_nil]; exact hx, .inl ⟨rfl, rfl⟩⟩
  | error f =>
    dsimp only at h
    split at h
    · obtain ⟨rfl, rfl, rfl⟩ := goes_pure.mp h
      exact ⟨.error f, by rw [List.append_nil]; exact hx, .inr ⟨f, rfl, .inl ⟨‹_›, rfl⟩⟩⟩
    · obtain ⟨rfl, rfl, rfl⟩ := goes_settled.mp h
      exact ⟨.error f, by rw [List.append_nil]; exact hx, .inr ⟨f, rfl, .inr rfl⟩⟩

theorem goes_locked {mode : LockMode} {body : Task σ α} {r : Except Failure α} :
    Goes (locked mode body) s t r s' ↔
      ∃ u, t = ⟨.acquire mode, ()⟩ :: (u ++ [⟨.release mode, ()⟩]) ∧ Goes body s u r s' := by
  constructor
  · intro h
    obtain ⟨_, u, rfl, hf⟩ := goes_ask_bind.mp h
    obtain ⟨u₁, u₂, o, s₁, w, rfl, hb, hr, rfl⟩ := goes_andFinally.mp hf
    obtain ⟨_, rfl, rfl, rfl⟩ := goes_ask.mp hr
    exact ⟨u₁, rfl, hb⟩
  · intro h
    obtain ⟨u, rfl, hb⟩ := h
    exact goes_ask_bind.mpr ⟨(), _, rfl, goes_andFinally.mpr
      ⟨u, _, r, s', .ok (), rfl, hb, goes_ask.mpr ⟨(), rfl, rfl, rfl⟩, rfl⟩⟩

/-- A statement that is sent under a lock is sent by what runs under it. -/
theorem goes_locked_sent {mode : LockMode} {body : Task σ α} {r : Except Failure α}
    (hg : Goes (locked mode body) s t r s') {y : Exchange} (hy : y ∈ t)
    (hq : ∃ q, y.request = .execute q) : ∃ u, Goes body s u r s' ∧ y ∈ u := by
  obtain ⟨u, rfl, hb⟩ := goes_locked.mp hg
  obtain ⟨q, hq⟩ := hq
  refine ⟨u, hb, ?_⟩
  rcases List.mem_cons.mp hy with rfl | hy
  · cases hq
  · rcases List.mem_append.mp hy with hy | hy
    · exact hy
    · cases List.mem_singleton.mp hy
      cases hq

/-- A removal under a lock returns and changes the work once the removal has ended, or has failed
because something is missing. Where it failed in another way, that is how it ends. -/
theorem goes_forgetting {mode : LockMode} {x : Task σ Unit} {f : σ → σ} {r : Except Failure Unit}
    (hg : Goes (do
      locked mode (unlessMissing x)
      changeWork f) s t r s') :
    ∃ w o s₁, t = ⟨.acquire mode, ()⟩ :: (w ++ [⟨.release mode, ()⟩]) ∧ Goes x s w o s₁ ∧
      ((r = .ok () ∧ s'.work = f s₁.work ∧
          (o = .ok () ∨ ∃ e, o = .error e ∧ e.error.isNotFound = true)) ∨
        ∃ e, o = .error e ∧ r = .error e ∧ s' = s₁) := by
  rcases goes_bind.mp hg with ⟨t₁, t₂, _, s₁, rfl, hl, hv⟩ | ⟨e, hl, he⟩
  · obtain ⟨rfl, hr, rfl⟩ := goes_changeWork.mp hv
    obtain ⟨w, rfl, hm⟩ := goes_locked.mp hl
    obtain ⟨o, hx, ho⟩ := goes_unlessMissing hm
    refine ⟨w, o, s₁, List.append_nil _, hx, .inl ⟨hr, rfl, ?_⟩⟩
    rcases ho with ⟨rfl, _⟩ | ⟨e, rfl, ⟨he, _⟩ | he⟩
    · exact .inl rfl
    · exact .inr ⟨e, rfl, he⟩
    · cases he
  · obtain ⟨w, rfl, hm⟩ := goes_locked.mp hl
    obtain ⟨o, hx, ⟨_, ho⟩ | ⟨_, rfl, ⟨_, ho⟩ | ho⟩⟩ := goes_unlessMissing hm
    · cases ho
    · cases ho
    · cases ho
      exact ⟨w, _, s', rfl, hx, .inr ⟨e, rfl, he, rfl⟩⟩

end Task

end DeclaredAccess
