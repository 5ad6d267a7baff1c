import DeclaredAccess.Proofs.Session.Elevation
import DeclaredAccess.Proofs.Session.Served
import DeclaredAccess.Proofs.Sql.Quoted

/-! Servers that take every connection and every marker and answer every question, and keep what they
have where a request does not concern them. Whatever they make of a change, connections are opened
and closed and transactions begin and end as the client means it, and the questions around a block
are answered. What a server keeps of a connection and of a marker, and what it answers, it says
itself; all rules for tasks follow from that. -/

namespace DeclaredAccess

variable {κ σ α : Type}

/-- The standings differ at most in what is known about connections. -/
def Standing.Agrees (s s' : Standing σ) : Prop :=
  s'.work = s.work ∧ s'.session.version = s.session.version

namespace Standing

theorem Agrees.refl (s : Standing σ) : s.Agrees s := ⟨rfl, rfl⟩

theorem Agrees.trans {s s₁ s₂ : Standing σ} (h : s.Agrees s₁) (h' : s₁.Agrees s₂) : s.Agrees s₂ :=
  ⟨h'.1.trans h.1, h'.2.trans h.2⟩

theorem agrees_within (s : Standing σ) (b : Bool) : s.Agrees (s.within b) := ⟨rfl, rfl⟩

end Standing

open Sql (Change Query Writable writable_cons writable_nil)

/-- What is particular to a server that takes every connection and every marker and answers every
question: what it says of itself, what it makes of connections and markers, and which answers it
gives to questions and changes. -/
structure Willing (κ : Type) where
  /-- The version that the server reports, where it does. -/
  reported : Option (List Int)
  opened : κ → String → κ
  closed : κ → κ
  mark : κ → Marker → κ
  /-- The rows that may answer a question. -/
  tells : κ → Query → List Row → Prop
  /-- The answers to a change, each with what the server keeps then. -/
  makes : κ → Change → Except DriverError (List Row) → κ → Prop
  exists_tells : ∀ k q, ∃ rows, tells k q rows
  exists_makes : ∀ k c, ∃ a k', makes k c a k'
  closed_rollback : ∀ k, closed (mark k .rollback) = closed k

namespace Willing

/-- `Answers w k y k'`: the server can take part in the exchange `y`, and then keeps `k'` where it
kept `k`. What the client meets by itself leaves the server as it is, and so does a question. -/
def Answers (w : Willing κ) (k : κ) (y : Exchange) (k' : κ) : Prop := match y with
  | ⟨.connect name, a⟩ => a = .ok ⟨"postgresql", "psycopg", w.reported⟩ ∧ k' = w.opened k name
  | ⟨.disconnect, _⟩ => k' = w.closed k
  | ⟨.mark m, a⟩ => a = .ok () ∧ k' = w.mark k m
  | ⟨.execute (.query q), a⟩ => k' = k ∧ ∃ rows, a = .ok rows ∧ w.tells k q rows
  | ⟨.execute (.change c), a⟩ => w.makes k c a k'
  | _ => k' = k

theorem exists_answer (w : Willing κ) (k : κ) (q : Request) : ∃ a k', w.Answers k ⟨q, a⟩ k' := by
  cases q with
  | connect name => exact ⟨_, _, rfl, rfl⟩
  | mark m => exact ⟨_, _, rfl, rfl⟩
  | execute st => cases st with
    | query q =>
      obtain ⟨rows, hr⟩ := w.exists_tells k q
      exact ⟨_, k, rfl, rows, rfl, hr⟩
    | change c => exact w.exists_makes k c
    | raw text => exact ⟨.ok [], k, rfl⟩
  | _ => exact ⟨(), _, rfl⟩

def server (w : Willing κ) : Server κ := ⟨w.Answers, w.exists_answer⟩

variable (w : Willing κ) {s : Standing σ} {k : κ} {Q : α → Standing σ → κ → Prop}

theorem leads_mark {m : Marker} {Q : Unit → Standing σ → κ → Prop} (h : Q () s (w.mark k m)) :
    w.server.Leads (Task.mark m) s k Q :=
  .mark fun _ _ ⟨ha, hk⟩ => ⟨ha, hk ▸ h⟩

/-- A savepoint that is released keeps what was done in it. -/
theorem leads_savepoint {x : Task σ α}
    (h : w.server.Leads x s (w.mark k .savepoint) fun a s₁ k₁ => Q a s₁ (w.mark k₁ .release)) :
    w.server.Leads (Task.savepoint x) s k Q :=
  .bind (w.leads_mark (.bind (.attempt (h.mono fun _ _ _ hq => .bind (w.leads_mark (.pure hq))))))

theorem leads_locked {mode : LockMode} {x : Task σ α} (h : w.server.Leads x s k Q) :
    w.server.Leads (Task.locked mode x) s k Q := by
  refine .bind (.ask fun _ k₁ ha => ?_)
  obtain rfl : k₁ = k := ha
  refine .andFinally (h.mono fun _ _ k₂ hq => .ask fun _ k₃ hr => ?_)
  obtain rfl : k₃ = k₂ := hr
  exact hq

theorem leads_commit {Q : Unit → Standing σ → κ → Prop} (h : Q () (s.within false) (w.mark k .commit)) :
    w.server.Leads Task.commit s k Q :=
  .commit fun _ _ ⟨ha, hk⟩ => ⟨ha, hk ▸ h⟩

/-- Whether there is something to undo or not, the connection can be closed. -/
theorem leads_rollback {Q : Unit → Standing σ → κ → Prop}
    (h : ∀ s₁ k₁, s.Agrees s₁ → w.closed k₁ = w.closed k → Q () s₁ k₁) :
    w.server.Leads Task.rollback s k Q := by
  refine .bind (.session ?_)
  split
  · exact .bind (.changeSession (w.leads_mark (h _ _ ⟨rfl, rfl⟩ (w.closed_rollback k))))
  · exact .pure (h _ _ (.refl s) rfl)

/-! ## Connections and transactions -/

theorem leads_engine (c : Client) (name : String) :
    w.server.Leads (c.engine name : Task σ Nat) s k fun _ s' k' => s.Agrees s' ∧ k' = k := by
  refine .bind (.session ?_)
  split
  · exact .pure ⟨.refl s, rfl⟩
  · refine .bind (.ask fun _ k' ha => ?_)
    obtain rfl : k' = k := ha
    exact .bind (.changeSession (.pure ⟨⟨rfl, rfl⟩, rfl⟩))

/-- A connection is open for the time of its body. -/
theorem leads_connected {c : Client} {name : String} {body : Peer → Task σ α}
    (h : ∀ s₀, s.Agrees s₀ → w.server.Leads (body ⟨"postgresql", "psycopg", w.reported⟩) s₀
      (w.opened k (c.databaseOr name)) fun a s₁ k₁ => Q a s₁ (w.closed k₁)) :
    w.server.Leads (c.connected name body) s k Q := by
  refine .bind (.bind ((w.leads_engine c name).mono fun _ s₀ _ h₀ => .pure ?_))
  obtain ⟨hs, rfl⟩ := h₀
  refine .bind (.ask fun _ _ ha => ?_)
  obtain ⟨rfl, rfl⟩ := ha
  refine .andFinally ((h s₀ hs).mono fun _ _ k₁ hq => .ask fun _ k₂ hd => ?_)
  obtain rfl : k₂ = w.closed k₁ := hd
  exact hq

/-- Once its body has ended, a transaction has kept what was committed in it. -/
theorem leads_transaction {c : Client} {name : String} {body : Task σ α}
    (h : ∀ s₀, s.Agrees s₀ → w.server.Leads body s₀ (w.mark (w.opened k (c.databaseOr name)) .begin)
      fun a s₁ k₁ => ∀ s₂, s₁.Agrees s₂ → Q a s₂ (w.closed k₁)) :
    w.server.Leads (c.transaction name body) s k Q := by
  refine w.leads_connected fun s₀ h₀ => .bind (.ofExcept (a := ()) rfl (.bind (w.leads_mark ?_)))
  refine .bind (.changeSession ?_)
  have inside := h (s₀.within true) (h₀.trans (s₀.agrees_within true))
  refine .andFinally (inside.mono fun a s₁ k₁ hq => w.leads_rollback fun s₂ k₂ h₂ hk => ?_)
  rw [hk]
  exact hq s₂ h₂

/-- What a body has written is kept once its transaction is committed. -/
theorem leads_committed {c : Client} {name : String} {body : Task σ Unit}
    {Q : Unit → Standing σ → κ → Prop}
    (h : ∀ s₀, s.Agrees s₀ → w.server.Leads body s₀ (w.mark (w.opened k (c.databaseOr name)) .begin)
      fun _ s₁ k₁ => ∀ s₂, s₁.Agrees s₂ → Q () s₂ (w.closed (w.mark k₁ .commit))) :
    w.server.Leads (c.committed name body) s k Q := by
  refine w.leads_transaction fun s₀ h₀ => .bind ((h s₀ h₀).mono fun _ s₁ k₁ hq => w.leads_commit ?_)
  exact fun s₂ h₂ => hq s₂ ((s₁.agrees_within false).trans h₂)

/-- The version is known, or it is asked for on a connection of its own. -/
theorem leads_version (c : Client) : w.server.Leads (c.version : Task σ Version) s k fun v s' k' =>
    v = s.session.version.getD ((w.reported.bind Version.ofParts?).getD .assumed) ∧
      s'.work = s.work ∧ s'.session.version = some v ∧
        (k' = k ∨ k' = w.closed (w.opened k (c.databaseOr ""))) := by
  unfold Client.version
  refine .bind (.session ?_)
  cases hv : s.session.version with
  | some v => exact .pure ⟨rfl, rfl, hv, .inl rfl⟩
  | none =>
    refine .bind (w.leads_connected fun s₀ h₀ => .pure (.bind (.changeSession (.pure ?_))))
    exact ⟨rfl, h₀.1, rfl, .inr rfl⟩

/-! ## Statements -/

theorem leads_query {q : Query} (hv : (q.values.all fun v => v.text?.isSome) = true)
    (hw : Writable q.quoted) {intent : String} {Q : List Row → Standing σ → κ → Prop}
    (h : ∀ rows, w.tells k q rows → Q rows s k) :
    w.server.Leads (Task.execute (.query q) intent) s k Q := by
  obtain ⟨text, ht⟩ := Query.exists_text hv hw
  refine .execute ht fun a k' ha => ?_
  obtain ⟨rfl, rows, rfl, hr⟩ := ha
  exact ⟨rows, rfl, h rows hr⟩

/-- A change that can be written and that the server makes. -/
theorem leads_change {c : Change} (hc : c.isVersioned = false) {intent : String}
    {Q : Unit → Standing σ → κ → Prop}
    (h : ∀ a k', w.makes k c a k' → (∃ rows, a = .ok rows) ∧ Q () s k') :
    w.server.Leads (Catalog.change c intent) s k Q := by
  obtain ⟨text, ht⟩ := Change.exists_text hc
  refine .bind (.execute ht fun a k' ha => ?_)
  obtain ⟨⟨rows, rfl⟩, hq⟩ := h a k' ha
  exact ⟨rows, rfl, .pure hq⟩

theorem leads_askOne {q : Query} (hv : (q.values.all fun v => v.text?.isSome) = true)
    (hw : Writable q.quoted) {intent : String} {Q : Value → Standing σ → κ → Prop}
    (h : ∀ rows, w.tells k q rows → ∃ v, Catalog.firstCell rows = .ok v ∧ Q v s k) :
    w.server.Leads (Catalog.askOne q intent) s k Q := by
  refine .bind (w.leads_query hv hw fun rows hr => ?_)
  obtain ⟨v, hc, hq⟩ := h rows hr
  exact .ofExcept hc hq

theorem leads_actorRole {c : Client} {user : String}
    (hu : ∀ rows, w.tells k .currentUser rows → Catalog.firstCell rows = .ok (.text user)) :
    w.server.Leads (c.actorRole : Task σ Value) s k fun v s' k' =>
      s' = s ∧ k' = k ∧ v = .text (if c.actor.isEmpty then user else c.actor) := by
  unfold Client.actorRole
  split
  · refine w.leads_askOne (q := .currentUser) rfl writable_nil fun rows hr => ?_
    exact ⟨.text user, hu rows hr, rfl, rfl, rfl⟩
  · exact .pure ⟨rfl, rfl, rfl⟩

/-- A membership is granted only where the server says that it is not there yet. -/
theorem leads_elevationFor {role actor : String} (hr : '\x00' ∉ role.toList)
    (ha : '\x00' ∉ actor.toList) {P : Prop}
    (hh : ∀ rows, w.tells k (.hasRole (.text actor) (.text role)) rows →
      ∃ v, Catalog.firstCell rows = .ok v)
    (hm : ∀ rows, w.tells k (.revocableMembership (.text actor) (.text role)) rows →
      ∃ v, Catalog.firstCell rows = .ok v ∧ (v.truthy = false → P)) :
    w.server.Leads (Task.elevationFor (.text role) (.text actor) : Task σ _) s k fun m s' k' =>
      s' = s ∧ k' = k ∧ (m = none ∨ m = some (role, actor) ∧ P) := by
  unfold Task.elevationFor
  split
  · exact .pure ⟨rfl, rfl, .inl rfl⟩
  · refine .bind (w.leads_askOne rfl ?_ fun rows hrows => ?_)
    · exact writable_cons.mpr ⟨ha, writable_cons.mpr ⟨hr,
        writable_cons.mpr ⟨by decide, writable_nil⟩⟩⟩
    · obtain ⟨v, hv⟩ := hh rows hrows
      refine ⟨v, hv, ?_⟩
      split
      · exact .pure ⟨rfl, rfl, .inl rfl⟩
      · refine .bind (w.leads_askOne rfl ?_ fun rows hrows => ?_)
        · exact writable_cons.mpr ⟨hr, writable_cons.mpr ⟨ha,
            writable_cons.mpr ⟨by decide, writable_nil⟩⟩⟩
        · obtain ⟨v, hv, hp⟩ := hm rows hrows
          refine ⟨v, hv, ?_⟩
          split
          · exact .pure ⟨rfl, rfl, .inl rfl⟩
          · rename_i hn
            refine .bind (.ofExcept rfl (.bind (.ofExcept rfl (.pure ⟨rfl, rfl, ?_⟩))))
            exact .inr ⟨rfl, hp (Bool.eq_false_iff.mpr hn)⟩

end Willing

end DeclaredAccess
