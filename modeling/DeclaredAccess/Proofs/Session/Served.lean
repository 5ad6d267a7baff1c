import DeclaredAccess.Proofs.Session.Inversion

/-! Tasks against a server that is known by the answers that it may give. What it answers leads from
one of its states to another, and there is always an answer. A dialogue ends well if it does so for
every answer; that is read off the dialogue from its end to its beginning, so each way of building a
task has one rule. -/

namespace DeclaredAccess

open DeclaredAccess.Task (Goes)

/-- A server by its states: an exchange leads from one to another, and some answer can be given to
every request. -/
structure Server (κ : Type) where
  answers : κ → Exchange → κ → Prop
  exists_answer : ∀ k q, ∃ a k', answers k ⟨q, a⟩ k'

variable {κ σ α β : Type} {server : Server κ}

namespace Server

/-- The server can take part in all exchanges, one after the other. -/
inductive Serves (server : Server κ) : κ → List Exchange → κ → Prop
  | nil {k : κ} : Serves server k [] k
  | cons {k k₁ k' : κ} {y : Exchange} {t : List Exchange} (h : server.answers k y k₁)
    (ht : Serves server k₁ t k') : Serves server k (y :: t) k'

theorem serves_nil {k k' : κ} : server.Serves k [] k' ↔ k' = k := by
  constructor
  · intro h
    cases h
    rfl
  · rintro rfl
    exact .nil

theorem serves_cons {k k' : κ} {y : Exchange} {t : List Exchange} :
    server.Serves k (y :: t) k' ↔ ∃ k₁, server.answers k y k₁ ∧ server.Serves k₁ t k' := by
  constructor
  · intro h
    cases h with
    | cons hy ht => exact ⟨_, hy, ht⟩
  · rintro ⟨k₁, hy, ht⟩
    exact .cons hy ht

theorem serves_append {k k' : κ} {t u : List Exchange} :
    server.Serves k (t ++ u) k' ↔ ∃ k₁, server.Serves k t k₁ ∧ server.Serves k₁ u k' := by
  induction t generalizing k with
  | nil => simp [serves_nil]
  | cons y t ih =>
    simp only [List.cons_append, serves_cons, ih]
    constructor
    · rintro ⟨k₁, hy, k₂, ht, hu⟩
      exact ⟨k₂, ⟨k₁, hy, ht⟩, hu⟩
    · rintro ⟨k₂, ⟨k₁, hy, ht⟩, hu⟩
      exact ⟨k₁, hy, k₂, ht, hu⟩

/-- What none of the answers changes is the same at the end. -/
theorem frame_of_serves {f : κ → β} {k k' : κ} {t : List Exchange} (h : server.Serves k t k')
    (hf : ∀ y ∈ t, ∀ k k', server.answers k y k' → f k' = f k) : f k' = f k := by
  induction h with
  | nil => rfl
  | cons hy _ ih =>
    obtain ⟨hf, hrest⟩ := List.forall_mem_cons.mp hf
    exact (ih hrest).trans (hf _ _ hy)

/-- However the server answers, the dialogue ends in a result and a state of which `Q` holds. -/
def Ends (server : Server κ) : Dialogue α → κ → (α → κ → Prop) → Prop
  | .done a, k, Q => Q a k
  | .ask q next, k, Q => ∀ x k', server.answers k ⟨q, x⟩ k' → server.Ends (next x) k' Q

theorem Ends.mono {d : Dialogue α} {k : κ} {Q Q' : α → κ → Prop} (h : server.Ends d k Q)
    (hq : ∀ a k', Q a k' → Q' a k') : server.Ends d k Q' := by
  induction d generalizing k with
  | done a => exact hq a k h
  | ask q next ih => exact fun x k' hx => ih x (h x k' hx)

theorem Ends.bind {d : Dialogue α} {f : α → Dialogue β} {k : κ} {Q : β → κ → Prop}
    (h : server.Ends d k fun a k' => server.Ends (f a) k' Q) : server.Ends (d.bind f) k Q := by
  induction d generalizing k with
  | done a => exact h
  | ask q next ih => exact fun x k' hx => ih x (h x k' hx)

/-- A dialogue ends well if every path does that the server takes part in. -/
theorem ends_iff {d : Dialogue α} {k : κ} {Q : α → κ → Prop} : server.Ends d k Q ↔
    ∀ t a k', d.Path t a → server.Serves k t k' → Q a k' := by
  induction d generalizing k with
  | done a =>
    constructor
    · intro h t b k' hp hs
      cases hp
      cases hs
      exact h
    · exact fun h => h [] a k (.done a) .nil
  | ask q next ih =>
    constructor
    · intro h t a k' hp hs
      cases hp with
      | ask x hp => cases hs with
        | cons hx hs => exact (ih x).mp (h x _ hx) _ a k' hp hs
    · exact fun h x k₁ hx => (ih x).mpr fun t a k' hp hs => h _ a k' (.ask x hp) (.cons hx hs)

/-- The server can answer until the dialogue ends. -/
theorem exists_serves (server : Server κ) (d : Dialogue α) (k : κ) :
    ∃ t a k', d.Path t a ∧ server.Serves k t k' := by
  induction d generalizing k with
  | done a => exact ⟨[], a, k, .done a, .nil⟩
  | ask q next ih =>
    obtain ⟨x, k₁, hx⟩ := server.exists_answer k q
    obtain ⟨t, a, k', hp, hs⟩ := ih x k₁
    exact ⟨⟨q, x⟩ :: t, a, k', .ask x hp, .cons hx hs⟩

/-- However the server answers, the task returns, and `Q` holds of what it returns, of where it ends
and of the server's state. -/
def Leads (server : Server κ) (x : Task σ α) (s : Standing σ) (k : κ)
    (Q : α → Standing σ → κ → Prop) : Prop :=
  server.Ends (x s) k fun o k' => ∃ a, o.1 = .ok a ∧ Q a o.2 k'

namespace Leads

variable {s : Standing σ} {k : κ} {Q Q' : α → Standing σ → κ → Prop}

theorem mono {x : Task σ α} (h : server.Leads x s k Q) (hq : ∀ a s' k', Q a s' k' → Q' a s' k') :
    server.Leads x s k Q' :=
  Ends.mono h fun _ _ ⟨a, hr, ha⟩ => ⟨a, hr, hq a _ _ ha⟩

/-- Whatever is exchanged, the task returns and `Q` holds of where it ends. -/
theorem of_goes {x : Task σ α} {t : List Exchange} {r : Except Failure α} {s' : Standing σ} {k' : κ}
    (h : server.Leads x s k Q) (hg : Goes x s t r s') (hs : server.Serves k t k') :
    ∃ a, r = .ok a ∧ Q a s' k' :=
  ends_iff.mp h _ _ _ hg hs

/-- The task can go in some way, and in all of them it returns. -/
theorem exists_goes {x : Task σ α} (h : server.Leads x s k Q) :
    ∃ t a s' k', Goes x s t (.ok a) s' ∧ server.Serves k t k' ∧ Q a s' k' := by
  obtain ⟨t, ⟨r, s'⟩, k', hp, hs⟩ := server.exists_serves (x s) k
  obtain ⟨a, rfl, ha⟩ := h.of_goes hp hs
  exact ⟨t, a, s', k', hp, hs, ha⟩

theorem pure {a : α} (h : Q a s k) : server.Leads (Pure.pure a) s k Q := ⟨a, rfl, h⟩

theorem bind {x : Task σ α} {f : α → Task σ β} {Q : β → Standing σ → κ → Prop}
    (h : server.Leads x s k fun a s' k' => server.Leads (f a) s' k' Q) :
    server.Leads (x >>= f) s k Q := by
  refine Ends.bind (Ends.mono h ?_)
  rintro ⟨r, s'⟩ k' ⟨a, hr, ha⟩
  obtain rfl : r = .ok a := hr
  exact ha

theorem ofExcept {x : Except Error α} {a : α} (hx : x = .ok a) (h : Q a s k) :
    server.Leads (Task.ofExcept x) s k Q := by
  subst hx
  exact .pure h

theorem ofConflict {x : Except Conflict α} {a : α} (hx : x = .ok a) (h : Q a s k) :
    server.Leads (Task.ofConflict x) s k Q := by
  subst hx
  exact .pure h

theorem session {Q : Session → Standing σ → κ → Prop} (h : Q s.session s k) :
    server.Leads Task.session s k Q := ⟨_, rfl, h⟩

theorem changeSession {f : Session → Session} {Q : Unit → Standing σ → κ → Prop}
    (h : Q () { s with session := f s.session } k) : server.Leads (Task.changeSession f) s k Q :=
  ⟨_, rfl, h⟩

theorem work {Q : σ → Standing σ → κ → Prop} (h : Q s.work s k) :
    server.Leads Task.work s k Q := ⟨_, rfl, h⟩

theorem changeWork {f : σ → σ} {Q : Unit → Standing σ → κ → Prop}
    (h : Q () { s with work := f s.work } k) : server.Leads (Task.changeWork f) s k Q :=
  ⟨_, rfl, h⟩

/-- A request, whatever is answered. -/
theorem ask {q : Request} {Q : q.Answer → Standing σ → κ → Prop}
    (h : ∀ a k', server.answers k ⟨q, a⟩ k' → Q a s k') : server.Leads (Task.ask q) s k Q :=
  fun a k' ha => ⟨a, rfl, h a k' ha⟩

/-- A task whose failure is caught. -/
theorem attempt {x : Task σ α} {Q : Except Failure α → Standing σ → κ → Prop}
    (h : server.Leads x s k fun a => Q (.ok a)) : server.Leads (Task.attempt x) s k Q := by
  refine Ends.bind (Ends.mono h ?_)
  rintro ⟨r, s'⟩ k' ⟨a, hr, ha⟩
  obtain rfl : r = .ok a := hr
  exact ⟨_, rfl, ha⟩

/-- What comes afterwards goes on from where the task ends. -/
theorem andFinally {x : Task σ α} {after : Task σ Unit}
    (h : server.Leads x s k fun a s₁ k₁ => server.Leads after s₁ k₁ fun _ => Q a) :
    server.Leads (Task.andFinally x after) s k Q :=
  .bind (.attempt (h.mono fun _ _ _ ha => .bind (ha.mono fun _ _ _ hq => .pure hq)))

/-- A marker that the server takes. -/
theorem mark {m : Marker} {Q : Unit → Standing σ → κ → Prop}
    (h : ∀ a k', server.answers k ⟨.mark m, a⟩ k' → a = .ok () ∧ Q () s k') :
    server.Leads (Task.mark m) s k Q :=
  .bind (.ask fun a k' ha => by
    obtain ⟨rfl, hq⟩ := h a k' ha
    exact .pure hq)

/-- A statement that can be written and that the server carries out. -/
theorem execute {st : Sql.Statement} {text : String} (ht : st.text = .ok text) {intent : String}
    {Q : List Row → Standing σ → κ → Prop}
    (h : ∀ a k', server.answers k ⟨.execute st, a⟩ k' → ∃ rows, a = .ok rows ∧ Q rows s k') :
    server.Leads (Task.execute st intent) s k Q := by
  unfold Task.execute
  rw [ht]
  exact .bind (.ask fun a k' ha => by
    obtain ⟨rows, rfl, hq⟩ := h a k' ha
    exact .pure hq)

theorem commit {Q : Unit → Standing σ → κ → Prop} (h : ∀ a k', server.answers k ⟨.mark .commit, a⟩ k' →
    a = .ok () ∧ Q () (s.within false) k') : server.Leads Task.commit s k Q :=
  .bind (.changeSession (.bind (.ask fun a k' ha => by
    obtain ⟨rfl, hq⟩ := h a k' ha
    exact .pure hq)))

end Leads

end Server

end DeclaredAccess
