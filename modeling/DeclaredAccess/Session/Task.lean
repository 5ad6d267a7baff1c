import DeclaredAccess.Keyed
import DeclaredAccess.Session.Dialogue

/-! A task is a dialogue that may fail and that changes a state. What it did to the state before
it failed stays done. -/

namespace DeclaredAccess

/-- What a client knows from one operation to the next. -/
structure Session where
  /-- The server's version, once it is known. -/
  version : Option Version := none
  /-- The databases that connections were set up for, each with its number. -/
  engines : Keyed Nat := []
  /-- How often connections were set up. -/
  engineCount : Nat := 0
  /-- Whether the open connection is in a transaction. -/
  inTransaction : Bool := false

/-- The client's session beside whatever the task works on. -/
structure Standing (σ : Type) where
  session : Session
  work : σ

def Task (σ α : Type) : Type := Standing σ → Dialogue (Except Failure α × Standing σ)

namespace Task

variable {σ α β : Type}

/-- The task that has a result without doing anything. -/
def settled (r : Except Failure α) : Task σ α := fun s => .done (r, s)

def bind (t : Task σ α) (f : α → Task σ β) : Task σ β := fun s =>
  (t s).bind fun
    | (.ok a, s) => f a s
    | (.error e, s) => .done (.error e, s)

instance : Monad (Task σ) where
  pure a := settled (.ok a)
  bind := bind

def fail (e : Error) : Task σ α := settled (.error ⟨e, []⟩)

def ofExcept : Except Error α → Task σ α
  | .ok a => pure a
  | .error e => fail e

instance : MonadLift (Except Error) (Task σ) := ⟨ofExcept⟩

def ofConflict : Except Conflict α → Task σ α
  | .ok a => pure a
  | .error e => fail (.conflict e)

instance : MonadLift (Except Conflict) (Task σ) := ⟨ofConflict⟩

/-- The outcome of a task as a value: what failed is not lost, and the task goes on. -/
def attempt (t : Task σ α) : Task σ (Except Failure α) := fun s =>
  (t s).bind fun x => .done (.ok x.1, x.2)

/-- Does `after` whatever becomes of `t`. A failure of `after` takes the place of the outcome. -/
def andFinally (t : Task σ α) (after : Task σ Unit) : Task σ α := do
  let r ← attempt t
  after
  settled r

def ask (q : Request) : Task σ q.Answer := fun s => .ask q fun x => .done (.ok x, s)

def session : Task σ Session := fun s => .done (.ok s.session, s)

def changeSession (f : Session → Session) : Task σ Unit := fun s =>
  .done (.ok (), { s with session := f s.session })

def work : Task σ σ := fun s => .done (.ok s.work, s)

def changeWork (f : σ → σ) : Task σ Unit := fun s => .done (.ok (), { s with work := f s.work })

/-- Every way a task can go: with the exchanges `t` it leads from the state `s` to the outcome `r`
and the state `s'`. -/
def Goes (x : Task σ α) (s : Standing σ) (t : List Exchange) (r : Except Failure α)
    (s' : Standing σ) : Prop :=
  (x s).Path t (r, s')

theorem goes_settled {r₀ r : Except Failure α} {s s' : Standing σ} {t : List Exchange} :
    Goes (settled r₀) s t r s' ↔ t = [] ∧ r = r₀ ∧ s' = s := by
  simp [Goes, settled, Dialogue.path_done_iff]

theorem goes_pure {a : α} {r : Except Failure α} {s s' : Standing σ} {t : List Exchange} :
    Goes (pure a) s t r s' ↔ t = [] ∧ r = .ok a ∧ s' = s := goes_settled

theorem goes_fail {e : Error} {r : Except Failure α} {s s' : Standing σ} {t : List Exchange} :
    Goes (fail e) s t r s' ↔ t = [] ∧ r = .error ⟨e, []⟩ ∧ s' = s := goes_settled

/-- A task that goes on with another one either does so, or has failed before. -/
theorem goes_bind {x : Task σ α} {f : α → Task σ β} {s s' : Standing σ} {t : List Exchange}
    {r : Except Failure β} :
    Goes (x >>= f) s t r s' ↔
      (∃ t₁ t₂ a s₁, t = t₁ ++ t₂ ∧ Goes x s t₁ (.ok a) s₁ ∧ Goes (f a) s₁ t₂ r s') ∨
      (∃ e, Goes x s t (.error e) s' ∧ r = .error e) := by
  change Dialogue.Path ((x s).bind _) t (r, s') ↔ _
  rw [Dialogue.path_bind]
  constructor
  · intro h
    obtain ⟨t₁, t₂, ⟨o, s₁⟩, rfl, h₁, h₂⟩ := h
    cases o with
    | ok a => exact .inl ⟨t₁, t₂, a, s₁, rfl, h₁, h₂⟩
    | error e =>
      obtain ⟨rfl, h⟩ := Dialogue.path_done_iff.mp h₂
      cases h
      exact .inr ⟨e, by simpa [Goes] using h₁, rfl⟩
  · intro h
    obtain ⟨t₁, t₂, a, s₁, rfl, h₁, h₂⟩ | ⟨e, h, rfl⟩ := h
    · exact ⟨t₁, t₂, (.ok a, s₁), rfl, h₁, h₂⟩
    · exact ⟨t, [], (.error e, s'), by simp, h, .done _⟩

theorem goes_attempt {x : Task σ α} {s s' : Standing σ} {t : List Exchange}
    {r : Except Failure (Except Failure α)} :
    Goes (attempt x) s t r s' ↔ ∃ o, r = .ok o ∧ Goes x s t o s' := by
  change Dialogue.Path ((x s).bind _) t (r, s') ↔ _
  rw [Dialogue.path_bind]
  constructor
  · intro h
    obtain ⟨t₁, t₂, ⟨o, s₁⟩, rfl, h₁, h₂⟩ := h
    obtain ⟨rfl, h⟩ := Dialogue.path_done_iff.mp h₂
    cases h
    exact ⟨o, rfl, by simpa [Goes] using h₁⟩
  · intro h
    obtain ⟨o, rfl, h⟩ := h
    exact ⟨t, [], (o, s'), by simp, h, .done _⟩

theorem goes_ask {q : Request} {r : Except Failure q.Answer} {s s' : Standing σ}
    {t : List Exchange} : Goes (ask q) s t r s' ↔ ∃ x, t = [⟨q, x⟩] ∧ r = .ok x ∧ s' = s := by
  simp only [Goes, ask, Dialogue.path_ask_iff, Dialogue.path_done_iff]
  constructor
  · intro h
    obtain ⟨x, _, rfl, rfl, h⟩ := h
    cases h
    exact ⟨x, rfl, rfl, rfl⟩
  · intro h
    obtain ⟨x, rfl, rfl, rfl⟩ := h
    exact ⟨x, [], rfl, rfl, rfl⟩

theorem goes_session {r : Except Failure Session} {s s' : Standing σ} {t : List Exchange} :
    Goes session s t r s' ↔ t = [] ∧ r = .ok s.session ∧ s' = s := by
  simp [Goes, session, Dialogue.path_done_iff]

theorem goes_changeSession {f : Session → Session} {r : Except Failure Unit} {s s' : Standing σ}
    {t : List Exchange} : Goes (changeSession f) s t r s' ↔
      t = [] ∧ r = .ok () ∧ s' = { s with session := f s.session } := by
  simp [Goes, changeSession, Dialogue.path_done_iff]

theorem goes_work {r : Except Failure σ} {s s' : Standing σ} {t : List Exchange} :
    Goes work s t r s' ↔ t = [] ∧ r = .ok s.work ∧ s' = s := by
  simp [Goes, work, Dialogue.path_done_iff]

theorem goes_changeWork {f : σ → σ} {r : Except Failure Unit} {s s' : Standing σ}
    {t : List Exchange} : Goes (changeWork f) s t r s' ↔
      t = [] ∧ r = .ok () ∧ s' = { s with work := f s.work } := by
  simp [Goes, changeWork, Dialogue.path_done_iff]

instance : LawfulMonad (Task σ) := LawfulMonad.mk' _
  (fun t => funext fun s => by
    change (t s).bind _ = t s
    conv => rhs; rw [← Dialogue.bind_done (t s)]
    congr 1
    funext ⟨r, s⟩
    cases r <;> rfl)
  (fun _ _ => rfl)
  (fun t f g => funext fun s => by
    change ((t s).bind _).bind _ = (t s).bind _
    rw [Dialogue.bind_assoc]
    congr 1
    funext ⟨r, s⟩
    cases r <;> rfl)

/-- The task with a server that answers from a state of its own. -/
def run {ω : Type} (serve : (q : Request) → ω → q.Answer × ω) (t : Task σ α) (s : Standing σ)
    (w : ω) : (Except Failure α × Standing σ) × ω :=
  (t s).run serve w

/-- What a server makes of a task is one of the ways it can go. -/
theorem goes_run {ω : Type} (serve : (q : Request) → ω → q.Answer × ω) (x : Task σ α)
    (s : Standing σ) (w : ω) : ∃ t, Goes x s t (x.run serve s w).1.1 (x.run serve s w).1.2 :=
  Dialogue.path_run serve (x s) w

end Task

end DeclaredAccess
