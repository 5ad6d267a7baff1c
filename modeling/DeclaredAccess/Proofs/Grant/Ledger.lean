import DeclaredAccess.Grant.Reconcile
import DeclaredAccess.Proofs.Session.Careful
import DeclaredAccess.Proofs.Session.Served
import DeclaredAccess.Proofs.Session.Stack

/-! What a role holds, kept through the exchanges with the server. What the server answers about the
role, and where it says that something is missing, is true. -/

namespace DeclaredAccess

/-- The role that a grant is for, and where its objects are. -/
structure Scope where
  role : String
  database : String
  kind : ObjectKind
  schema : String
  deriving DecidableEq

def Grant.scope (g : Grant) : Scope := ⟨g.role, g.database, g.kind, g.schema⟩

namespace Scope

def target (p : Scope) (objects : List String) : Target :=
  if p.kind = .database then { kind := .database, name := p.database }
  else { kind := p.kind, schema := p.schema, objects := objects }

/-- Whether a statement that is sent over a connection is about the role and its objects. -/
def Concerns (p : Scope) (connection : String) (t : Target) (role : String) : Prop :=
  role = p.role ∧ t = p.target t.objects ∧ (p.kind = .database ∨ connection = p.database)

instance (p : Scope) (connection : String) (t : Target) (role : String) :
    Decidable (p.Concerns connection t role) :=
  inferInstanceAs (Decidable (_ ∧ _ ∧ _))

end Scope

/-- Whether a target names an object; where it lists none, it names all of them. -/
def Target.Includes (t : Target) (o : String) : Prop := t.objects = [] ∨ o ∈ t.objects

/-- The objects on which the role of a scope holds a privilege. -/
abbrev Ledger := Stack (String → Prop)

namespace Ledger

/-- `Alters p k c k'`: the change `c` has been made, and turns the ledger `k` into `k'`. -/
def Alters (p : Scope) (k : Ledger) (c : Sql.Change) (k' : Ledger) : Prop :=
  match c with
  | .grant _ t role _ =>
    if p.Concerns k.database t role then
      ∃ added : String → Prop, (∀ o ∈ t.objects, added o) ∧ (∀ o, added o → t.Includes o) ∧
        k' = k.write fun o => k.seen o ∨ added o
    else k' = k
  | .revokeAll t role =>
    if p.Concerns k.database t role then k' = k.write fun o => k.seen o ∧ ¬t.Includes o
    else k' = k
  | _ => k' = k

/-- Something that a target names is missing: nothing is held there. -/
def Lacks (k : Ledger) (t : Target) : Prop := (∀ o, ¬k.seen o) ∨ ∃ o ∈ t.objects, ¬k.seen o

/-- The first value of an answer, which does not count as true. -/
def Denies (rows : List Row) : Prop := ∃ v, Catalog.firstCell rows = .ok v ∧ v.truthy = false

/-- The answer to a question about the role or its objects is true: where the role, the database or
the schema does not exist, nothing is held, and every object that is held is found. -/
def Tells (p : Scope) (k : Ledger) (q : Sql.Query) (rows : List Row) : Prop :=
  match q with
  | .roleExists role => role = p.role → Denies rows → ∀ o, ¬k.seen o
  | .databaseExists d => d = .text p.database → Denies rows → ∀ o, ¬k.seen o
  | .schemaExists n =>
    n = .text p.schema → p.kind ≠ .database → k.database = p.database → Denies rows →
      ∀ o, ¬k.seen o
  | .objectPrivileges role t =>
    p.Concerns k.database t role → ∀ o, k.seen o → t.Includes o →
      ∃ row ∈ rows, row.head? = some (.text o)
  | _ => True

/-- `Answers p k y k'`: in an exchange `y` the server is true to the ledger `k`, which becomes
`k'`. -/
def Answers (p : Scope) (k : Ledger) (y : Exchange) (k' : Ledger) : Prop :=
  match y with
  | ⟨.connect name, .ok _⟩ => k' = k.opened name
  | ⟨.disconnect, _⟩ => k' = k.closed
  | ⟨.mark m, .ok _⟩ => k' = k.mark m
  | ⟨.mark m, .error _⟩ => k' = k.lose m
  | ⟨.execute (.query q), .ok rows⟩ => k' = k ∧ Tells p k q rows
  | ⟨.execute (.change c), .ok _⟩ => Alters p k c k'
  | ⟨.execute (.change (.revokeAll t role)), .error e⟩ =>
    k' = k ∧ (p.Concerns k.database t role → e.isMissing = true → k.Lacks t)
  | _ => k' = k

theorem exists_answer (p : Scope) (k : Ledger) (q : Request) : ∃ a k', Answers p k ⟨q, a⟩ k' := by
  cases q with
  | connect name => exact ⟨.error {}, k, rfl⟩
  | mark m => exact ⟨.ok (), _, rfl⟩
  | execute s => cases s with
    | query q => exact ⟨.error {}, k, rfl⟩
    | change c => cases c with
      | revokeAll t role => exact ⟨.error {}, k, rfl, fun _ h => by cases h⟩
      | _ => exact ⟨.error {}, k, rfl⟩
    | raw text => exact ⟨.error {}, k, rfl⟩
  | _ => exact ⟨(), _, rfl⟩

def server (p : Scope) : Server Ledger := ⟨Answers p, exists_answer p⟩

/-- The server is true to the ledger in each of the exchanges. -/
abbrev Follows (p : Scope) (k : Ledger) (t : List Exchange) (k' : Ledger) : Prop :=
  (server p).Serves k t k'

section

variable {p : Scope} {k k' : Ledger} {y : Exchange} {t : List Exchange}

theorem Alters.kept_eq {c : Sql.Change} (h : Alters p k c k') : k'.kept = k.kept := by
  cases c with
  | grant privileges t role option =>
    simp only [Alters] at h
    split at h
    · obtain ⟨_, _, _, rfl⟩ := h
      rfl
    · rw [h]
  | revokeAll t role =>
    simp only [Alters] at h
    split at h
    · rw [h]; rfl
    · rw [h]
  | _ => exact congrArg Stack.kept h

/-- Only a commit that succeeds changes what is held for good. -/
theorem Answers.kept_eq (h : Answers p k y k') (hc : y.isCommitted = false) :
    k'.kept = k.kept := by
  obtain ⟨q, a⟩ := y
  cases q with
  | connect name => cases a with
    | ok _ =>
      obtain rfl : k' = k.opened name := h
      rfl
    | error e => exact congrArg Stack.kept h
  | disconnect =>
    obtain rfl : k' = k.closed := h
    rfl
  | mark m => cases a with
    | ok _ => exact (congrArg Stack.kept h).trans (Stack.kept_mark fun hm => by subst hm; cases hc)
    | error e => exact (congrArg Stack.kept h).trans (Stack.kept_lose m)
  | execute s => cases s with
    | query q => cases a with
      | ok rows => exact congrArg Stack.kept h.1
      | error e => exact congrArg Stack.kept h
    | change c => cases a with
      | ok rows => exact Alters.kept_eq h
      | error e => cases c with
        | revokeAll t role => exact congrArg Stack.kept h.1
        | _ => exact congrArg Stack.kept h
    | raw text => exact congrArg Stack.kept h
  | _ => exact congrArg Stack.kept h

theorem kept_of_uncommitted (h : Follows p k t k') (hu : Uncommitted t) : k'.kept = k.kept :=
  Server.frame_of_serves h fun y hy _ _ ha => Answers.kept_eq ha (hu y hy)

/-- Questions change nothing. -/
theorem eq_of_questions (h : Follows p k t k') (hq : ∀ y ∈ t, y.isQuestion = true) : k' = k :=
  Server.frame_of_serves (f := id) h fun y hy k k' ha => by
    obtain ⟨q, a, rfl⟩ := Exchange.exists_query_of_isQuestion (hq y hy)
    cases a with
    | ok rows => exact And.left ha
    | error e => exact ha

end

end Ledger

end DeclaredAccess
