import DeclaredAccess.Session.Client

/-! Runs against a server that answers each request by itself. Such a run can be computed, and it
is one of the ways the task can go. -/

namespace DeclaredAccess

variable {σ α : Type}

/-- The exchanges of a dialogue with a server, and its outcome. -/
def Dialogue.transcript (answer : (q : Request) → q.Answer) : Dialogue α → List Exchange × α
  | done a => ([], a)
  | ask q next =>
    let (t, a) := (next (answer q)).transcript answer
    (⟨q, answer q⟩ :: t, a)

theorem Dialogue.path_transcript (answer : (q : Request) → q.Answer) (d : Dialogue α) :
    Path d (d.transcript answer).1 (d.transcript answer).2 := by
  induction d with
  | done a => exact .done a
  | ask q next ih => exact .ask (answer q) (ih (answer q))

namespace Task

variable (answer : (q : Request) → q.Answer) (x : Task σ α) (s : Standing σ)

def exchanges : List Exchange := ((x s).transcript answer).1

def outcome : Except Failure α := ((x s).transcript answer).2.1

def standing : Standing σ := ((x s).transcript answer).2.2

theorem goes_exchanges :
    Goes x s (x.exchanges answer s) (x.outcome answer s) (x.standing answer s) :=
  Dialogue.path_transcript answer (x s)

end Task

/-- A server on which every statement succeeds: everything exists, and nobody is a member of any
role. -/
def Request.granted : (q : Request) → q.Answer
  | connect _ => .ok ⟨"postgresql", "psycopg", some [16, 2]⟩
  | mark _ => .ok ()
  | execute (.query (.hasRole ..)) => .ok [[.bool false]]
  | execute (.query (.revocableMembership ..)) => .ok [[.bool false]]
  | execute (.query (.roleExists _)) => .ok [[.bool true]]
  | execute (.query (.databaseExists _)) => .ok [[.bool true]]
  | execute (.query (.schemaExists _)) => .ok [[.bool true]]
  | execute _ => .ok []
  | openEngine .. => ()
  | disposeEngine _ => ()
  | disconnect => ()
  | acquire _ => ()
  | release _ => ()

/-- A client that acts as a role of its own. -/
def Client.admin : Client := { address := ⟨"postgresql", some "app"⟩, actor := "admin" }

end DeclaredAccess
