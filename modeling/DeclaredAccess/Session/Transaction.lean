import DeclaredAccess.Session.Client

/-! Statements, transactions and savepoints on a client's connection. -/

namespace DeclaredAccess

variable {σ α : Type}

namespace Task

/-- Sends a marker. A marker's failure is the driver's own. -/
def mark (m : Marker) : Task σ Unit := do
  match ← ask (.mark m) with
  | .ok () => return ()
  | .error e => fail (.database e)

/-- Sends one statement. Its failure is told by what the statement was for. -/
def execute (statement : Sql.Statement) (intent : String) : Task σ (List Row) := do
  match statement.text with
  | .error e => fail (.constant e)
  | .ok _ => match ← ask (.execute statement) with
    | .ok rows => return rows
    | .error e => fail (e.toError intent)

/-- Ends the transaction and keeps what it did. -/
def commit : Task σ Unit := do
  changeSession fun s => { s with inTransaction := false }
  match ← ask (.mark .commit) with
  | .ok () => return ()
  | .error e => fail e.toCommitError

/-- Ends the transaction and undoes what it did; nothing is left to undo after a commit. -/
def rollback : Task σ Unit := do
  if (← session).inTransaction then
    changeSession fun s => { s with inTransaction := false }
    mark .rollback

/-- Runs the task inside a savepoint: what a failing task did is undone, and the transaction
around it goes on. -/
def savepoint (body : Task σ α) : Task σ α := do
  mark .savepoint
  match ← attempt body with
  | .ok a =>
    mark .release
    return a
  | .error e =>
    mark .rollbackTo
    settled (.error e)

end Task

/-- The server has to be a PostgreSQL one, reached by the one driver whose quoting is known. -/
def Peer.check (p : Peer) : Except Error Unit :=
  if p.dialect ≠ "postgresql" then .error (.dialect p.dialect)
  else if p.driver ≠ "psycopg" then .error (.driver p.driver)
  else .ok ()

/-- Runs the task in a transaction of its own, which is rolled back unless the task commits it. An
empty name stands for the default database. -/
def Client.transaction (c : Client) (name : String) (body : Task σ α) : Task σ α :=
  c.connected name fun peer => do
    Task.ofExcept peer.check
    Task.mark .begin
    Task.changeSession fun s => { s with inTransaction := true }
    Task.andFinally body Task.rollback

/-- Runs the task in a transaction of its own, which is committed once the task has succeeded. -/
def Client.committed (c : Client) (name : String) (body : Task σ Unit) : Task σ Unit :=
  c.transaction name do
    body
    Task.commit

/-- Runs a task that removes something. Where something is missing, nothing is left to remove. -/
def Task.unlessMissing (removal : Task σ Unit) : Task σ Unit := do
  match ← attempt removal with
  | .ok () => return ()
  | .error e => if e.error.isNotFound then return () else settled (.error e)

/-- Runs the task while the catalog lock is held. -/
def Task.locked (mode : LockMode) (body : Task σ α) : Task σ α := do
  ask (.acquire mode)
  andFinally body (ask (.release mode))

end DeclaredAccess
