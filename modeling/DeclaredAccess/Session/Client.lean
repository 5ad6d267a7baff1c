import DeclaredAccess.Session.Address
import DeclaredAccess.Session.Task

/-! The entry to every operation: where the server is, how connections to it are made, and what
it can do. -/

namespace DeclaredAccess

structure Client where
  address : Address
  /-- The role that statements run as, where it is not the connecting one. -/
  actor : String := ""
  maxConnections : Int := 4
  connectTimeout : Int := 180
  deriving DecidableEq

namespace Client

variable {σ α : Type}

/-- The client's options, checked. -/
def make (url : String) (actor : String) (maxConnections connectTimeout : Int) :
    Except Error Client := do
  if maxConnections < 1 then throw (.config (.maxConnections maxConnections))
  if connectTimeout < 0 then throw (.config (.connectTimeout connectTimeout))
  match Address.ofText? url with
  | some address => return { address, actor, maxConnections, connectTimeout }
  | none => throw (.url url)

/-- The version to assume of the server: the empty text leaves it to be asked. -/
def expectedVersion (given : String) : Except Error (Option Version) :=
  if given.isEmpty then .ok none else (Version.ofText given).map some

def defaultDatabase (c : Client) : String := match c.address.database with
  | some database => if database.isEmpty then "postgres" else database
  | none => "postgres"

/-- Connections are pooled by the client where the server is a PostgreSQL one. -/
def poolOptions (c : Client) : Option PoolOptions :=
  if c.address.backend = "postgresql" then
    some ⟨c.maxConnections, 0, c.connectTimeout, "sync-grants"⟩
  else none

/-- The database that a name stands for: the empty one for the default database. -/
def databaseOr (c : Client) (name : String) : String :=
  if name.isEmpty then c.defaultDatabase else name

/-- The number of the engine that connects to a database, set up on first use. -/
def engine (c : Client) (name : String) : Task σ Nat := do
  let database := c.databaseOr name
  let s ← Task.session
  match s.engines.get? database with
  | some n => return n
  | none =>
    Task.ask (.openEngine database c.poolOptions)
    Task.changeSession fun s =>
      { s with engines := s.engines.put database s.engineCount, engineCount := s.engineCount + 1 }
    return s.engineCount

/-- Disposes of every engine. -/
def close : Task σ Unit := do
  (← Task.session).engines.keys.forM fun database => Task.ask (.disposeEngine database)
  Task.changeSession fun s => { s with engines := [] }

/-- Opens a connection for the time of a task, and closes it whatever becomes of the task. -/
def connected (c : Client) (name : String) (body : Peer → Task σ α) : Task σ α := do
  discard <| c.engine name
  match ← Task.ask (.connect (c.databaseOr name)) with
  | .error e => Task.fail (.database e)
  | .ok peer => Task.andFinally (body peer) (Task.ask .disconnect)

/-- The server's version, asked of it on first use. -/
def version (c : Client) : Task σ Version := do
  match (← Task.session).version with
  | some v => return v
  | none =>
    let reported ← c.connected "" fun peer => pure peer.version
    let v := (reported.bind Version.ofParts?).getD .assumed
    Task.changeSession fun s => { s with version := some v }
    return v

def supports (c : Client) (f : Feature) : Task σ Bool := return (← c.version).supports f

/-- Fails unless the server has the feature. -/
def require (c : Client) (f : Feature) (resource : String) : Task σ Unit := do
  if !(← c.supports f) then
    Task.fail (.unsupported resource (← c.version))

end Client

end DeclaredAccess
