import DeclaredAccess.Error
import DeclaredAccess.Sql.Text

/-! What a client asks of its surroundings: connections, transactions and statements of the
server, and the lock on the catalog that its operations share. Each request has a type of answers,
so whatever the server may do is a choice of answers. -/

namespace DeclaredAccess

/-- The mode in which an operation holds the catalog lock. -/
inductive LockMode
  | read | write
  deriving DecidableEq, Repr

/-- A mark in the course of a transaction. -/
inductive Marker
  | begin | commit | rollback | savepoint | release | rollbackTo
  deriving DecidableEq, Repr

/-- The text of a marker. -/
def Marker.text : Marker → String
  | begin => "BEGIN"
  | commit => "COMMIT"
  | rollback => "ROLLBACK"
  | savepoint => "SAVEPOINT"
  | release => "RELEASE SAVEPOINT"
  | rollbackTo => "ROLLBACK TO SAVEPOINT"

/-- How connections to one database are pooled. -/
structure PoolOptions where
  size : Int
  overflow : Int
  connectTimeout : Int
  applicationName : String
  deriving DecidableEq

/-- What a server says about itself when a connection is opened. -/
structure Peer where
  dialect : String
  driver : String
  version : Option (List Int)

abbrev Row := List Value

inductive Request
  /-- Sets up the connections to a database; none of them is opened yet. -/
  | openEngine (database : String) (options : Option PoolOptions)
  | disposeEngine (database : String)
  | connect (database : String)
  | disconnect
  | mark (marker : Marker)
  | execute (statement : Sql.Statement)
  | acquire (mode : LockMode)
  | release (mode : LockMode)

/-- The answers to a request. A connection can be refused, and statements and markers can fail. -/
def Request.Answer : Request → Type
  | connect _ => Except DriverError Peer
  | mark _ => Except DriverError Unit
  | execute _ => Except DriverError (List Row)
  | openEngine .. | disposeEngine _ | disconnect | acquire _ | release _ => Unit

end DeclaredAccess
