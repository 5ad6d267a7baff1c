/-! The lock on the catalog: any number of readers, or one writer alone. A waiting writer goes
before readers that come later, so that reads cannot keep a write waiting for ever. The lock is a
monitor: what it counts changes only under a mutex, and a thread that has to wait sleeps until a
release wakes every sleeper. -/

namespace DeclaredAccess

/-- What the lock counts: held reads, whether a write is held, and threads that want to write and
do not yet. -/
structure Lock where
  readers : Nat := 0
  writer : Bool := false
  writersWaiting : Nat := 0
  deriving DecidableEq, Repr

inductive LockError
  | notReading
  | notWriting
  deriving DecidableEq, Repr

def LockError.message : LockError → String
  | notReading => "Catalog lock released for reading without being held"
  | notWriting => "Catalog lock released for writing without being held"

namespace Lock

/-- Readers wait for a writer that holds the lock, and for one that waits for it. -/
def enterRead? (l : Lock) : Option Lock :=
  if l.writer || l.writersWaiting != 0 then none else some { l with readers := l.readers + 1 }

/-- A writer that was counted as waiting gets the lock once nobody holds it. -/
def enterWrite? (l : Lock) : Option Lock :=
  if l.writer || l.readers != 0 then none
  else some { l with writer := true, writersWaiting := l.writersWaiting - 1 }

/-- A thread comes to write. -/
def announceWrite (l : Lock) : Lock := { l with writersWaiting := l.writersWaiting + 1 }

/-- Ends one read, and tells whether the sleepers are woken: the last reader wakes them. -/
def leaveRead (l : Lock) : Except LockError (Lock × Bool) :=
  if l.readers = 0 then .error .notReading
  else .ok ({ l with readers := l.readers - 1 }, l.readers == 1)

/-- Ends the write; the sleepers are woken. -/
def leaveWrite (l : Lock) : Except LockError Lock :=
  if l.writer then .ok { l with writer := false } else .error .notWriting

end Lock

end DeclaredAccess
