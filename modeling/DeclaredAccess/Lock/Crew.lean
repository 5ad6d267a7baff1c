import DeclaredAccess.Lock

/-! The threads at a lock. Threads of one mode that wait are alike, so a crew counts them: those
that sleep and those that were woken and will look at the lock again. -/

namespace DeclaredAccess

structure Crew where
  lock : Lock := {}
  readersAsleep : Nat := 0
  readersAwake : Nat := 0
  writersAsleep : Nat := 0
  writersAwake : Nat := 0
  deriving DecidableEq, Repr

namespace Crew

/-- A reader looks at the lock: it gets it or falls asleep. -/
def readerLooks (c : Crew) : Crew := match c.lock.enterRead? with
  | some l => { c with lock := l }
  | none => { c with readersAsleep := c.readersAsleep + 1 }

/-- A writer that was counted looks at the lock: it gets it or falls asleep. -/
def writerLooks (c : Crew) : Crew := match c.lock.enterWrite? with
  | some l => { c with lock := l }
  | none => { c with writersAsleep := c.writersAsleep + 1 }

/-- A new thread wants to read. -/
def acquireRead (c : Crew) : Crew := c.readerLooks

/-- A new thread wants to write. -/
def acquireWrite (c : Crew) : Crew := { c with lock := c.lock.announceWrite }.writerLooks

def wakeAll (c : Crew) : Crew :=
  { c with
    readersAsleep := 0, readersAwake := c.readersAwake + c.readersAsleep
    writersAsleep := 0, writersAwake := c.writersAwake + c.writersAsleep }

def releaseRead (c : Crew) : Except LockError Crew := do
  let (lock, wakes) ← c.lock.leaveRead
  return if wakes then { c with lock }.wakeAll else { c with lock }

def releaseWrite (c : Crew) : Except LockError Crew := do
  return { c with lock := ← c.lock.leaveWrite }.wakeAll

/-- One awake reader goes on. -/
def stepReader (c : Crew) : Crew := { c with readersAwake := c.readersAwake - 1 }.readerLooks

/-- One awake writer goes on. -/
def stepWriter (c : Crew) : Crew := { c with writersAwake := c.writersAwake - 1 }.writerLooks

/-- The crew once no thread can go on any more. A look wakes nobody, so each awake thread looks
once. -/
def settle (c : Crew) : Crew :=
  Nat.repeat stepWriter c.writersAwake (Nat.repeat stepReader c.readersAwake c)

/-- Readers that do not have the lock yet. -/
def readersWaiting (c : Crew) : Nat := c.readersAsleep + c.readersAwake

end Crew

end DeclaredAccess
