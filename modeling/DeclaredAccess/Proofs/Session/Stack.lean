import DeclaredAccess.Session.Request

/-! What a server keeps through connections and transactions. A change counts for the open
transaction at once and for good when the transaction is committed; a savepoint keeps what it found
until it is released or rolled back to. While a connection is open another one can be opened, and
once that is closed the first goes on where it was. Each server that is told of keeps such a stack,
whatever it is that it keeps. -/

namespace DeclaredAccess

variable {ω : Type}

/-- A connection to a database. In a transaction the first of `pending` is what it sees, and each
other one is what a savepoint keeps. -/
structure Link (ω : Type) where
  database : String := ""
  pending : List ω := []

/-- The connection that was opened last, beside what is kept for good and the connections that were
opened before. -/
structure Stack (ω : Type) extends Link ω where
  kept : ω
  outer : List (Link ω) := []

namespace Stack

/-- What the open transaction sees. -/
def seen (k : Stack ω) : ω := k.pending.headD k.kept

def write (k : Stack ω) (w : ω) : Stack ω := { k with pending := w :: k.pending.tail }

def opened (k : Stack ω) (database : String) : Stack ω :=
  { k with toLink := { database }, outer := k.toLink :: k.outer }

def closed (k : Stack ω) : Stack ω :=
  { k with toLink := k.outer.headD {}, outer := k.outer.tail }

/-- A marker that succeeded. -/
def mark (k : Stack ω) : Marker → Stack ω
  | .begin => { k with pending := [k.kept] }
  | .savepoint => { k with pending := k.seen :: k.pending }
  | .release => { k with pending := k.seen :: k.pending.tail.tail }
  | .rollbackTo => { k with pending := k.pending.tail }
  | .commit => { k with kept := k.seen, pending := [] }
  | .rollback => { k with pending := [] }

/-- A marker that failed: the end of a transaction ends it all the same. -/
def lose (k : Stack ω) : Marker → Stack ω
  | .commit | .rollback => { k with pending := [] }
  | _ => k

/-- At the begin of a transaction on a database. -/
def begun (k : Stack ω) (database : String) : Stack ω := (k.opened database).mark .begin

variable {k : Stack ω} {w w' : ω}

@[simp] theorem seen_write : (k.write w).seen = w := rfl

@[simp] theorem database_write : (k.write w).database = k.database := rfl

@[simp] theorem write_write : (k.write w).write w' = k.write w' := rfl

@[simp] theorem kept_opened (database : String) : (k.opened database).kept = k.kept := rfl

@[simp] theorem kept_closed : k.closed.kept = k.kept := rfl

@[simp] theorem seen_begin : (k.mark .begin).seen = k.kept := rfl

@[simp] theorem kept_commit : (k.mark .commit).kept = k.seen := rfl

/-- Only a commit changes what is kept for good. -/
theorem kept_mark {m : Marker} (h : m ≠ .commit) : (k.mark m).kept = k.kept := by
  cases m with
  | commit => exact absurd rfl h
  | _ => rfl

@[simp] theorem kept_lose (m : Marker) : (k.lose m).kept = k.kept := by
  cases m <;> rfl

/-- In a transaction, to write what is seen changes nothing. -/
theorem write_seen (h : k.pending ≠ []) : k.write k.seen = k := by
  obtain ⟨⟨database, pending⟩, kept, outer⟩ := k
  cases pending with
  | nil => exact absurd rfl h
  | cons w ws => rfl

end Stack

end DeclaredAccess
