import DeclaredAccess.Lock
import DeclaredAccess.Session.Request

/-! The lock as its modes see it: taken, announced and given back in a mode. -/

namespace DeclaredAccess

/-- The lock once it is taken in a mode, where that is possible now. -/
def Lock.enter? (l : Lock) : LockMode → Option Lock
  | .read => l.enterRead?
  | .write => l.enterWrite?

/-- The lock once it is given back, where it was held in that mode. -/
def Lock.leave? (l : Lock) : LockMode → Option Lock
  | .read => l.leaveRead.toOption.map (·.1)
  | .write => l.leaveWrite.toOption

/-- A thread comes to take the lock in a mode; a writer is counted as waiting. -/
def Lock.announce (l : Lock) : LockMode → Lock
  | .read => l
  | .write => l.announceWrite

/-- The lock once it is given back in a mode, and whether the sleepers are woken. -/
def Lock.release (l : Lock) : LockMode → Except LockError (Lock × Bool)
  | .read => l.leaveRead
  | .write => l.leaveWrite.map fun l => (l, true)

/-- How often the lock is held in a mode. -/
def Lock.holds (l : Lock) : LockMode → Nat
  | .read => l.readers
  | .write => l.writer.toNat

/-- What a release says in a mode that nobody holds. -/
def Lock.refusal : LockMode → LockError
  | .read => .notReading
  | .write => .notWriting

/-- What a thread can ask of the lock. -/
inductive LockCall
  | acquire (m : LockMode)
  | release (m : LockMode)
  deriving DecidableEq, Repr

namespace Lock

variable {l l' : Lock}

theorem of_enterRead (h : l.enter? .read = some l') :
    l.writer = false ∧ l'.readers = l.readers + 1 ∧ l'.writer = false := by
  simp only [enter?, enterRead?] at h
  split at h
  · cases h
  · rename_i hw
    cases h
    simp only [Bool.or_eq_true, not_or, Bool.not_eq_true] at hw
    exact ⟨hw.1, rfl, hw.1⟩

theorem of_enterWrite (h : l.enter? .write = some l') :
    l.writer = false ∧ l.readers = 0 ∧ l'.readers = 0 ∧ l'.writer = true := by
  simp only [enter?, enterWrite?] at h
  split at h
  · cases h
  · rename_i hw
    cases h
    simp only [Bool.or_eq_true, not_or, Bool.not_eq_true, bne_eq_false_iff_eq] at hw
    exact ⟨hw.1, hw.2, hw.2, rfl⟩

theorem of_leaveRead (h : l.leave? .read = some l') :
    l.readers = l'.readers + 1 ∧ l'.writer = l.writer := by
  simp only [leave?, leaveRead] at h
  split at h
  · cases h
  · cases h
    refine ⟨?_, rfl⟩
    show l.readers = l.readers - 1 + 1
    omega

theorem of_leaveWrite (h : l.leave? .write = some l') :
    l.writer = true ∧ l'.readers = l.readers ∧ l'.writer = false := by
  simp only [leave?, leaveWrite] at h
  split at h
  · rename_i hw
    cases h
    exact ⟨hw, rfl, rfl⟩
  · cases h

theorem none_writes_of_enterRead (h : l.enter? .read = some l') : l.writersWaiting = 0 := by
  simp only [enter?, enterRead?] at h
  split at h
  · cases h
  · rename_i hw
    simp only [Bool.or_eq_true, not_or, Bool.not_eq_true, bne_eq_false_iff_eq] at hw
    exact hw.2

@[simp] theorem announce_holds (l : Lock) (m k : LockMode) :
    (l.announce m).holds k = l.holds k := by
  cases m <;> cases k <;> rfl

theorem enter?_holds {m : LockMode} (h : l.enter? m = some l') (k : LockMode) :
    l'.holds k = l.holds k + if m = k then 1 else 0 := by
  cases m with
  | read =>
    obtain ⟨hw, hr, hw'⟩ := of_enterRead h
    cases k <;> simp [holds, hr, hw, hw']
  | write =>
    obtain ⟨hw, hr, hr', hw'⟩ := of_enterWrite h
    cases k <;> simp [holds, hr, hr', hw, hw']

theorem release_holds {m : LockMode} {wakes : Bool} (h : l.release m = .ok (l', wakes))
    (k : LockMode) : l.holds k = l'.holds k + if m = k then 1 else 0 := by
  cases m with
  | read =>
    have hl : l.leave? .read = some l' := by
      rw [release] at h
      simp [leave?, h, Except.toOption]
    obtain ⟨hr, hw⟩ := of_leaveRead hl
    cases k <;> simp [holds, hr, hw]
  | write =>
    have hl : l.leave? .write = some l' := by
      cases he : l.leaveWrite with
      | error cause => simp [release, he, Except.map] at h
      | ok l₁ =>
        simp only [release, he, Except.map, Except.ok.injEq, Prod.mk.injEq] at h
        rw [leave?, he, h.1]
        rfl
    obtain ⟨hw, hr, hw'⟩ := of_leaveWrite hl
    cases k <;> simp [holds, hr, hw, hw']

/-- A release is refused exactly where nobody holds the lock in its mode. -/
theorem release_eq_error_iff {m : LockMode} {cause : LockError} :
    l.release m = .error cause ↔ l.holds m = 0 ∧ refusal m = cause := by
  cases m with
  | read => by_cases hr : l.readers = 0 <;> simp [release, leaveRead, holds, refusal, hr]
  | write => cases hw : l.writer <;> simp [release, leaveWrite, holds, refusal, hw, Except.map]

end Lock

end DeclaredAccess
