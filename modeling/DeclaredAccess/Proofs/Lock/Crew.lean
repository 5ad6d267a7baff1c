import DeclaredAccess.Lock.Crew
import DeclaredAccess.Proofs.Lock.Modes

/-! What the threads at the lock keep up, told of the crew that counts them. A sleeper always has a
reason to sleep: a writer sleeps only while the lock is held, and a reader only while a writer holds
the lock or waits for it, for the step that ends the reason wakes everybody. Where nobody is awake
any more, the counts are a function of what they were before anybody looked: whoever looks changes
nothing of what the lock will come to. -/

namespace DeclaredAccess

namespace Crew

variable {c : Crew}

def awake (c : Crew) : LockMode → Nat
  | .read => c.readersAwake
  | .write => c.writersAwake

def asleep (c : Crew) : LockMode → Nat
  | .read => c.readersAsleep
  | .write => c.writersAsleep

/-- A thread in a call, which is counted nowhere else, looks at the lock. -/
def look (c : Crew) : LockMode → Crew
  | .read => c.readerLooks
  | .write => c.writerLooks

/-- One awake thread goes on. -/
def step (c : Crew) : LockMode → Crew
  | .read => c.stepReader
  | .write => c.stepWriter

/-- One sleeper is woken. -/
def stir (c : Crew) : LockMode → Crew
  | .read => { c with readersAsleep := c.readersAsleep - 1, readersAwake := c.readersAwake + 1 }
  | .write => { c with writersAsleep := c.writersAsleep - 1, writersAwake := c.writersAwake + 1 }

/-- A new thread makes a call. One that is refused changes nothing. -/
def call (c : Crew) : LockCall → Crew
  | .acquire .read => c.acquireRead
  | .acquire .write => c.acquireWrite
  | .release .read => match c.releaseRead with
    | .ok c' => c'
    | .error _ => c
  | .release .write => match c.releaseWrite with
    | .ok c' => c'
    | .error _ => c

/-! ## The ways that a step can go -/

theorem readerLooks_cases (c : Crew) :
    ((c.lock.writer = true ∨ 0 < c.lock.writersWaiting) ∧
      c.readerLooks = { c with readersAsleep := c.readersAsleep + 1 }) ∨
    (c.lock.writer = false ∧ c.lock.writersWaiting = 0 ∧
      c.readerLooks = { c with lock := { c.lock with readers := c.lock.readers + 1 } }) := by
  simp only [readerLooks, Lock.enterRead?]
  by_cases h : c.lock.writer || c.lock.writersWaiting != 0
  · rw [if_pos h]
    exact .inl ⟨by simpa [Nat.pos_iff_ne_zero] using h, rfl⟩
  · rw [if_neg h]
    have hn : c.lock.writer = false ∧ c.lock.writersWaiting = 0 := by simpa using h
    exact .inr ⟨hn.1, hn.2, rfl⟩

theorem writerLooks_cases (c : Crew) :
    ((c.lock.writer = true ∨ 0 < c.lock.readers) ∧
      c.writerLooks = { c with writersAsleep := c.writersAsleep + 1 }) ∨
    (c.lock.writer = false ∧ c.lock.readers = 0 ∧
      c.writerLooks = { c with lock := { c.lock with
        writer := true, writersWaiting := c.lock.writersWaiting - 1 } }) := by
  simp only [writerLooks, Lock.enterWrite?]
  by_cases h : c.lock.writer || c.lock.readers != 0
  · rw [if_pos h]
    exact .inl ⟨by simpa [Nat.pos_iff_ne_zero] using h, rfl⟩
  · rw [if_neg h]
    have hn : c.lock.writer = false ∧ c.lock.readers = 0 := by simpa using h
    exact .inr ⟨hn.1, hn.2, rfl⟩

theorem call_release (c : Crew) (m : LockMode) :
    c.call (.release m) = match c.lock.release m with
      | .ok (lock, wakes) => if wakes then { c with lock }.wakeAll else { c with lock }
      | .error _ => c := by
  cases m with
  | read =>
    simp only [call, releaseRead, Lock.release]
    cases c.lock.leaveRead <;> rfl
  | write =>
    simp only [call, releaseWrite, Lock.release]
    cases c.lock.leaveWrite <;> rfl

theorem releaseRead_cases (c : Crew) :
    (c.lock.readers = 0 ∧ c.call (.release .read) = c) ∨
    (1 < c.lock.readers ∧ c.call (.release .read) =
      { c with lock := { c.lock with readers := c.lock.readers - 1 } }) ∨
    (c.lock.readers = 1 ∧ c.call (.release .read) =
      { c with lock := { c.lock with readers := 0 } }.wakeAll) := by
  match h : c.lock.readers with
  | 0 => simp [call_release, Lock.release, Lock.leaveRead, h]
  | 1 => simp [call_release, Lock.release, Lock.leaveRead, h]
  | n + 2 => simp [call_release, Lock.release, Lock.leaveRead, h]

theorem releaseWrite_cases (c : Crew) :
    (c.lock.writer = false ∧ c.call (.release .write) = c) ∨
    (c.lock.writer = true ∧ c.call (.release .write) =
      { c with lock := { c.lock with writer := false } }.wakeAll) := by
  cases h : c.lock.writer with
  | false => simp [call_release, Lock.release, Lock.leaveWrite, h, Except.map]
  | true => simp [call_release, Lock.release, Lock.leaveWrite, h, Except.map]

/-! ## Every sleeper has a reason -/

/-- What holds between any two turns of the threads. While a writer that is counted as waiting has
its turn, it is the one that is `inHand`. -/
structure Sound (c : Crew) (inHand : Nat := 0) : Prop where
  alone : c.lock.writer = true → c.lock.readers = 0
  counted : c.lock.writersWaiting = c.writersAsleep + c.writersAwake + inHand
  writers : 0 < c.writersAsleep → c.lock.writer = true ∨ 0 < c.lock.readers
  readers : 0 < c.readersAsleep → c.lock.writer = true ∨ 0 < c.lock.writersWaiting

theorem sound_new : ({} : Crew).Sound := by
  constructor <;> simp

theorem Sound.readerLooks (h : c.Sound) : c.readerLooks.Sound := by
  obtain ⟨alone, counted, writers, readers⟩ := h
  rcases c.readerLooks_cases with ⟨hw, he⟩ | ⟨hw, hn, he⟩
  · rw [he]
    exact ⟨alone, counted, writers, fun _ => hw⟩
  · rw [he]
    refine ⟨fun ha => ?_, counted, fun _ => .inr (Nat.succ_pos _), readers⟩
    rw [hw] at ha
    cases ha

theorem Sound.writerLooks (h : c.Sound 1) : c.writerLooks.Sound := by
  obtain ⟨alone, counted, writers, readers⟩ := h
  rcases c.writerLooks_cases with ⟨hw, he⟩ | ⟨hw, hn, he⟩
  · rw [he]
    refine ⟨alone, ?_, fun _ => hw, readers⟩
    simp only
    omega
  · rw [he]
    refine ⟨fun _ => hn, ?_, fun _ => .inl rfl, fun _ => .inl rfl⟩
    simp only
    omega

/-- A release that leaves the lock free wakes everybody. -/
theorem Sound.wakeAll {l : Lock} (h : c.Sound) (ha : l.writer = true → l.readers = 0)
    (hw : l.writersWaiting = c.lock.writersWaiting) : ({ c with lock := l }.wakeAll).Sound := by
  refine ⟨ha, ?_, fun hs => ?_, fun hs => ?_⟩
  · have := h.counted
    simp only [Crew.wakeAll]
    omega
  · cases hs
  · cases hs

theorem Sound.call (h : c.Sound) (x : LockCall) : (c.call x).Sound := by
  cases x with
  | acquire m => cases m with
    | read => exact h.readerLooks
    | write =>
      have announced : Sound { c with lock := c.lock.announceWrite } 1 := by
        refine ⟨h.alone, ?_, h.writers, fun _ => .inr (Nat.succ_pos _)⟩
        have := h.counted
        simp only [Lock.announceWrite]
        omega
      exact announced.writerLooks
  | release m => cases m with
    | read =>
      rcases c.releaseRead_cases with ⟨_, he⟩ | ⟨hr, he⟩ | ⟨hr, he⟩
      · rw [he]
        exact h
      · rw [he]
        have none_writes : c.lock.writer = true → c.lock.readers - 1 = 0 := fun hw => by
          rw [h.alone hw]
        exact ⟨none_writes, h.counted, fun _ => .inr (by simp only; omega), h.readers⟩
      · rw [he]
        exact h.wakeAll (fun _ => rfl) rfl
    | write =>
      rcases c.releaseWrite_cases with ⟨_, he⟩ | ⟨_, he⟩
      · rw [he]
        exact h
      · rw [he]
        exact h.wakeAll (fun hw => by cases hw) rfl

theorem Sound.step (h : c.Sound) {m : LockMode} (ha : 0 < c.awake m) : (c.step m).Sound := by
  cases m with
  | read =>
    have taken : Sound { c with readersAwake := c.readersAwake - 1 } :=
      ⟨h.alone, h.counted, h.writers, h.readers⟩
    exact taken.readerLooks
  | write =>
    have taken : Sound { c with writersAwake := c.writersAwake - 1 } 1 := by
      refine ⟨h.alone, ?_, h.writers, h.readers⟩
      have hp : 0 < c.writersAwake := ha
      have := h.counted
      simp only
      omega
    exact taken.writerLooks

theorem Sound.stir (h : c.Sound) {m : LockMode} (ha : 0 < c.asleep m) : (c.stir m).Sound := by
  cases m with
  | read =>
    refine ⟨h.alone, h.counted, h.writers, fun hs => h.readers ?_⟩
    exact ha
  | write =>
    have hp : 0 < c.writersAsleep := ha
    refine ⟨h.alone, ?_, fun _ => h.writers hp, h.readers⟩
    have := h.counted
    simp only [Crew.stir]
    omega

end Crew

end DeclaredAccess
