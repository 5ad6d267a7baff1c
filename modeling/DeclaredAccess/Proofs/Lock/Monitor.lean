import DeclaredAccess.Proofs.Lock.Crew

/-! Threads at the lock. They have their turns under the mutex of the lock, so one at a time and in
any order. A turn is the whole way of a thread through the mutex: a call that comes, or a woken
thread that goes on, up to where the thread leaves the lock's code or falls asleep. A crew that only
counts the threads goes along with every turn. -/

namespace DeclaredAccess

/-- What the turn of a thread comes to. -/
inductive LockEvent
  | entered (m : LockMode)
  | left (m : LockMode)
  | waits
  /-- A release is refused with an error. -/
  | refused (cause : LockError)
  /-- A sleeper was woken though nobody released the lock. -/
  | stirred
  deriving DecidableEq, Repr

/-- A thread as the lock sees it. Outside of a call it may or may not hold the lock. -/
inductive Thread
  | outside
  | asleep (m : LockMode)
  /-- It was woken and has not had its turn yet. -/
  | awake (m : LockMode)
  deriving DecidableEq, Repr

namespace Thread

def woken : Thread → Thread
  | asleep m => awake m
  | t => t

/-- Whether it is in a call that takes the lock in that mode, and has not got it. -/
def wants (m : LockMode) : Thread → Bool
  | outside => false
  | asleep k => k = m
  | awake k => k = m

end Thread

/-- How a thread leaves the mutex, and the lock as it leaves it. -/
structure Turn where
  lock : Lock
  thread : Thread := .outside
  event : LockEvent
  wakes : Bool := false

namespace Turn

/-- A thread that wants the lock looks whether it gets it. -/
def look (m : LockMode) (l : Lock) : Turn := match l.enter? m with
  | some l' => { lock := l', event := .entered m }
  | none => { lock := l, thread := .asleep m, event := .waits }

def call (l : Lock) : LockCall → Turn
  | .acquire m => look m (l.announce m)
  | .release m => match l.release m with
    | .ok (l', wakes) => { lock := l', event := .left m, wakes }
    | .error cause => { lock := l, event := .refused cause }

end Turn

structure Monitor where
  lock : Lock := {}
  threads : List Thread

namespace Monitor

/-- The monitor once the thread between `p` and `q` has had its turn. -/
def after (p q : List Thread) (t : Turn) : Monitor where
  lock := t.lock
  threads :=
    let threads := p ++ t.thread :: q
    if t.wakes then threads.map Thread.woken else threads

/-- A thread calls the lock. -/
inductive Calls (x : LockCall) : Monitor → LockEvent → Monitor → Prop
  | turn {l : Lock} (p q : List Thread) :
    Calls x ⟨l, p ++ .outside :: q⟩ (Turn.call l x).event (after p q (Turn.call l x))

/-- A woken thread goes on. -/
inductive Resumes : Monitor → LockEvent → Monitor → Prop
  | turn {l : Lock} (m : LockMode) (p q : List Thread) :
    Resumes ⟨l, p ++ .awake m :: q⟩ (Turn.look m l).event (after p q (Turn.look m l))

/-- A sleeper is woken for no reason. -/
inductive Stirs : Monitor → Monitor → Prop
  | thread {l : Lock} (m : LockMode) (p q : List Thread) :
    Stirs ⟨l, p ++ .asleep m :: q⟩ ⟨l, p ++ .awake m :: q⟩

inductive Step : Monitor → LockEvent → Monitor → Prop
  | call {s s' : Monitor} {e : LockEvent} (x : LockCall) (h : Calls x s e s') : Step s e s'
  | resume {s s' : Monitor} {e : LockEvent} (h : Resumes s e s') : Step s e s'
  | stir {s s' : Monitor} (h : Stirs s s') : Step s .stirred s'

/-- A new lock, and as many threads. -/
def start (n : Nat) : Monitor := ⟨{}, List.replicate n .outside⟩

/-- What the turns of the threads can come to, in their order, and the monitor after them. -/
inductive Run (n : Nat) : List LockEvent → Monitor → Prop
  | start : Run n [] (start n)
  | step {es : List LockEvent} {e : LockEvent} {s s' : Monitor} (h : Run n es s)
    (hs : Step s e s') : Run n (es ++ [e]) s'

/-! ## The crew that counts the threads -/

def crew (s : Monitor) : Crew where
  lock := s.lock
  readersAsleep := s.threads.count (.asleep .read)
  readersAwake := s.threads.count (.awake .read)
  writersAsleep := s.threads.count (.asleep .write)
  writersAwake := s.threads.count (.awake .write)

variable {l : Lock} {p q : List Thread} {m : LockMode} {x : LockCall} {e : LockEvent}
  {s s' : Monitor} {n : Nat} {es : List LockEvent}

theorem crew_start (n : Nat) : (start n).crew = {} := by
  simp [start, crew, List.count_replicate]

theorem count_wants (m : LockMode) (threads : List Thread) :
    threads.countP (Thread.wants m) = threads.count (.asleep m) + threads.count (.awake m) := by
  induction threads with
  | nil => rfl
  | cons t rest ih =>
    rw [List.countP_cons, List.count_cons, List.count_cons, ih]
    cases t with
    | outside => simp [Thread.wants]
    | asleep k => simp [Thread.wants]; omega
    | awake k => simp [Thread.wants]; omega

theorem count_map_woken (m : LockMode) (threads : List Thread) :
    (threads.map Thread.woken).count (.asleep m) = 0 ∧
      (threads.map Thread.woken).count (.awake m) =
        threads.count (.awake m) + threads.count (.asleep m) := by
  induction threads with
  | nil => exact ⟨rfl, rfl⟩
  | cons t rest ih =>
    rw [List.map_cons, List.count_cons, List.count_cons, List.count_cons, List.count_cons,
      ih.1, ih.2]
    cases t with
    | outside => simp [Thread.woken]
    | asleep k => simp [Thread.woken]; omega
    | awake k => simp [Thread.woken]; omega

theorem crew_map_woken (threads : List Thread) :
    (Monitor.mk l (threads.map Thread.woken)).crew = (Monitor.mk l threads).crew.wakeAll := by
  simp only [crew, Crew.wakeAll, count_map_woken]

theorem crew_look (m : LockMode) (l : Lock) (p q : List Thread) :
    (after p q (Turn.look m l)).crew = (Monitor.mk l (p ++ .outside :: q)).crew.look m := by
  cases m with
  | read =>
    cases h : l.enterRead? with
    | none => simp [after, Turn.look, Lock.enter?, crew, Crew.look, Crew.readerLooks, h,
        Nat.add_assoc]
    | some l' => simp [after, Turn.look, Lock.enter?, crew, Crew.look, Crew.readerLooks, h]
  | write =>
    cases h : l.enterWrite? with
    | none => simp [after, Turn.look, Lock.enter?, crew, Crew.look, Crew.writerLooks, h,
        Nat.add_assoc]
    | some l' => simp [after, Turn.look, Lock.enter?, crew, Crew.look, Crew.writerLooks, h]

theorem crew_release (m : LockMode) (l : Lock) (p q : List Thread) :
    (after p q (Turn.call l (.release m))).crew =
      (Monitor.mk l (p ++ .outside :: q)).crew.call (.release m) := by
  rw [Crew.call_release]
  simp only [Turn.call, crew]
  cases h : l.release m with
  | error cause => rfl
  | ok r =>
    obtain ⟨l', wakes⟩ := r
    cases wakes with
    | false => rfl
    | true => exact crew_map_woken _

theorem Calls.crew (h : Calls x s e s') : s'.crew = s.crew.call x := by
  cases h with
  | turn p q => cases x with
    | acquire m => rw [Turn.call, crew_look]; cases m <;> rfl
    | release m => exact crew_release m _ p q

theorem Resumes.crew (h : Resumes s e s') :
    ∃ m, 0 < s.crew.awake m ∧ s'.crew = s.crew.step m := by
  cases h with
  | turn m p q =>
    have found (t : Thread) : 0 < (p ++ t :: q).count t := List.count_pos_iff.mpr (by simp)
    refine ⟨m, ?_, ?_⟩
    · cases m with
      | read => exact found _
      | write => exact found _
    · rw [crew_look]
      cases m <;> simp [Monitor.crew, Crew.look, Crew.step, Crew.stepReader, Crew.stepWriter]

theorem Stirs.crew (h : Stirs s s') : ∃ m, 0 < s.crew.asleep m ∧ s'.crew = s.crew.stir m := by
  cases h with
  | thread m p q =>
    have found (t : Thread) : 0 < (p ++ t :: q).count t := List.count_pos_iff.mpr (by simp)
    refine ⟨m, ?_, ?_⟩
    · cases m with
      | read => exact found _
      | write => exact found _
    · cases m <;> simp [Monitor.crew, Crew.stir, Nat.add_assoc]

/-! ## Every sleeper has a reason -/

theorem Step.sound (h : Step s e s') (hs : s.crew.Sound) : s'.crew.Sound := by
  cases h with
  | call x h => rw [h.crew]; exact hs.call x
  | resume h =>
    obtain ⟨m, ha, he⟩ := h.crew
    rw [he]
    exact hs.step ha
  | stir h =>
    obtain ⟨m, ha, he⟩ := h.crew
    rw [he]
    exact hs.stir ha

theorem Run.sound (h : Run n es s) : s.crew.Sound := by
  induction h with
  | start => rw [crew_start]; exact Crew.sound_new
  | step _ hs ih => exact hs.sound ih

end Monitor

end DeclaredAccess
