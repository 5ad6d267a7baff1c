import DeclaredAccess.Proofs.Lock.Exclusion
import DeclaredAccess.Proofs.Lock.Tally

/-! Where the threads at the lock come to rest. Nobody sleeps there without a reason, and what can
be counted there does not depend on the order of the turns: it is what the rule makes of the
calls. -/

namespace DeclaredAccess

namespace Monitor

variable {x : LockCall} {e : LockEvent} {s s' : Monitor} {n : Nat} {es : List LockEvent}
  {xs : List LockCall} {ks : List Tally}

/-- No woken thread is left that could go on. -/
def Settled (s : Monitor) : Prop := ∀ e s', ¬ Resumes s e s'

/-- Threads go on in some order until no one is left. -/
inductive Settles : Monitor → Monitor → Prop
  | done {s : Monitor} (h : s.Settled) : Settles s s
  | resume {s s' s'' : Monitor} {e : LockEvent} (h : Resumes s e s') (hs : Settles s' s'') :
    Settles s s''
  | stir {s s' s'' : Monitor} (h : Stirs s s') (hs : Settles s' s'') : Settles s s''

def tally (s : Monitor) : Tally :=
  { s.lock with readersWaiting := s.threads.countP (Thread.wants .read) }

/-- Threads make the calls, each one once all threads have settled after the one before. The counts
are taken after each of them. -/
inductive Plays : Monitor → List LockCall → List Tally → Prop
  | nil {s : Monitor} : Plays s [] []
  | cons {s s' s'' : Monitor} {x : LockCall} {e : LockEvent} {xs : List LockCall}
    {ks : List Tally} (h : Calls x s e s') (hs : Settles s' s'') (hp : Plays s'' xs ks) :
    Plays s (x :: xs) (s''.tally :: ks)

theorem tally_crew (s : Monitor) : s.crew.tally = s.tally := by
  simp only [tally, count_wants, Crew.tally, Crew.readersWaiting, crew]

theorem Settled.none_awake (h : s.Settled) (m : LockMode) :
    s.threads.count (.awake m) = 0 := by
  refine List.count_eq_zero.mpr fun ht => ?_
  obtain ⟨p, q, hpq⟩ := List.append_of_mem ht
  obtain ⟨l, threads⟩ := s
  obtain rfl : threads = p ++ .awake m :: q := hpq
  exact h _ _ (.turn m p q)

theorem Settled.quiet (h : s.Settled) : s.crew.Quiet := fun m => by
  cases m with
  | read => exact h.none_awake .read
  | write => exact h.none_awake .write

theorem Settled.count_wants (h : s.Settled) (m : LockMode) :
    s.threads.countP (Thread.wants m) = s.threads.count (.asleep m) := by
  rw [Monitor.count_wants, h.none_awake, Nat.add_zero]

/-! ## One outcome for every order -/

theorem Settles.outcome (h : Settles s s') (hs : s.crew.Sound) :
    s'.Settled ∧ s'.crew.Sound ∧ s'.tally = s.crew.tally.prospect := by
  induction h with
  | done h => exact ⟨h, hs, by rw [Crew.prospect_quiet hs h.quiet, tally_crew]⟩
  | resume h _ ih =>
    obtain ⟨m, ha, he⟩ := h.crew
    obtain ⟨settled, sound, tally⟩ := ih (he ▸ hs.step ha)
    exact ⟨settled, sound, by rw [tally, he, Crew.prospect_step hs ha]⟩
  | stir h _ ih =>
    obtain ⟨m, ha, he⟩ := h.crew
    obtain ⟨settled, sound, tally⟩ := ih (he ▸ hs.stir ha)
    exact ⟨settled, sound, by rw [tally, he, Crew.tally_stir ha]⟩

theorem Plays.outcome (h : Plays s xs ks) (hs : s.crew.Sound) (hq : s.crew.Quiet) :
    ks = s.tally.plays xs := by
  induction h with
  | nil => rfl
  | cons h hx _ ih =>
    obtain ⟨settled, sound, tally⟩ := hx.outcome (h.crew ▸ hs.call _)
    rw [h.crew, Crew.prospect_call hs hq, tally_crew] at tally
    rw [ih sound settled.quiet, Tally.plays, tally]

/-! ## The threads do come to rest -/

/-- A thread that goes on is not woken again by its turn, so the turns come to an end. -/
theorem wellFounded_resumes : WellFounded fun s' s => ∃ e, Resumes s e s' := by
  refine Subrelation.wf (r := InvImage (· < ·) fun s : Monitor =>
    s.crew.awake .read + s.crew.awake .write) ?_ (InvImage.wf _ Nat.lt_wfRel.wf)
  rintro s' s ⟨e, h⟩
  obtain ⟨m, ha, he⟩ := h.crew
  simp only [InvImage]
  rw [he, Crew.awake_step, Crew.awake_step]
  cases m with
  | read =>
    simp only [if_true, reduceCtorEq, if_false]
    omega
  | write =>
    simp only [if_true, reduceCtorEq, if_false]
    omega

theorem exists_settles (s : Monitor) : ∃ s', Settles s s' := by
  induction s using wellFounded_resumes.induction with
  | _ s ih =>
    by_cases settled : s.Settled
    · exact ⟨s, .done settled⟩
    · obtain ⟨e, s₁, h⟩ : ∃ e s₁, Resumes s e s₁ := by simpa [Settled] using settled
      obtain ⟨s', hs⟩ := ih s₁ ⟨e, h⟩
      exact ⟨s', .resume h hs⟩

/-- The threads that are free to make a call. -/
def free (s : Monitor) : Nat := s.threads.count .outside

theorem free_after (p q : List Thread) (t : Turn) :
    (after p q t).free = p.count .outside + (t.thread :: q).count .outside := by
  have free_woken (threads : List Thread) :
      (threads.map Thread.woken).count .outside = threads.count .outside := by
    induction threads with
    | nil => rfl
    | cons t rest ih => cases t <;> simp [Thread.woken, ih]
  rw [← List.count_append, free, after]
  split
  · exact free_woken _
  · rfl

theorem Calls.free (h : Calls x s e s') : s.free ≤ s'.free + 1 := by
  cases h with
  | turn p q =>
    rw [free_after, List.count_cons, Monitor.free, List.count_append, List.count_cons_self]
    omega

theorem Resumes.free (h : Resumes s e s') : s.free ≤ s'.free := by
  cases h with
  | turn m p q =>
    have busy : Thread.awake m ≠ .outside := fun h => by cases h
    rw [free_after, List.count_cons, Monitor.free, List.count_append, List.count_cons_of_ne busy]
    omega

theorem Settles.free (h : Settles s s') : s.free ≤ s'.free := by
  induction h with
  | done _ => exact Nat.le_refl _
  | resume h _ ih => exact Nat.le_trans h.free ih
  | stir h _ ih =>
    refine Nat.le_trans (Nat.le_of_eq ?_) ih
    cases h with
    | thread m p q => simp [Monitor.free]

theorem exists_calls (x : LockCall) (h : 0 < s.free) : ∃ e s', Calls x s e s' := by
  obtain ⟨p, q, hpq⟩ := List.append_of_mem (List.count_pos_iff.mp h)
  obtain ⟨l, threads⟩ := s
  obtain rfl : threads = p ++ .outside :: q := hpq
  exact ⟨_, _, .turn p q⟩

theorem exists_plays (h : xs.length ≤ s.free) : ∃ ks, Plays s xs ks := by
  induction xs generalizing s with
  | nil => exact ⟨[], .nil⟩
  | cons x xs ih =>
    rw [List.length_cons] at h
    obtain ⟨e, s₁, hc⟩ := exists_calls x (Nat.lt_of_lt_of_le (Nat.succ_pos _) h)
    obtain ⟨s₂, hs⟩ := exists_settles s₁
    have enough : xs.length ≤ s₂.free := by
      have := hc.free
      have := hs.free
      omega
    obtain ⟨ks, hp⟩ := ih enough
    exact ⟨_, .cons hc hs hp⟩

/-! ## Nobody is stranded -/

theorem Run.held_of_writer (h : Run n es s) (hq : s.Settled)
    (hw : 0 < s.threads.countP (Thread.wants .write)) :
    held .write es = 1 ∨ 0 < held .read es := by
  rw [hq.count_wants] at hw
  rw [← h.writer_iff, ← h.readers_eq, Int.natCast_pos]
  exact h.sound.writers hw

theorem Run.held_of_reader (h : Run n es s) (hq : s.Settled)
    (hr : 0 < s.threads.countP (Thread.wants .read)) :
    held .write es = 1 ∨ 0 < s.threads.countP (Thread.wants .write) := by
  rw [hq.count_wants] at hr
  rw [← h.writer_iff, ← h.writersWaiting]
  exact h.sound.readers hr

theorem Run.none_waits (h : Run n es s) (hq : s.Settled) (hw : held .write es = 0)
    (hr : held .read es = 0) (m : LockMode) : s.threads.countP (Thread.wants m) = 0 := by
  have no_writer : ¬ 0 < s.threads.countP (Thread.wants .write) := fun hp => by
    have := h.held_of_writer hq hp
    omega
  cases m with
  | write => omega
  | read =>
    refine Nat.eq_zero_of_not_pos fun hp => ?_
    have := h.held_of_reader hq hp
    omega

/-- Where the threads have settled, a writer waits only while the lock is held, and a reader only
while it is held for writing or a writer waits; so nobody waits at a lock that nobody holds. And
where every call comes to settled threads, the counts go by the rule, in every order of the turns.
-/
theorem settles_by_rule (n : Nat) :
    (∀ es s, Run n es s → s.Settled →
      (0 < s.threads.countP (Thread.wants .write) → held .write es = 1 ∨ 0 < held .read es) ∧
      (0 < s.threads.countP (Thread.wants .read) →
        held .write es = 1 ∨ 0 < s.threads.countP (Thread.wants .write)) ∧
      (held .write es = 0 → held .read es = 0 → ∀ t ∈ s.threads, t = .outside)) ∧
    (∀ xs ks, Plays (start n) xs ks → ks = Tally.plays {} xs ∧ ks = Crew.plays {} xs) ∧
    ∀ xs, xs.length ≤ n → ∃ ks, Plays (start n) xs ks := by
  have quiet_new : ({} : Crew).Quiet := fun m => by cases m <;> rfl
  have by_rule {xs : List LockCall} {ks : List Tally} (h : Plays (start n) xs ks) :
      ks = Tally.plays {} xs := by
    have tally_start : (start n).tally = {} := by
      rw [← tally_crew, crew_start]
      rfl
    rw [← tally_start]
    exact h.outcome (crew_start n ▸ Crew.sound_new) (crew_start n ▸ quiet_new)
  refine ⟨fun es s h hq => ⟨h.held_of_writer hq, h.held_of_reader hq, fun hw hr t ht => ?_⟩,
    fun xs ks h => ⟨by_rule h, ?_⟩, fun xs hn => exists_plays ?_⟩
  · have idle (m : LockMode) : t.wants m ≠ true :=
      List.countP_eq_zero.mp (h.none_waits hq hw hr m) t ht
    cases t with
    | outside => rfl
    | asleep m => exact absurd (decide_eq_true rfl) (idle m)
    | awake m => exact absurd (decide_eq_true rfl) (idle m)
  · exact (by_rule h).trans (Crew.plays_eq Crew.sound_new quiet_new xs).symm
  · rw [free, start, List.count_replicate_self]
    exact hn

theorem settled_of_none_awake (h : ∀ m, Thread.awake m ∉ s.threads) : s.Settled := by
  intro e s' hr
  cases hr with
  | turn m p q => exact h m (by simp)

/-- A read is given back. The late reader looks first and sleeps again, then the writer gets the
lock. -/
theorem settles_released :
    Settles ⟨{ writersWaiting := 1 }, [.outside, .awake .write, .awake .read]⟩
      ⟨{ writer := true }, [.outside, .outside, .asleep .read]⟩ := by
  refine .resume (.turn .read [.outside, .awake .write] []) ?_
  refine .resume (.turn .write [.outside] [.asleep .read]) ?_
  exact .done (settled_of_none_awake fun m => by cases m <;> decide)

theorem plays_crowded :
    Plays (start 3) [.acquire .read, .acquire .write, .acquire .read, .release .read]
      [{ readers := 1 }, { readers := 1, writersWaiting := 1 },
        { readers := 1, writersWaiting := 1, readersWaiting := 1 },
        { writer := true, readersWaiting := 1 }] := by
  have rests (s : Monitor) (h : ∀ m, Thread.awake m ∉ s.threads) : Settles s s :=
    .done (settled_of_none_awake h)
  refine .cons (.turn [] [.outside, .outside]) (rests _ fun m => by cases m <;> decide) ?_
  refine .cons (.turn [.outside] [.outside]) (rests _ fun m => by cases m <;> decide) ?_
  refine .cons (.turn [.outside, .asleep .write] []) (rests _ fun m => by cases m <;> decide) ?_
  exact .cons (.turn (x := .release .read) (l := { readers := 1, writersWaiting := 1 }) []
    [.asleep .write, .asleep .read]) settles_released .nil

theorem settles_by_rule_crowded :
    ∃ ks, Plays (start 3) [.acquire .read, .acquire .write, .acquire .read, .release .read] ks ∧
      ks = Tally.plays {} [.acquire .read, .acquire .write, .acquire .read, .release .read] ∧
      ks.getLast? = some { writer := true, readersWaiting := 1 } :=
  ⟨_, plays_crowded, ((settles_by_rule 3).2.1 _ _ plays_crowded).1, rfl⟩

end Monitor

end DeclaredAccess
