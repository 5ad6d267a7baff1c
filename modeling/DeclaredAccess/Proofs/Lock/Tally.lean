import DeclaredAccess.Proofs.Lock.Crew

/-! What the lock comes to once its threads have settled. The order in which woken threads look at
the lock decides who sleeps again and who gets in first, but not how many get in: the counts that
the lock will come to are the same before and after every look. Where nobody is left to look, they
are the counts it has. -/

namespace DeclaredAccess

/-- What can be counted at a lock: who holds it, and who waits for it. -/
structure Tally extends Lock where
  readersWaiting : Nat := 0
  deriving DecidableEq, Repr

namespace Tally

/-- A free lock goes to one waiting writer, otherwise to all waiting readers. -/
def handOver (k : Tally) : Tally :=
  if k.writer || k.readers != 0 then k
  else if k.writersWaiting != 0 then
    { k with writer := true, writersWaiting := k.writersWaiting - 1 }
  else { k with readers := k.readersWaiting, readersWaiting := 0 }

/-- What a call makes of it. A reader waits for a writer that holds the lock or waits for it; a
release of what is not held does nothing. -/
def after (k : Tally) : LockCall → Tally
  | .acquire .read =>
    if k.writer || k.writersWaiting != 0 then { k with readersWaiting := k.readersWaiting + 1 }
    else { k with readers := k.readers + 1 }
  | .acquire .write => { k with writersWaiting := k.writersWaiting + 1 }.handOver
  | .release .read => if k.readers = 0 then k else { k with readers := k.readers - 1 }.handOver
  | .release .write => if k.writer then { k with writer := false }.handOver else k

/-- The counts after each of the calls. -/
def plays (k : Tally) : List LockCall → List Tally
  | [] => []
  | x :: xs => k.after x :: (k.after x).plays xs

/-- What the counts will come to. Readers that were woken join those that read already. -/
def prospect (k : Tally) : Tally :=
  if k.writer = false ∧ k.writersWaiting = 0 then
    { k with readers := k.readers + k.readersWaiting, readersWaiting := 0 }
  else k.handOver

variable {k : Tally}

theorem handOver_of_held (h : k.writer = true ∨ 0 < k.readers) : k.handOver = k := by
  rw [handOver, if_pos]
  simpa [Nat.pos_iff_ne_zero] using h

theorem handOver_to_writer (hw : k.writer = false) (hr : k.readers = 0)
    (hn : 0 < k.writersWaiting) :
    k.handOver = { k with writer := true, writersWaiting := k.writersWaiting - 1 } := by
  simp [handOver, hw, hr, Nat.pos_iff_ne_zero.mp hn]

theorem prospect_of_none_writes (hw : k.writer = false) (hn : k.writersWaiting = 0) :
    k.prospect = { k with readers := k.readers + k.readersWaiting, readersWaiting := 0 } :=
  if_pos ⟨hw, hn⟩

theorem prospect_of_write (h : k.writer = true ∨ 0 < k.writersWaiting) :
    k.prospect = k.handOver := by
  refine if_neg fun ⟨hw, hn⟩ => ?_
  rcases h with h | h
  · rw [hw] at h
    cases h
  · omega

/-- Where nobody reads, the prospect is what a release hands over. -/
theorem prospect_of_none_reads (hr : k.readers = 0) : k.prospect = k.handOver := by
  by_cases h : k.writer = true ∨ 0 < k.writersWaiting
  · exact prospect_of_write h
  · obtain ⟨hw, hn⟩ : k.writer = false ∧ k.writersWaiting = 0 := by simpa using h
    simp [prospect_of_none_writes, handOver, hw, hn, hr]

end Tally

namespace Crew

variable {c : Crew} {m : LockMode}

def tally (c : Crew) : Tally := { c.lock with readersWaiting := c.readersWaiting }

/-- Nobody is left to look at the lock. -/
def Quiet (c : Crew) : Prop := ∀ m, c.awake m = 0

/-- The counts after each of the calls, where everybody settles before the next one. -/
def plays (c : Crew) : List LockCall → List Tally
  | [] => []
  | x :: xs => (c.call x).settle.tally :: (c.call x).settle.plays xs

/-! ## No look changes the prospect -/

theorem prospect_step (hs : c.Sound) (ha : 0 < c.awake m) :
    (c.step m).tally.prospect = c.tally.prospect := by
  cases m with
  | read =>
    have hp : 0 < c.readersAwake := ha
    rcases readerLooks_cases { c with readersAwake := c.readersAwake - 1 } with
      ⟨_, he⟩ | ⟨hw, hn, he⟩
    · have same : (c.step .read).tally = c.tally := by
        rw [step, stepReader, he]
        simp only [tally, readersWaiting, Tally.mk.injEq, true_and]
        omega
      rw [same]
    · rw [step, stepReader, he, Tally.prospect_of_none_writes hw hn,
        Tally.prospect_of_none_writes hw hn]
      simp only [tally, readersWaiting, Tally.mk.injEq, Lock.mk.injEq, and_true]
      omega
  | write =>
    have hp : 0 < c.writersAwake := ha
    rcases writerLooks_cases { c with writersAwake := c.writersAwake - 1 } with
      ⟨_, he⟩ | ⟨hw, hr, he⟩
    · have same : (c.step .write).tally = c.tally := by
        rw [step, stepWriter, he]
        rfl
      rw [same]
    · have waits : 0 < c.lock.writersWaiting := by
        have := hs.counted
        omega
      rw [step, stepWriter, he, Tally.prospect_of_write (.inl rfl),
        Tally.handOver_of_held (.inl rfl), Tally.prospect_of_write (.inr waits),
        Tally.handOver_to_writer hw hr waits]
      rfl

theorem tally_stir (ha : 0 < c.asleep m) : (c.stir m).tally = c.tally := by
  cases m with
  | read =>
    have : 0 < c.readersAsleep := ha
    simp only [tally, stir, readersWaiting, Tally.mk.injEq, true_and]
    omega
  | write => rfl

theorem asleep_of_quiet (hq : c.Quiet) : c.readersWaiting = c.readersAsleep := by
  have : c.readersAwake = 0 := hq .read
  rw [readersWaiting, this, Nat.add_zero]

theorem prospect_quiet (hs : c.Sound) (hq : c.Quiet) : c.tally.prospect = c.tally := by
  by_cases h : c.lock.writer = true ∨ 0 < c.lock.writersWaiting
  · have held : c.lock.writer = true ∨ 0 < c.lock.readers := by
      rcases h with hw | hn
      · exact .inl hw
      · have awake : c.writersAwake = 0 := hq .write
        have counted := hs.counted
        exact hs.writers (by omega)
    rw [Tally.prospect_of_write h, Tally.handOver_of_held held]
  · obtain ⟨hw, hn⟩ : c.lock.writer = false ∧ c.lock.writersWaiting = 0 := by simpa using h
    have none_waits : c.readersWaiting = 0 := by
      rw [asleep_of_quiet hq]
      exact Nat.eq_zero_of_not_pos fun hp => h (hs.readers hp)
    rw [Tally.prospect_of_none_writes hw hn]
    simp [tally, none_waits]

theorem tally_wakeAll (c : Crew) : c.wakeAll.tally = c.tally := by
  simp only [tally, wakeAll, readersWaiting, Tally.mk.injEq, true_and]
  omega

/-- A call that wakes nobody leaves the crew quiet, so its counts are what they will come to. -/
theorem prospect_of_none_woken {c' : Crew} (hs : c.Sound) (hq : c.Quiet) (x : LockCall)
    (he : c.call x = c') (ha : c'.awake = c.awake) : (c.call x).tally.prospect = c'.tally := by
  have quiet : c'.Quiet := fun m => by rw [ha]; exact hq m
  rw [he]
  exact prospect_quiet (he ▸ hs.call x) quiet

theorem prospect_acquire (hs : c.Sound) (hq : c.Quiet) (m : LockMode) :
    (c.call (.acquire m)).tally.prospect = c.tally.after (.acquire m) := by
  cases m with
  | read =>
    rcases c.readerLooks_cases with ⟨h, he⟩ | ⟨hw, hn, he⟩
    · have blocked : (c.tally.writer || c.tally.writersWaiting != 0) = true := by
        simpa [tally, Nat.pos_iff_ne_zero] using h
      rw [prospect_of_none_woken hs hq (.acquire .read) he rfl, Tally.after, if_pos blocked]
      simp only [tally, readersWaiting, Tally.mk.injEq, true_and]
      omega
    · rw [prospect_of_none_woken hs hq (.acquire .read) he rfl, Tally.after, if_neg]
      · rfl
      · simp [tally, hw, hn]
  | write =>
    rcases writerLooks_cases { c with lock := c.lock.announceWrite } with ⟨h, he⟩ | ⟨hw, hr, he⟩
    · rw [prospect_of_none_woken hs hq (.acquire .write) he rfl, Tally.after,
        Tally.handOver_of_held h]
      rfl
    · rw [prospect_of_none_woken hs hq (.acquire .write) he rfl, Tally.after,
        Tally.handOver_to_writer hw hr (Nat.succ_pos _)]
      rfl

theorem prospect_release (hs : c.Sound) (hq : c.Quiet) (m : LockMode) :
    (c.call (.release m)).tally.prospect = c.tally.after (.release m) := by
  cases m with
  | read =>
    rcases c.releaseRead_cases with ⟨hr, he⟩ | ⟨hr, he⟩ | ⟨hr, he⟩
    · have none_reads : c.tally.readers = 0 := hr
      rw [prospect_of_none_woken hs hq _ he rfl, Tally.after, if_pos none_reads]
    · have reads : c.tally.readers ≠ 0 := Nat.ne_of_gt (Nat.lt_trans Nat.one_pos hr)
      have read_left : 0 < c.tally.readers - 1 := Nat.sub_pos_of_lt hr
      rw [prospect_of_none_woken hs hq _ he rfl, Tally.after, if_neg reads,
        Tally.handOver_of_held (.inr read_left)]
      rfl
    · have one_reads : c.tally.readers = 1 := hr
      rw [he, tally_wakeAll, Tally.after, if_neg (by omega), Tally.prospect_of_none_reads rfl,
        one_reads]
      rfl
  | write =>
    rcases c.releaseWrite_cases with ⟨hw, he⟩ | ⟨hw, he⟩
    · rw [prospect_of_none_woken hs hq _ he rfl, Tally.after, if_neg]
      simp [tally, hw]
    · -- A writer was alone, so the lock is free once it has left.
      rw [he, tally_wakeAll, Tally.after, if_pos, Tally.prospect_of_none_reads (hs.alone hw)]
      · rfl
      · exact hw

theorem prospect_call (hs : c.Sound) (hq : c.Quiet) (x : LockCall) :
    (c.call x).tally.prospect = c.tally.after x := by
  cases x with
  | acquire m => exact prospect_acquire hs hq m
  | release m => exact prospect_release hs hq m

/-! ## Looking until nobody is left -/

theorem awake_look (c : Crew) (m : LockMode) : (c.look m).awake = c.awake := by
  cases m with
  | read => rcases c.readerLooks_cases with ⟨_, he⟩ | ⟨_, _, he⟩ <;> rw [look, he] <;> rfl
  | write => rcases c.writerLooks_cases with ⟨_, he⟩ | ⟨_, _, he⟩ <;> rw [look, he] <;> rfl

theorem awake_step (c : Crew) (m k : LockMode) :
    (c.step m).awake k = c.awake k - if m = k then 1 else 0 := by
  cases m with
  | read =>
    rw [step, stepReader, ← look, awake_look]
    cases k <;> rfl
  | write =>
    rw [step, stepWriter, ← look, awake_look]
    cases k <;> rfl

theorem repeat_step (hs : c.Sound) (n : Nat) (hn : n ≤ c.awake m) :
    (Nat.repeat (step · m) n c).Sound ∧
      (Nat.repeat (step · m) n c).tally.prospect = c.tally.prospect ∧
      ∀ k, (Nat.repeat (step · m) n c).awake k = c.awake k - if m = k then n else 0 := by
  induction n with
  | zero => exact ⟨hs, rfl, fun k => by simp [Nat.repeat]⟩
  | succ n ih =>
    obtain ⟨sound, prospect, awake⟩ := ih (Nat.le_of_succ_le hn)
    have left : 0 < (Nat.repeat (step · m) n c).awake m := by
      rw [awake, if_pos rfl]
      omega
    refine ⟨sound.step left, (prospect_step sound left).trans prospect, fun k => ?_⟩
    rw [Nat.repeat, awake_step, awake]
    split <;> omega

theorem settle_spec (hs : c.Sound) :
    c.settle.Sound ∧ c.settle.Quiet ∧ c.settle.tally = c.tally.prospect := by
  obtain ⟨soundR, prospectR, awakeR⟩ :=
    repeat_step (m := .read) hs c.readersAwake (Nat.le_refl _)
  have writersLeft : c.writersAwake ≤ (Nat.repeat (step · .read) c.readersAwake c).awake .write :=
    Nat.le_of_eq (awakeR .write).symm
  obtain ⟨sound, prospect, awake⟩ := repeat_step soundR c.writersAwake writersLeft
  have quiet : c.settle.Quiet := fun m => by
    refine (awake m).trans ?_
    rw [awakeR m]
    cases m with
    | read => exact Nat.sub_self _
    | write => exact Nat.sub_self _
  exact ⟨sound, quiet,
    (prospect_quiet sound quiet).symm.trans (prospect.trans prospectR)⟩

/-- The crew that looks in one fixed order goes by the rule. -/
theorem plays_eq (hs : c.Sound) (hq : c.Quiet) (xs : List LockCall) :
    c.plays xs = c.tally.plays xs := by
  induction xs generalizing c with
  | nil => rfl
  | cons x xs ih =>
    obtain ⟨sound, quiet, tally⟩ := settle_spec (hs.call x)
    rw [plays, Tally.plays, ih sound quiet, tally, prospect_call hs hq x]

end Crew

end DeclaredAccess
