import DeclaredAccess.Proofs.Lock.Monitor

/-! The lock excludes. What it counts as held is what was entered and not left, whatever the order
of the turns; so what keeps readers and writers apart in the counts keeps them apart among the
threads. -/

namespace DeclaredAccess

namespace Monitor

variable {l : Lock} {m k : LockMode} {x : LockCall} {e : LockEvent} {s s' : Monitor} {n : Nat}
  {es : List LockEvent}

/-- How often the lock was entered in a mode and not left. -/
def held (m : LockMode) (es : List LockEvent) : Int := es.count (.entered m) - es.count (.left m)

theorem held_append (m : LockMode) (es es' : List LockEvent) :
    held m (es ++ es') = held m es + held m es' := by
  simp only [held, List.count_append, Int.natCast_add]
  omega

theorem held_entered (m k : LockMode) : held k [.entered m] = if m = k then 1 else 0 := by
  cases m <;> cases k <;> rfl

theorem held_left (m k : LockMode) : held k [.left m] = if m = k then -1 else 0 := by
  cases m <;> cases k <;> rfl

/-! ## What is counted as held is held -/

theorem look_holds (m : LockMode) (l : Lock) (k : LockMode) :
    ((Turn.look m l).lock.holds k : Int) = l.holds k + held k [(Turn.look m l).event] := by
  cases h : l.enter? m with
  | none => simp [Turn.look, h, held]
  | some l' =>
    simp only [Turn.look, h, held_entered, Lock.enter?_holds h k]
    split <;> omega

theorem call_holds (l : Lock) (x : LockCall) (k : LockMode) :
    ((Turn.call l x).lock.holds k : Int) = l.holds k + held k [(Turn.call l x).event] := by
  cases x with
  | acquire m => simpa [Turn.call] using look_holds m (l.announce m) k
  | release m =>
    cases h : l.release m with
    | error cause => simp [Turn.call, h, held]
    | ok r =>
      simp only [Turn.call, h, held_left, Lock.release_holds h k]
      split <;> omega

theorem Step.holds (h : Step s e s') (k : LockMode) :
    (s'.lock.holds k : Int) = s.lock.holds k + held k [e] := by
  cases h with
  | call x h => cases h with
    | turn p q => exact call_holds _ x k
  | resume h => cases h with
    | turn m p q => exact look_holds m _ k
  | stir h => cases h with
    | thread m p q => simp [held]

theorem Run.holds (h : Run n es s) (k : LockMode) : (s.lock.holds k : Int) = held k es := by
  induction h with
  | start => cases k <;> rfl
  | step _ hs ih => rw [hs.holds k, ih, held_append]

theorem Run.readers_eq (h : Run n es s) : (s.lock.readers : Int) = held .read es := h.holds .read

theorem Run.writer_iff (h : Run n es s) : s.lock.writer = true ↔ held .write es = 1 := by
  have := h.holds .write
  cases hb : s.lock.writer <;> simp [← this, Lock.holds, hb]

/-! ## Who gets in, and who is refused -/

theorem of_look_entered (h : (Turn.look m l).event = .entered k) :
    m = k ∧ ∃ l', l.enter? m = some l' := by
  cases he : l.enter? m with
  | none => simp [Turn.look, he] at h
  | some l' =>
    simp only [Turn.look, he, LockEvent.entered.injEq] at h
    exact ⟨h, l', rfl⟩

theorem Step.of_entered_read (h : Step s (.entered .read) s') :
    s.lock.writer = false ∧ s.lock.writersWaiting = 0 := by
  have entered : ∃ l', s.lock.enter? .read = some l' := by
    generalize he : LockEvent.entered .read = e at h
    cases h with
    | call x h => cases h with
      | turn p q => cases x with
        | acquire m =>
          obtain ⟨rfl, hl⟩ := of_look_entered he.symm
          exact hl
        | release m =>
          simp only [Turn.call] at he
          split at he <;> cases he
    | resume h => cases h with
      | turn m p q =>
        obtain ⟨rfl, hl⟩ := of_look_entered he.symm
        exact hl
    | stir h => cases he
  obtain ⟨l', hl⟩ := entered
  exact ⟨(Lock.of_enterRead hl).1, Lock.none_writes_of_enterRead hl⟩

theorem Calls.of_release (h : Calls (.release m) s e s') :
    if s.lock.holds m = 0 then e = .refused (Lock.refusal m) ∧ s' = s else e = .left m := by
  cases h with
  | @turn l p q =>
    split
    · rename_i hm
      have refused : l.release m = .error (Lock.refusal m) :=
        Lock.release_eq_error_iff.mpr ⟨hm, rfl⟩
      simp [Turn.call, refused, after]
    · rename_i hm
      cases hl : l.release m with
      | error cause => exact absurd (Lock.release_eq_error_iff.mp hl).1 hm
      | ok r => simp [Turn.call, hl]

theorem Run.writersWaiting (h : Run n es s) :
    s.lock.writersWaiting = s.threads.countP (Thread.wants .write) := by
  rw [count_wants]
  exact h.sound.counted

/-- However the turns of the threads follow each other: the lock counts as held what was entered
and not left, readers and a writer exclude each other as two writers do, a writer that is counted
as waiting is in a call and has not got the lock, nobody reads past a writer, and a release in a
mode that nobody holds is refused without a change. -/
theorem excludes (h : Run n es s) :
    (s.lock.readers : Int) = held .read es ∧
    (s.lock.writer = true ↔ held .write es = 1) ∧
    (held .write es = 0 ∨ held .write es = 1 ∧ held .read es = 0) ∧
    s.lock.writersWaiting = s.threads.countP (Thread.wants .write) ∧
    (∀ s', Step s (.entered .read) s' →
      held .write es = 0 ∧ ∀ t ∈ s.threads, t.wants .write = false) ∧
    (∀ m e s', Calls (.release m) s e s' →
      if held m es = 0 then e = .refused (Lock.refusal m) ∧ s' = s else e = .left m) := by
  have hw : (s.lock.writer.toNat : Int) = held .write es := h.holds .write
  refine ⟨h.readers_eq, h.writer_iff, ?_, h.writersWaiting, fun s' hs => ?_, fun m e s' hc => ?_⟩
  · cases hb : s.lock.writer with
    | false => simp [← hw, hb]
    | true =>
      have alone : s.lock.readers = 0 := h.sound.alone hb
      simp [← h.writer_iff, ← h.readers_eq, hb, alone]
  · obtain ⟨hb, hn⟩ := hs.of_entered_read
    refine ⟨by simp [← hw, hb], ?_⟩
    rw [h.writersWaiting, List.countP_eq_zero] at hn
    exact fun t ht => Bool.eq_false_iff.mpr (hn t ht)
  · have hm : (s.lock.holds m : Int) = held m es := h.holds m
    have := hc.of_release
    rw [← hm]
    simpa only [Int.natCast_eq_zero] using this

/-- One thread reads, one waits to write, and one came to read after it. -/
def crowded : Monitor :=
  ⟨{ readers := 1, writersWaiting := 1 }, [.outside, .asleep .write, .asleep .read]⟩

theorem run_crowded : Run 3 [.entered .read, .waits, .waits] crowded := by
  have reads : Run 3 [.entered .read] ⟨{ readers := 1 }, [.outside, .outside, .outside]⟩ :=
    Run.start.step (.call _ (.turn (x := .acquire .read) (l := {}) [] [.outside, .outside]))
  have waits : Run 3 [.entered .read, .waits]
      ⟨{ readers := 1, writersWaiting := 1 }, [.outside, .asleep .write, .outside]⟩ :=
    reads.step (.call _ (.turn (x := .acquire .write) [.outside] [.outside]))
  exact waits.step (.call _ (.turn (x := .acquire .read) [.outside, .asleep .write] []))

theorem excludes_crowded :
    Run 3 [.entered .read, .waits, .waits] crowded ∧
    ¬ (∃ s', Step crowded (.entered .read) s') ∧
    ∀ e s', Calls (.release .write) crowded e s' → e = .refused .notWriting ∧ s' = crowded := by
  obtain ⟨-, -, -, -, enters, refuses⟩ := excludes run_crowded
  refine ⟨run_crowded, fun ⟨s', hs⟩ => ?_, fun e s' hc => refuses .write e s' hc⟩
  have := (enters s' hs).2 (.asleep .write) (by decide)
  cases this

end Monitor

end DeclaredAccess
