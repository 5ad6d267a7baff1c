import DeclaredAccess.Proofs.Lock.Modes
import DeclaredAccess.Proofs.Operation.Conduct

/-! Operations of one client on different threads. Each of them goes through its own exchanges, in
any order with those of the others; only the catalog lock makes one wait for another. An operation
may find that others have learnt the version or set up connections before it needs them. It then
goes as if they had done so before it began, so each one begins with a session of its own. -/

namespace DeclaredAccess

namespace Exchange

/-- Whether a transaction is open after the exchange. -/
def turns (wasOpen : Bool) : Exchange → Bool
  | ⟨.mark .begin, .ok _⟩ => true
  | ⟨.mark .commit, _⟩ | ⟨.mark .rollback, _⟩ => false
  | _ => wasOpen

/-- How the catalog lock is held after the exchange. -/
def locks (held : Option LockMode) : Exchange → Option LockMode
  | ⟨.acquire m, _⟩ => some m
  | ⟨.release _, _⟩ => none
  | _ => held

/-- How the catalog lock is held where it is taken, and where it is given back. -/
def lockBefore? : Exchange → Option (Option LockMode)
  | ⟨.acquire _, _⟩ => some none
  | ⟨.release m, _⟩ => some (some m)
  | _ => none

/-- Whether the catalog lock takes no part in it. -/
def sparesLock : Exchange → Bool
  | ⟨.acquire _, _⟩ | ⟨.release _, _⟩ => false
  | _ => true

theorem locks_of_sparesLock {x : Exchange} (h : x.sparesLock = true) (held : Option LockMode) :
    x.locks held = held := by
  obtain ⟨q, a⟩ := x
  cases q with
  | acquire m => cases h
  | release m => cases h
  | _ => rfl

end Exchange

/-- An operation on a thread: what it has asked and been answered, and what is still to come. A
writer that waits for the lock has told the lock so. -/
structure Runner where
  operation : Operation
  past : List Exchange := []
  ahead : List Exchange
  announced : Bool := false

namespace Runner

def inTransaction (p : Runner) : Bool := p.past.foldl Exchange.turns false

def lock (p : Runner) : Option LockMode := p.past.foldl Exchange.locks none

def holds (m : LockMode) (p : Runner) : Bool := p.lock = some m

end Runner

/-- The operations of one client, with the lock that they share. -/
structure Workshop where
  lock : Lock := {}
  runners : List Runner := []

namespace Workshop

/-- One step of one thread. -/
inductive Step (c : Client) : Workshop → Workshop → Prop
  /-- An operation comes; it will go in some way. -/
  | start (w : Workshop) (op : Operation) {s s' : Standing Resource} {t : List Exchange}
    {r : Except Failure Value} (h : Task.Goes (op.run c) s t r s') :
    Step c w { w with runners := w.runners ++ [{ operation := op, ahead := t }] }
  | go {l : Lock} {p q : List Runner} {op : Operation} {t u : List Exchange} (x : Exchange)
    (hx : x.sparesLock = true) :
    Step c ⟨l, p ++ ⟨op, t, x :: u, false⟩ :: q⟩ ⟨l, p ++ ⟨op, t ++ [x], u, false⟩ :: q⟩
  /-- A writer tells the lock that it waits. -/
  | announce {l : Lock} {p q : List Runner} {op : Operation} {t u : List Exchange} :
    Step c ⟨l, p ++ ⟨op, t, ⟨.acquire .write, ()⟩ :: u, false⟩ :: q⟩
      ⟨l.announceWrite, p ++ ⟨op, t, ⟨.acquire .write, ()⟩ :: u, true⟩ :: q⟩
  | acquire {l l' : Lock} {p q : List Runner} {op : Operation} {t u : List Exchange}
    (m : LockMode) (hl : l.enter? m = some l') :
    Step c ⟨l, p ++ ⟨op, t, ⟨.acquire m, ()⟩ :: u, m = .write⟩ :: q⟩
      ⟨l', p ++ ⟨op, t ++ [⟨.acquire m, ()⟩], u, false⟩ :: q⟩
  | release {l l' : Lock} {p q : List Runner} {op : Operation} {t u : List Exchange}
    (m : LockMode) (hl : l.leave? m = some l') :
    Step c ⟨l, p ++ ⟨op, t, ⟨.release m, ()⟩ :: u, false⟩ :: q⟩
      ⟨l', p ++ ⟨op, t ++ [⟨.release m, ()⟩], u, false⟩ :: q⟩

/-- The states that the operations of a client can come to. -/
inductive Reachable (c : Client) : Workshop → Prop
  | start : Reachable c {}
  | step {w w' : Workshop} (h : Reachable c w) (hs : Step c w w') : Reachable c w'

end Workshop

/-! ## One operation -/

namespace Conduct

variable {mode : LockMode} {k k' : Conduct}

/-- What the conduct tells of the exchanges so far: how they hold the lock, and that a transaction
is open only under the lock. -/
structure Tells (mode : LockMode) (k : Conduct) (held : Option LockMode) (isOpen : Bool) :
    Prop where
  lock_eq : k.lock = held
  mode_eq : ∀ m, held = some m → m = mode
  guarded : .begun ∈ k.connections → held = some mode
  of_open : isOpen = true → .begun ∈ k.connections

theorem Tells.mark {l : Option LockMode} {b : Bool} (h : Tells mode k l b) {m : Marker}
    {a : Except DriverError Unit} (hk : k.mark mode m a.toBool = some k') :
    Tells mode k' l (Exchange.turns b ⟨.mark m, a⟩) := by
  have kept (hk : (if mode = .write then some k else none) = some k') : Tells mode k' l b := by
    split at hk
    · cases hk
      exact h
    · cases hk
  unfold Conduct.mark at hk
  split at hk
  · rename_i hl
    have hm : l = some mode := h.lock_eq.symm.trans hl
    split at hk
    · rename_i rest hr
      cases hk
      refine ⟨h.lock_eq, h.mode_eq, fun _ => hm, fun ho => ?_⟩
      cases a with
      | ok _ => simp [Except.toBool]
      | error e =>
        have := h.of_open ho
        rw [hr] at this
        exact List.mem_cons_of_mem _ (by simpa using this)
    · cases hk
      exact ⟨h.lock_eq, h.mode_eq, fun _ => hm, fun ho => by cases ho⟩
    · split at hk
      · cases hk
        exact ⟨h.lock_eq, h.mode_eq, fun _ => hm, fun ho => by cases ho⟩
      · cases hk
    · exact kept hk
    · exact kept hk
    · exact kept hk
    · cases hk
  · cases hk

theorem Tells.next {l : Option LockMode} {b : Bool} (h : Tells mode k l b) {x : Exchange}
    (hx : k.next mode x = some k') : Tells mode k' (x.locks l) (x.turns b) := by
  obtain ⟨q, a⟩ := x
  cases q with
  | acquire m =>
    simp only [Conduct.next] at hx
    split at hx
    · rename_i hm
      cases hx
      refine ⟨rfl, fun m' hm' => (Option.some.inj hm').symm.trans hm.1, fun hb => ?_, h.of_open⟩
      simp [hm.2.2] at hb
    · cases hx
  | release m =>
    simp only [Conduct.next] at hx
    split at hx
    · rename_i hm
      cases hx
      refine ⟨rfl, fun m' hm' => (by cases hm'), fun hb => ?_, h.of_open⟩
      simp [hm.2] at hb
    · cases hx
  | connect d =>
    cases a with
    | ok peer =>
      cases hx
      exact ⟨h.lock_eq, h.mode_eq, fun hb => h.guarded (by simpa using hb),
        fun ho => List.mem_cons_of_mem _ (h.of_open ho)⟩
    | error e =>
      cases hx
      exact h
  | disconnect =>
    simp only [Conduct.next] at hx
    have pop {st : Stage} {rest : List Stage} (hr : k.connections = st :: rest)
        (hst : st ≠ .begun) (hk : some { k with connections := rest } = some k') :
        Tells mode k' l b := by
      cases hk
      refine ⟨h.lock_eq, h.mode_eq, fun hb => h.guarded (hr ▸ List.mem_cons_of_mem _ hb), ?_⟩
      intro ho
      have := h.of_open ho
      rw [hr] at this
      exact (List.mem_cons.mp this).resolve_left (Ne.symm hst)
    split at hx
    · rename_i rest hr
      exact pop hr (by decide) hx
    · rename_i rest hr
      exact pop hr (by decide) hx
    · cases hx
  | mark m => exact h.mark hx
  | execute st =>
    simp only [Conduct.next] at hx
    split at hx
    · split at hx
      · cases hx
        exact h
      · cases hx
    · cases hx
  | openEngine d o =>
    cases hx
    exact h
  | disposeEngine d =>
    cases hx
    exact h

theorem Tells.after {t : List Exchange} {l : Option LockMode} {b : Bool} (h : Tells mode k l b)
    (ht : k.after mode t = some k') :
    Tells mode k' (t.foldl Exchange.locks l) (t.foldl Exchange.turns b) := by
  induction t generalizing k l b with
  | nil =>
    cases ht
    exact h
  | cons x t ih =>
    obtain ⟨k₁, hx, ht⟩ := Option.bind_eq_some_iff.mp ht
    exact ih (h.next hx) ht

/-- Where the lock is taken or given back, it is held as it has to be. -/
theorem lock_of_next {x : Exchange} (h : k.next mode x = some k') {l : Option LockMode}
    (hl : x.lockBefore? = some l) : k.lock = l := by
  obtain ⟨q, a⟩ := x
  cases q with
  | acquire m =>
    obtain ⟨⟨_, hk, _⟩, _⟩ := Option.ite_none_right_eq_some.mp h
    exact hk.trans (Option.some.inj hl)
  | release m =>
    obtain ⟨⟨hk, _⟩, _⟩ := Option.ite_none_right_eq_some.mp h
    exact hk.trans (Option.some.inj hl)
  | _ => cases hl

theorem tells_start : Tells mode {} none false := by
  refine ⟨rfl, fun m hm => ?_, fun hb => ?_, fun ho => ?_⟩
  · cases hm
  · cases hb
  · cases ho

end Conduct

namespace Runner

variable {p : Runner}

/-- Whether the operation keeps the discipline to its end. -/
def Conforms (p : Runner) : Prop :=
  ∃ k, Conduct.after p.operation.mode {} (p.past ++ p.ahead) = some k

theorem Conforms.tells (h : p.Conforms) :
    ∃ k k', Conduct.Tells p.operation.mode k p.lock p.inTransaction ∧
      Conduct.after p.operation.mode {} p.past = some k ∧
      Conduct.after p.operation.mode k p.ahead = some k' := by
  obtain ⟨k', hk'⟩ := h
  rw [Conduct.after_append] at hk'
  obtain ⟨k, hk, ha⟩ := Option.bind_eq_some_iff.mp hk'
  exact ⟨k, k', Conduct.tells_start.after hk, hk, ha⟩

/-- A transaction is open only while its operation holds the lock. -/
theorem Conforms.lock_of_inTransaction (h : p.Conforms) (ho : p.inTransaction = true) :
    p.lock = some p.operation.mode := by
  obtain ⟨k, k', ht, _⟩ := h.tells
  exact ht.guarded (ht.of_open ho)

variable {op : Operation} {t u : List Exchange} {x : Exchange} {b b' : Bool}

theorem Conforms.advance (h : Conforms ⟨op, t, x :: u, b⟩) : Conforms ⟨op, t ++ [x], u, b'⟩ := by
  obtain ⟨k, hk⟩ := h
  exact ⟨k, by rw [← hk]; simp⟩

theorem lock_advance : lock ⟨op, t ++ [x], u, b'⟩ = x.locks (lock ⟨op, t, x :: u, b⟩) := by
  simp [lock]

/-- An operation takes the lock only where it does not hold it, and gives it back only as it holds
it. -/
theorem Conforms.lock_eq (h : Conforms ⟨op, t, x :: u, b⟩) {l : Option LockMode}
    (hl : x.lockBefore? = some l) : lock ⟨op, t, x :: u, b⟩ = l := by
  obtain ⟨k, k', ht, _, ha⟩ := h.tells
  obtain ⟨_, hn, _⟩ := Option.bind_eq_some_iff.mp ha
  exact ht.lock_eq.symm.trans (Conduct.lock_of_next hn hl)

end Runner

/-! ## All operations -/

namespace Workshop

variable {c : Client} {w w' : Workshop}

/-- The lock counts the operations that hold it, and a writer holds it alone. -/
structure Orderly (w : Workshop) : Prop where
  conforms : ∀ p ∈ w.runners, p.Conforms
  readers : w.runners.countP (Runner.holds .read) = w.lock.readers
  writers : w.runners.countP (Runner.holds .write) = w.lock.writer.toNat
  alone : w.lock.writer = true → w.lock.readers = 0

/-- What one operation does changes a count by what it changes of its own. -/
theorem countP_advance (f : Runner → Bool) (ps qs : List Runner) (p p' : Runner) :
    (ps ++ p' :: qs).countP f + (f p).toNat = (ps ++ p :: qs).countP f + (f p').toNat := by
  simp only [List.countP_append, List.countP_cons]
  cases f p with
  | _ => cases f p' with
    | _ => simp <;> omega

theorem conforms_advance {ps qs : List Runner} {p p' : Runner}
    (h : ∀ q ∈ ps ++ p :: qs, q.Conforms) (hp : p.Conforms → p'.Conforms) :
    ∀ q ∈ ps ++ p' :: qs, q.Conforms := by
  intro q hq
  rcases List.mem_append.mp hq with hq | hq
  · exact h q (List.mem_append_left _ hq)
  · rcases List.mem_cons.mp hq with rfl | hq
    · exact hp (h p (by simp))
    · exact h q (by simp [hq])

/-- A step that does not touch the lock keeps its counts. -/
theorem Orderly.keep {l l' : Lock} {ps qs : List Runner} {p p' : Runner}
    (h : Orderly ⟨l, ps ++ p :: qs⟩) (hp : p.Conforms → p'.Conforms) (hl : p'.lock = p.lock)
    (hr : l'.readers = l.readers) (hw : l'.writer = l.writer) :
    Orderly ⟨l', ps ++ p' :: qs⟩ := by
  have same (m : LockMode) : (ps ++ p' :: qs).countP (Runner.holds m) =
      (ps ++ p :: qs).countP (Runner.holds m) := by
    have hc := countP_advance (Runner.holds m) ps qs p p'
    have : Runner.holds m p' = Runner.holds m p := by simp only [Runner.holds, hl]
    rw [this] at hc
    omega
  exact ⟨conforms_advance h.conforms hp, (same .read).trans (h.readers.trans hr.symm),
    (same .write).trans (h.writers.trans (by rw [hw])), fun ha => hr.trans (h.alone (hw ▸ ha))⟩

/-- What an operation that takes the lock or gives it back does to the counts. -/
theorem Orderly.counts {l : Lock} {ps qs : List Runner} {p p' : Runner} {x y : Option LockMode}
    (h : Orderly ⟨l, ps ++ p :: qs⟩) (hp : p.lock = x) (hp' : p'.lock = y) :
    (ps ++ p' :: qs).countP (Runner.holds .read) + (decide (x = some .read)).toNat =
        l.readers + (decide (y = some .read)).toNat ∧
      (ps ++ p' :: qs).countP (Runner.holds .write) + (decide (x = some .write)).toNat =
        l.writer.toNat + (decide (y = some .write)).toNat := by
  subst hp hp'
  have hr := h.readers
  have hw := h.writers
  exact ⟨hr ▸ countP_advance _ ps qs p p', hw ▸ countP_advance _ ps qs p p'⟩

theorem Orderly.acquire {l l' : Lock} {ps qs : List Runner} {p p' : Runner} {m : LockMode}
    (h : Orderly ⟨l, ps ++ p :: qs⟩) (hp : p.Conforms → p'.Conforms) (before : p.lock = none)
    (now : p'.lock = some m) (hl : l.enter? m = some l') : Orderly ⟨l', ps ++ p' :: qs⟩ := by
  obtain ⟨hr, hw⟩ := h.counts before now
  cases m with
  | read =>
    obtain ⟨h₁, h₂, h₃⟩ := Lock.of_enterRead hl
    simp only [reduceCtorEq, decide_false, decide_true, Bool.toNat_false, Bool.toNat_true,
      Nat.add_zero, h₁, Option.some.injEq] at hr hw
    refine ⟨conforms_advance h.conforms hp, hr.trans h₂.symm, hw.trans (by rw [h₃]; rfl), ?_⟩
    intro ha
    rw [h₃] at ha
    cases ha
  | write =>
    obtain ⟨h₁, h₂, h₃, h₄⟩ := Lock.of_enterWrite hl
    simp only [reduceCtorEq, decide_false, decide_true, Bool.toNat_false, Bool.toNat_true,
      Nat.add_zero, Nat.zero_add, h₁, h₂, Option.some.injEq] at hr hw
    exact ⟨conforms_advance h.conforms hp, hr.trans h₃.symm, hw.trans (by rw [h₄]; rfl),
      fun _ => h₃⟩

theorem Orderly.release {l l' : Lock} {ps qs : List Runner} {p p' : Runner} {m : LockMode}
    (h : Orderly ⟨l, ps ++ p :: qs⟩) (hp : p.Conforms → p'.Conforms) (before : p.lock = some m)
    (now : p'.lock = none) (hl : l.leave? m = some l') : Orderly ⟨l', ps ++ p' :: qs⟩ := by
  obtain ⟨hr, hw⟩ := h.counts before now
  cases m with
  | read =>
    obtain ⟨h₁, h₂⟩ := Lock.of_leaveRead hl
    simp only [reduceCtorEq, decide_false, decide_true, Bool.toNat_false, Bool.toNat_true,
      Nat.add_zero, h₁, Option.some.injEq] at hr hw
    refine ⟨conforms_advance h.conforms hp, Nat.add_right_cancel hr, hw.trans (by rw [h₂]),
      fun ha => ?_⟩
    -- a reader that holds the lock keeps every writer out
    have : l.readers = 0 := h.alone (h₂ ▸ ha)
    omega
  | write =>
    obtain ⟨h₁, h₂, h₃⟩ := Lock.of_leaveWrite hl
    simp only [reduceCtorEq, decide_false, decide_true, Bool.toNat_false, Bool.toNat_true,
      Nat.add_zero, h₁, Option.some.injEq] at hr hw
    refine ⟨conforms_advance h.conforms hp, hr.trans h₂.symm, ?_, fun ha => ?_⟩
    · show (ps ++ p' :: qs).countP _ = l'.writer.toNat
      rw [h₃, Bool.toNat_false]
      omega
    · rw [h₃] at ha
      cases ha

theorem Orderly.step (h : Orderly w) (hs : Step c w w') : Orderly w' := by
  cases hs with
  | start _ op hg =>
    obtain ⟨n, _, hk⟩ := op.conduct c hg
    refine ⟨fun p hp => ?_, ?_, ?_, h.alone⟩
    · rcases List.mem_append.mp hp with hp | hp
      · exact h.conforms p hp
      · rw [List.mem_singleton.mp hp]
        exact ⟨_, hk⟩
    · simpa [List.countP_append, Runner.holds, Runner.lock] using h.readers
    · simpa [List.countP_append, Runner.holds, Runner.lock] using h.writers
  | go x hx =>
    refine h.keep (fun hp => hp.advance) ?_ rfl rfl
    rw [Runner.lock_advance (b := false)]
    exact Exchange.locks_of_sparesLock hx _
  | announce => exact h.keep (fun hp => hp) rfl rfl rfl
  | acquire m hl =>
    have hp := h.conforms _ (List.mem_append_right _ List.mem_cons_self)
    exact h.acquire (fun hp => hp.advance) (hp.lock_eq rfl)
      (Runner.lock_advance (b := m = .write)) hl
  | release m hl =>
    have hp := h.conforms _ (List.mem_append_right _ List.mem_cons_self)
    exact h.release (fun hp => hp.advance) (hp.lock_eq rfl) (Runner.lock_advance (b := false)) hl

theorem Reachable.orderly (h : Reachable c w) : Orderly w := by
  induction h with
  | start => exact ⟨fun p hp => (by cases hp), rfl, rfl, fun _ => rfl⟩
  | step _ hs ih => exact ih.step hs

/-- An operation that gives the lock back finds it held, so giving it back never fails. -/
theorem Reachable.leave {l : Lock} {ps qs : List Runner} {op : Operation} {t u : List Exchange}
    {b : Bool} {m : LockMode}
    (h : Reachable c ⟨l, ps ++ ⟨op, t, ⟨.release m, ()⟩ :: u, b⟩ :: qs⟩) :
    ∃ l', l.leave? m = some l' := by
  have hp := h.orderly.conforms _ (List.mem_append_right _ List.mem_cons_self)
  have held : Runner.holds m ⟨op, t, ⟨.release m, ()⟩ :: u, b⟩ = true := by
    simp [Runner.holds, hp.lock_eq rfl]
  have count : 0 < (ps ++ ⟨op, t, ⟨.release m, ()⟩ :: u, b⟩ :: qs).countP (Runner.holds m) :=
    List.countP_pos_iff.mpr ⟨_, List.mem_append_right _ List.mem_cons_self, held⟩
  cases m with
  | read =>
    have hr : 0 < l.readers := h.orderly.readers ▸ count
    exact ⟨{ l with readers := l.readers - 1 },
      by simp [Lock.leave?, Lock.leaveRead, Nat.pos_iff_ne_zero.mp hr, Except.toOption]⟩
  | write =>
    have hw : 0 < l.writer.toNat := h.orderly.writers ▸ count
    have hw : l.writer = true := by
      cases hl : l.writer with
      | true => rfl
      | false => simp [hl] at hw
    exact ⟨{ l with writer := false }, by simp [Lock.leave?, Lock.leaveWrite, hw, Except.toOption]⟩

/-- Where a writer holds the lock alone, two operations that hold it are both readers. -/
theorem pairwise_of_counts {ps : List Runner}
    (h : ps.countP (Runner.holds .write) = 0 ∨
      ps.countP (Runner.holds .write) ≤ 1 ∧ ps.countP (Runner.holds .read) = 0) :
    ps.Pairwise fun p q => ∀ m n, p.lock = some m → q.lock = some n → m = .read ∧ n = .read := by
  induction ps with
  | nil => exact .nil
  | cons p ps ih =>
    simp only [List.countP_cons] at h
    refine List.pairwise_cons.mpr ⟨fun q hq m n hm hn => ?_, ih (by omega)⟩
    have hp : Runner.holds m p = true := by simp [Runner.holds, hm]
    have hq : 0 < ps.countP (Runner.holds n) :=
      List.countP_pos_iff.mpr ⟨q, hq, by simp [Runner.holds, hn]⟩
    cases m with
    | read => cases n with
      | read => exact ⟨rfl, rfl⟩
      | write => rw [hp] at h; simp only [if_true] at h; omega
    | write => cases n with
      | read => rw [hp] at h; simp only [if_true] at h; omega
      | write => rw [hp] at h; simp only [if_true] at h; omega

/-- Of any two operations of a client that have a transaction open, both are read operations. -/
theorem Reachable.pairwise (h : Reachable c w) : w.runners.Pairwise fun p q =>
    p.inTransaction = true → q.inTransaction = true →
      p.operation.mode = .read ∧ q.operation.mode = .read := by
  have ho := h.orderly
  have counts : w.runners.countP (Runner.holds .write) = 0 ∨
      w.runners.countP (Runner.holds .write) ≤ 1 ∧ w.runners.countP (Runner.holds .read) = 0 := by
    rw [ho.writers, ho.readers]
    cases hw : w.lock.writer with
    | false => exact .inl rfl
    | true => exact .inr ⟨Nat.le_refl 1, ho.alone hw⟩
  refine List.Pairwise.imp_of_mem (fun {p q} hp hq hpq hop hoq => ?_) (pairwise_of_counts counts)
  exact hpq _ _ ((ho.conforms p hp).lock_of_inTransaction hop)
    ((ho.conforms q hq).lock_of_inTransaction hoq)

end Workshop

/-- Every operation keeps the discipline of its mode, and in every interleaving of operations of one
client no transaction of another operation is open while a write operation has one open. -/
theorem Operation.writes_are_serial (c : Client) :
    (∀ (op : Operation) (s s' : Standing Resource) (t : List Exchange) (r : Except Failure Value),
      Task.Goes (op.run c) s t r s' →
        ∃ n ≤ 1, Conduct.after op.mode {} t = some { lock := none, connections := [], commits := n }) ∧
    ∀ w, Workshop.Reachable c w → w.runners.Pairwise fun p q =>
      p.inTransaction = true → q.inTransaction = true →
        p.operation.mode = .read ∧ q.operation.mode = .read :=
  ⟨fun op _ _ _ _ h => op.conduct c h, fun _ h => h.pairwise⟩

/-- A schema whose owner is left to the connection. -/
def plainSchema : Standing Resource where
  session := {}
  work := { id := "app.s", values := [("name", .text "s")] }

/-- What is asked and answered when it is dropped. -/
def plainDrop : List Exchange :=
  [⟨.acquire .write, ()⟩, ⟨.openEngine "app" (some ⟨4, 0, 180, "sync-grants"⟩), ()⟩,
    ⟨.connect "app", .ok ⟨"postgresql", "psycopg", some [16, 2]⟩⟩, ⟨.mark .begin, .ok ()⟩,
    ⟨.execute (.change (.dropSchema "s" false)), .ok []⟩, ⟨.mark .commit, .ok ()⟩,
    ⟨.disconnect, ()⟩, ⟨.release .write, ()⟩]

open Workshop in
/-- A drop that has begun its transaction, while a read operation still waits for the lock. -/
theorem Operation.writes_are_serial_drop :
    (∃ w, Reachable .admin w ∧ w.runners.map Runner.inTransaction = [true, false] ∧
      w.runners.Pairwise fun p q => p.inTransaction = true → q.inTransaction = true →
        p.operation.mode = .read ∧ q.operation.mode = .read) ∧
    ∃ n ≤ 1, Conduct.after .write {} plainDrop =
      some { lock := none, connections := [], commits := n } := by
  have goes : Task.Goes (deleteSchema.run .admin) plainSchema plainDrop _ _ :=
    Task.goes_exchanges Request.granted (deleteSchema.run .admin) plainSchema
  have w₁ := (Reachable.start.step (.start {} deleteSchema goes)).step (.start _ readSchema
    (Task.goes_exchanges Request.granted (readSchema.run .admin) plainSchema))
  have w₂ := w₁.step (.announce (p := []))
  have w₃ := w₂.step (.acquire (p := []) .write rfl)
  have w₄ := w₃.step (.go (p := []) _ rfl)
  have w₅ := w₄.step (.go (p := []) _ rfl)
  have w₆ := w₅.step (.go (p := []) _ rfl)
  exact ⟨⟨_, w₆, rfl, (writes_are_serial .admin).2 _ w₆⟩,
    (writes_are_serial .admin).1 _ _ _ _ _ goes⟩

end DeclaredAccess
