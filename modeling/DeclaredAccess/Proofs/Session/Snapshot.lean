import DeclaredAccess.Operation
import DeclaredAccess.Proofs.Checks
import DeclaredAccess.Proofs.Session.Careful

/-! Tasks against a server on which nothing changes. What such a server answers depends on the
request and on the database that the open connection leads to, and on nothing else. So a block that
only asks, in a transaction of its own, has one outcome from wherever it starts, and it leaves what
the task works on and what the client knows of the server's version as they are. -/

namespace DeclaredAccess

variable {σ α β ω : Type}

theorem Dialogue.run_bind (serve : (q : Request) → ω → q.Answer × ω) (d : Dialogue α)
    (f : α → Dialogue β) (w : ω) :
    (d.bind f).run serve w = (f (d.run serve w).1).run serve (d.run serve w).2 := by
  induction d generalizing w with
  | done a => rfl
  | ask q next ih => exact ih _ _

namespace Task

variable {serve : (q : Request) → ω → q.Answer × ω} {x : Task σ α} {f : α → Task σ β}
  {s s₁ s' : Standing σ} {w w₁ w' : ω}

theorem run_bind {o : Except Failure α} (h : x.run serve s w = ((o, s₁), w₁)) :
    (x >>= f).run serve s w = match o with
      | .ok a => (f a).run serve s₁ w₁
      | .error e => ((.error e, s₁), w₁) := by
  show Dialogue.run serve ((x s).bind _) w = _
  rw [Dialogue.run_bind, show Dialogue.run serve (x s) w = _ from h]
  cases o with
  | ok a => rfl
  | error e => rfl

theorem run_bind_ok {a : α} (h : x.run serve s w = ((.ok a, s₁), w₁)) :
    (x >>= f).run serve s w = (f a).run serve s₁ w₁ := run_bind h

theorem run_bind_error {e : Failure} (h : x.run serve s w = ((.error e, s₁), w₁)) :
    (x >>= f).run serve s w = ((.error e, s₁), w₁) := run_bind h

/-- A task that returns has returned in each of its steps. -/
theorem exists_of_run_bind {b : β} (h : (x >>= f).run serve s w = ((.ok b, s'), w')) :
    ∃ a s₁ w₁, x.run serve s w = ((.ok a, s₁), w₁) ∧
      (f a).run serve s₁ w₁ = ((.ok b, s'), w') := by
  obtain ⟨⟨⟨o, s₁⟩, w₁⟩, hx⟩ : ∃ p, x.run serve s w = p := ⟨_, rfl⟩
  cases o with
  | ok a => exact ⟨a, s₁, w₁, hx, (run_bind_ok hx).symm.trans h⟩
  | error e => cases (run_bind_error hx).symm.trans h

theorem exists_of_run_ofExcept_bind {x : Except Error α} {b : β}
    (h : (ofExcept x >>= f).run serve s w = ((.ok b, s'), w')) :
    ∃ a, x = .ok a ∧ (f a).run serve s w = ((.ok b, s'), w') := by
  cases x with
  | ok a => exact ⟨a, rfl, h⟩
  | error e => cases h

theorem run_attempt {o : Except Failure α} (h : x.run serve s w = ((o, s₁), w₁)) :
    (attempt x).run serve s w = ((.ok o, s₁), w₁) := by
  show Dialogue.run serve ((x s).bind _) w = _
  rw [Dialogue.run_bind, show Dialogue.run serve (x s) w = _ from h]
  rfl

theorem run_andFinally {after : Task σ Unit} {o : Except Failure α} {u : Except Failure Unit}
    (hx : x.run serve s w = ((o, s₁), w₁)) (ha : after.run serve s₁ w₁ = ((u, s'), w')) :
    (andFinally x after).run serve s w = ((u.bind fun _ => o, s'), w') := by
  refine (run_bind_ok (run_attempt hx)).trans ?_
  cases u with
  | ok _ => exact run_bind_ok ha
  | error e => exact run_bind_error ha

end Task

/-- An operation that answers nothing returns where what it does returns. -/
theorem Operation.run_quiet_iff {serve : (q : Request) → ω → q.Answer × ω} {x : Task Resource Unit}
    {s s' : Standing Resource} {w w' : ω} {a : Value} :
    (run.quiet x).run serve s w = ((.ok a, s'), w') ↔
      a = .null ∧ x.run serve s w = ((.ok (), s'), w') := by
  constructor
  · intro h
    obtain ⟨_, s₁, d₁, h₁, h₂⟩ := Task.exists_of_run_bind h
    cases h₂
    exact ⟨rfl, h₁⟩
  · rintro ⟨rfl, h⟩
    exact Task.run_bind_ok h

/-- What a server answers while nothing on it changes. -/
structure Snapshot where
  /-- The answer to a request on a connection that leads to the database. -/
  answer (database : String) (q : Request) : q.Answer

namespace Snapshot

open DeclaredAccess.Task (marked run_andFinally run_bind_error run_bind_ok)

/-- The database that the open connection leads to after a request. -/
def connection (q : Request) (database : String) : String := match q with
  | .connect name => name
  | _ => database

def serve (w : Snapshot) (q : Request) (database : String) : q.Answer × String :=
  (w.answer (connection q database) q, connection q database)

variable {w : Snapshot} {c : Client} {x : Task σ α} {f : α → Task σ β} {s : Standing σ} {d : String}
  {P : α → Prop} {Q : β → Prop}

/-! ## Inside a transaction -/

/-- On the connection the task has one outcome, which changes nothing; if it returns, `P` holds of
what it returns. -/
def Tells (w : Snapshot) (x : Task σ α) (d : String) (P : α → Prop) : Prop :=
  ∃ o, (∀ s, x.run w.serve s d = ((o, s), d)) ∧ ∀ a, o = .ok a → P a

theorem Tells.pure {a : α} (h : P a) : w.Tells (pure a : Task σ α) d P := by
  refine ⟨.ok a, fun _ => rfl, fun b hb => ?_⟩
  cases hb
  exact h

theorem Tells.mono {P' : α → Prop} (h : w.Tells x d P) (hp : ∀ a, P a → P' a) :
    w.Tells x d P' := by
  obtain ⟨o, hx, ha⟩ := h
  exact ⟨o, hx, fun a ho => hp a (ha a ho)⟩

theorem Tells.bind (hx : w.Tells x d P) (hf : ∀ a, P a → w.Tells (f a) d Q) :
    w.Tells (x >>= f) d Q := by
  obtain ⟨o, hx, hp⟩ := hx
  cases o with
  | ok a =>
    obtain ⟨o, hf, hq⟩ := hf a (hp a rfl)
    exact ⟨o, fun s => (run_bind_ok (hx s)).trans (hf s), hq⟩
  | error e =>
    refine ⟨.error e, fun s => run_bind_error (hx s), fun b hb => ?_⟩
    cases hb

theorem Tells.fail (e : Error) : w.Tells (Task.fail e : Task σ α) d P := by
  refine ⟨_, fun _ => rfl, fun a ha => ?_⟩
  cases ha

theorem tells_execute (w : Snapshot) (q : Sql.Query) (intent : String) (d : String) :
    w.Tells (Task.execute (.query q) intent : Task σ (List Row)) d fun rows =>
      w.answer d (.execute (.query q)) = .ok rows := by
  cases ht : (Sql.Statement.query q).text with
  | error e =>
    unfold Task.execute
    rw [ht]
    exact .fail _
  | ok text =>
    rw [Task.execute_eq ht]
    refine ⟨_, fun s => run_bind_ok (a := w.answer d (.execute (.query q))) rfl, fun rows hr => ?_⟩
    cases ha : w.answer d (.execute (.query q)) with
    | ok _ =>
      rw [ha] at hr
      cases hr
      rfl
    | error e =>
      rw [ha] at hr
      cases hr

/-- A question whose answer is worked out by a computation. -/
theorem tells_query (w : Snapshot) (q : Sql.Query) (intent : String) (f : List Row → Except Error α)
    (d : String) :
    w.Tells (Task.execute (.query q) intent >>= fun rows => Task.ofExcept (f rows) : Task σ α) d
      fun a => ∃ rows, w.answer d (.execute (.query q)) = .ok rows ∧ f rows = .ok a := by
  refine (w.tells_execute q intent d).bind fun rows hr => ?_
  cases hf : f rows with
  | ok a => exact .pure ⟨rows, hr, hf⟩
  | error e => exact .fail e

/-! ## Around a transaction -/

/-- From wherever it starts, the task has this outcome. It leaves what it works on, and what is known
of the version, as they are. -/
def Looks (w : Snapshot) (x : Task σ α) (o : Except Failure α) : Prop :=
  ∀ s d, ∃ s' d', x.run w.serve s d = ((o, s'), d') ∧ s'.work = s.work ∧
    s'.session.version = s.session.version

/-- The task has one outcome from wherever it starts; if it returns, `P` holds of what it returns. -/
def Finds (w : Snapshot) (x : Task σ α) (P : α → Prop) : Prop :=
  ∃ o, w.Looks x o ∧ ∀ a, o = .ok a → P a

theorem Looks.pure (a : α) : w.Looks (pure a : Task σ α) (.ok a) :=
  fun s d => ⟨s, d, rfl, rfl, rfl⟩

theorem Looks.bind {a : α} {o : Except Failure β} (hx : w.Looks x (.ok a)) (hf : w.Looks (f a) o) :
    w.Looks (x >>= f) o := by
  intro s d
  obtain ⟨s₁, d₁, hr, hw, hv⟩ := hx s d
  obtain ⟨s', d', hr', hw', hv'⟩ := hf s₁ d₁
  exact ⟨s', d', (run_bind_ok hr).trans hr', hw'.trans hw, hv'.trans hv⟩

theorem Looks.failed {e : Failure} (hx : w.Looks x (.error e)) : w.Looks (x >>= f) (.error e) := by
  intro s d
  obtain ⟨s', d', hr, hf⟩ := hx s d
  exact ⟨s', d', run_bind_error hr, hf⟩

theorem Finds.pure {a : α} (h : P a) : w.Finds (pure a : Task σ α) P := by
  refine ⟨.ok a, .pure a, fun b hb => ?_⟩
  cases hb
  exact h

theorem Finds.mono {P' : α → Prop} (h : w.Finds x P) (hp : ∀ a, P a → P' a) :
    w.Finds x P' := by
  obtain ⟨o, hx, ha⟩ := h
  exact ⟨o, hx, fun a ho => hp a (ha a ho)⟩

theorem Finds.bind (hx : w.Finds x P) (hf : ∀ a, P a → w.Finds (f a) Q) :
    w.Finds (x >>= f) Q := by
  obtain ⟨o, hx, hp⟩ := hx
  cases o with
  | ok a =>
    obtain ⟨o, hf, hq⟩ := hf a (hp a rfl)
    exact ⟨o, hx.bind hf, hq⟩
  | error e =>
    refine ⟨.error e, hx.failed, fun b hb => ?_⟩
    cases hb

/-- Where a task with one outcome returns once, it always does. -/
theorem Finds.of_run {s s' : Standing σ} {a : α} {d' : String} (h : w.Finds x P)
    (hr : x.run w.serve s d = ((.ok a, s'), d')) : w.Looks x (.ok a) ∧ P a := by
  obtain ⟨o, hx, ha⟩ := h
  obtain ⟨_, _, hr', _⟩ := hx s d
  cases hr.symm.trans hr'
  exact ⟨hx, ha a rfl⟩

theorem looks_engine (w : Snapshot) (c : Client) (name : String) :
    w.Looks (discard (c.engine name) : Task σ Unit) (.ok ()) := by
  intro s d
  have engine : ∃ n s', (c.engine name).run w.serve s d = ((.ok n, s'), d) ∧ s'.work = s.work ∧
      s'.session.version = s.session.version := by
    unfold Client.engine
    cases he : s.session.engines.get? (c.databaseOr name) with
    | some n =>
      refine ⟨n, s, (run_bind_ok (a := s.session) rfl).trans ?_, rfl, rfl⟩
      rw [he]
      rfl
    | none =>
      let s' : Standing σ := { s with session := { s.session with
        engines := s.session.engines.put (c.databaseOr name) s.session.engineCount
        engineCount := s.session.engineCount + 1 } }
      refine ⟨s.session.engineCount, s', (run_bind_ok (a := s.session) rfl).trans ?_, rfl, rfl⟩
      rw [he]
      rfl
  obtain ⟨n, s', hr, hf⟩ := engine
  exact ⟨s', d, run_bind_ok hr, hf⟩

theorem run_mark (w : Snapshot) (m : Marker) (s : Standing σ) (d : String) :
    (Task.mark m).run w.serve s d = ((marked (w.answer d (.mark m)), s), d) := by
  rw [Task.mark_eq]
  exact run_bind_ok (a := w.answer d (.mark m)) rfl

theorem run_rollback (w : Snapshot) (s : Standing σ) (d : String) :
    Task.rollback.run w.serve (s.within true) d =
      ((marked (w.answer d (.mark .rollback)), s.within false), d) :=
  w.run_mark .rollback (s.within false) d

/-- The outcome of a transaction on an open connection by the outcome of what runs in it. -/
def begun (w : Snapshot) (database : String) (peer : Peer) (o : Except Failure α) :
    Except Failure α := do
  peer.check.mapError Failure.of
  marked (w.answer database (.mark .begin))
  marked (w.answer database (.mark .rollback))
  o

theorem exists_run_begun {o : Except Failure α} (peer : Peer)
    (h : ∀ s, x.run w.serve s d = ((o, s), d)) (s : Standing σ) : ∃ s',
      Task.run w.serve (do
        Task.ofExcept peer.check
        Task.mark .begin
        Task.changeSession fun s => { s with inTransaction := true }
        Task.andFinally x Task.rollback) s d = ((w.begun d peer o, s'), d) ∧
      s'.work = s.work ∧ s'.session.version = s.session.version := by
  unfold begun
  cases peer.check with
  | error e => exact ⟨s, rfl, rfl, rfl⟩
  | ok _ =>
    have hm := w.run_mark .begin s d
    cases hb : w.answer d (.mark .begin) with
    | error e =>
      rw [hb] at hm
      refine ⟨s, ?_, rfl, rfl⟩
      exact (run_bind_ok (a := ()) rfl).trans (run_bind_error hm)
    | ok _ =>
      rw [hb] at hm
      -- what runs in the transaction leaves it open, so that it is rolled back
      have hx : (Task.andFinally x Task.rollback).run w.serve (s.within true) d = _ :=
        run_andFinally (h (s.within true)) (w.run_rollback s d)
      refine ⟨s.within false, ?_, rfl, rfl⟩
      refine (run_bind_ok (a := ()) rfl).trans ((run_bind_ok hm).trans ?_)
      exact (run_bind_ok (a := ()) rfl).trans hx

theorem run_connect (w : Snapshot) (database : String) (s : Standing σ) (d : String) :
    (Task.ask (.connect database)).run w.serve s d =
      ((.ok (w.answer database (.connect database)), s), database) := rfl

/-- A task that asks on a connection has one outcome in a transaction of its own. -/
theorem looks_transaction {name : String} {o : Except Failure α}
    (h : ∀ s, x.run w.serve s (c.databaseOr name) = ((o, s), c.databaseOr name)) :
    w.Looks (c.transaction name x)
      (match w.answer (c.databaseOr name) (.connect (c.databaseOr name)) with
        | .error e => .error (Failure.of (.database e))
        | .ok peer => w.begun (c.databaseOr name) peer o) := by
  refine (w.looks_engine c name).bind fun s d => ?_
  have connects := w.run_connect (c.databaseOr name) s d
  cases hc : w.answer (c.databaseOr name) (.connect (c.databaseOr name)) with
  | error e =>
    rw [hc] at connects
    exact ⟨s, c.databaseOr name, run_bind_ok connects, rfl, rfl⟩
  | ok peer =>
    rw [hc] at connects
    obtain ⟨s', hr, hf⟩ := exists_run_begun peer h s
    refine ⟨s', c.databaseOr name, (run_bind_ok connects).trans ?_, hf⟩
    exact run_andFinally (u := .ok ()) hr rfl

/-- A task that tells something does so in a transaction of its own. -/
theorem Tells.transaction {name : String} (h : w.Tells x (c.databaseOr name) P) :
    w.Finds (c.transaction name x) P := by
  obtain ⟨o, hx, hp⟩ := h
  refine ⟨_, looks_transaction hx, fun a ha => hp a ?_⟩
  split at ha
  · cases ha
  · obtain ⟨_, _, ha⟩ := exists_of_bind_eq_ok ha
    obtain ⟨_, _, ha⟩ := exists_of_bind_eq_ok ha
    obtain ⟨_, _, ha⟩ := exists_of_bind_eq_ok ha
    exact ha

theorem run_locked (w : Snapshot) (mode : LockMode) (x : Task σ α) (s : Standing σ) (d : String) :
    (Task.locked mode x).run w.serve s d = x.run w.serve s d := by
  refine (run_bind_ok (a := ()) rfl).trans ?_
  exact run_andFinally (u := .ok ()) rfl rfl

end Snapshot

/-! ## Features -/

namespace Task

variable {serve : (q : Request) → ω → q.Answer × ω} {c : Client} {f : Feature} {resource : String}
  {s s' : Standing σ} {t : List Exchange} {v : Version}

/-- Once a feature was asked for, the version is known. -/
theorem version_of_goes_require (h : Goes (c.require f resource) s t (.ok ()) s') :
    ∃ v, s'.session.version = some v ∧ v.supports f = true := by
  obtain ⟨t₁, t₂, has, s₁, rfl, h₁, h₂⟩ := goes_bind_ok.mp h
  obtain ⟨t₃, t₄, v, s₂, rfl, h₃, h₄⟩ := goes_bind_ok.mp h₁
  obtain ⟨rfl, hhas, rfl⟩ := goes_pure.mp h₄
  cases hhas
  cases hs : v.supports f with
  | false =>
    rw [hs] at h₂
    obtain ⟨_, _, _, _, _, _, h₅⟩ := goes_bind_ok.mp h₂
    cases (goes_fail.mp h₅).2.1
  | true =>
    rw [hs] at h₂
    obtain ⟨_, _, rfl⟩ := goes_pure.mp h₂
    refine ⟨v, ?_, hs⟩
    rcases goes_version h₃ with ⟨_, hv, _, hr, rfl⟩ | ⟨_, _, _, _, ⟨_, _, _, hr⟩ | ⟨_, _, _, hr, rfl⟩⟩
    · cases hr
      exact hv
    · cases hr
    · cases hr
      rfl

/-- Nothing is asked where the version is known. -/
theorem run_require (hv : s.session.version = some v) (hs : v.supports f = true) (w : ω) :
    (c.require f resource).run serve s w = ((.ok (), s), w) := by
  have hversion : c.version.run serve s w = ((.ok v, s), w) := by
    unfold Client.version
    refine (run_bind_ok (a := s.session) rfl).trans ?_
    rw [hv]
    rfl
  have hsupports : (c.supports f).run serve s w = ((.ok true, s), w) := by
    refine (run_bind_ok hversion).trans ?_
    rw [hs]
    rfl
  exact run_bind_ok hsupports

end Task

end DeclaredAccess
