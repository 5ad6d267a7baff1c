import DeclaredAccess.Proofs.Operation.Course
import DeclaredAccess.Proofs.Session.Transcript
import DeclaredAccess.Proofs.Sql.Select

/-! The discipline of locks, connections and transactions. A connection is closed by whoever opened
it, inside one lies at most one transaction, and transactions lie inside the catalog lock. Blocks
and bodies of transactions come back to the conduct they began with, so an operation does, too. -/

namespace DeclaredAccess

open Sql

/-- How far a connection has come: no transaction was begun on it yet, one is open, or the one that
it could carry is over. -/
inductive Stage
  | opened | begun | ended
  deriving DecidableEq

/-- What an operation holds: the catalog lock, the open connections, the latest one first, and the
number of commits that it has sent. -/
structure Conduct where
  lock : Option LockMode := none
  connections : List Stage := []
  commits : Nat := 0
  deriving DecidableEq

namespace Conduct

/-- What a marker makes of the conduct, by whether it is answered without error. -/
def mark (mode : LockMode) (k : Conduct) (m : Marker) (granted : Bool) : Option Conduct :=
  if k.lock = some mode then
    match m, k.connections with
    | .begin, .opened :: rest =>
      some { k with connections := (if granted then .begun else .ended) :: rest }
    | .rollback, .begun :: rest => some { k with connections := .ended :: rest }
    | .commit, .begun :: rest =>
      if mode = .write ∧ k.commits = 0 then
        some { k with connections := .ended :: rest, commits := k.commits + 1 }
      else none
    | .savepoint, .begun :: _ | .release, .begun :: _ | .rollbackTo, .begun :: _ =>
      if mode = .write then some k else none
    | _, _ => none
  else none

/-- What an exchange makes of the conduct of an operation that holds the lock in this mode; none
where it breaks the discipline. Markers and statements need the lock and the latest connection: a
begin one that carried no transaction yet, all others one with an open transaction. In read mode
nothing is committed, no savepoint is set and every statement selects; in write mode one commit is
sent at most. -/
def next (mode : LockMode) (k : Conduct) : Exchange → Option Conduct
  | ⟨.acquire m, _⟩ =>
    if m = mode ∧ k.lock = none ∧ k.connections = [] then some { k with lock := some m } else none
  | ⟨.release m, _⟩ =>
    if k.lock = some m ∧ k.connections = [] then some { k with lock := none } else none
  | ⟨.connect _, .ok _⟩ => some { k with connections := .opened :: k.connections }
  | ⟨.disconnect, _⟩ => match k.connections with
    | .opened :: rest | .ended :: rest => some { k with connections := rest }
    | _ => none
  | ⟨.mark m, a⟩ => k.mark mode m a.toBool
  | ⟨.execute st, _⟩ => match k.connections with
    | .begun :: _ =>
      if k.lock = some mode ∧ (mode = .write ∨ st.isSelect = true) then some k else none
    | _ => none
  | ⟨.connect _, .error _⟩ | ⟨.openEngine .., _⟩ | ⟨.disposeEngine _, _⟩ => some k

def after (mode : LockMode) (k : Conduct) (t : List Exchange) : Option Conduct :=
  t.foldlM (next mode) k

variable {mode : LockMode} {k : Conduct}

@[simp] theorem after_nil : after mode k [] = some k := rfl

@[simp] theorem after_cons (x : Exchange) (t : List Exchange) :
    after mode k (x :: t) = (k.next mode x).bind fun k => after mode k t := rfl

@[simp] theorem after_append (t u : List Exchange) :
    after mode k (t ++ u) = (after mode k t).bind fun k => after mode k u :=
  List.foldlM_append

/-- No change selects, so none is sent in read mode. -/
theorem next_read_change (k : Conduct) (c : Change) (a : (Request.execute (.change c)).Answer) :
    k.next .read ⟨.execute (.change c), a⟩ = none := by
  simp only [next, isSelect_change]
  split
  · simp
  · rfl

/-- Each exchange of a conduct that keeps the discipline keeps it. -/
theorem exists_next {k' : Conduct} {t : List Exchange} (h : after mode k t = some k') {y : Exchange}
    (hy : y ∈ t) : ∃ k₁ k₂ : Conduct, k₁.next mode y = some k₂ := by
  obtain ⟨u, v, rfl⟩ := List.append_of_mem hy
  rw [after_append] at h
  obtain ⟨k₁, _, h⟩ := Option.bind_eq_some_iff.mp h
  obtain ⟨k₂, hn, _⟩ := Option.bind_eq_some_iff.mp h
  exact ⟨k₁, k₂, hn⟩

end Conduct

variable {σ α : Type} {s s' : Standing σ} {t : List Exchange} {mode : LockMode} {k : Conduct}

namespace Conduct

theorem after_setUp {c : Client} {name : String} (h : EngineSetUp c name s t s') :
    after mode k t = some k :=
  Task.setUp_foldlM h fun _ _ => rfl

theorem after_version {c : Client} {r : Except Failure Version}
    (h : Task.Goes (c.version : Task σ Version) s t r s') : after mode k t = some k :=
  Task.version_foldlM h (fun _ _ => rfl) (fun _ _ => rfl) fun _ _ => rfl

/-- The conduct once a transaction is begun on a new connection. -/
def begun (k : Conduct) : Conduct := { k with connections := .begun :: k.connections }

/-- The conduct once the transaction is over, after `n` commits in it. -/
def ended (k : Conduct) (n : Nat) : Conduct :=
  { k with connections := .ended :: k.connections, commits := k.commits + n }

theorem next_savepoint (hl : k.lock = some .write) {m : Marker}
    (hm : m = .savepoint ∨ m = .release ∨ m = .rollbackTo) (a : Except DriverError Unit) :
    k.begun.next .write ⟨.mark m, a⟩ = some k.begun := by
  rcases hm with rfl | rfl | rfl
  · simp [next, mark, begun, hl]
  · simp [next, mark, begun, hl]
  · simp [next, mark, begun, hl]

theorem after_execute (hl : k.lock = some mode) {st : Statement}
    (hs : mode = .write ∨ st.isSelect = true) (a : Except DriverError (List Row)) :
    after mode k.begun (⟨.execute st, a⟩ :: t) = after mode k.begun t := by
  simp [next, begun, hl, hs]

end Conduct

namespace Task

open Conduct

variable {a : Allowance}

theorem after_questions (hl : k.lock = some mode) (h : ∀ y ∈ t, y.isQuestion = true) :
    Conduct.after mode k.begun t = some k.begun := by
  induction t with
  | nil => rfl
  | cons y t ih =>
    have hy := h y (by simp)
    have ht : Conduct.after mode k.begun t = some k.begun := ih fun z hz => h z (by simp [hz])
    unfold Exchange.isQuestion at hy
    split at hy
    · exact (after_execute hl (.inr hy) _).trans ht
    · cases hy

theorem after_savepoint {x : Task σ α} {r : Except Failure α}
    (hx : ∀ s t r s', Goes x s t r s' → Conduct.after .write k.begun t = some k.begun)
    (hg : Goes (savepoint x) s t r s') (hl : k.lock = some .write) :
    Conduct.after .write k.begun t = some k.begun := by
  have mark {m : Marker} (hm : m = .savepoint ∨ m = .release ∨ m = .rollbackTo)
      (b : Except DriverError Unit) :
      Conduct.after .write k.begun [⟨.mark m, b⟩] = some k.begun := by
    rw [Conduct.after_cons, next_savepoint hl hm b]
    rfl
  rcases goes_savepoint.mp hg with ⟨f, rfl, _⟩ | ⟨u, v, b, rfl, hb, _⟩ | ⟨u, f, b, rfl, hb, _⟩
  · exact mark (.inl rfl) _
  · rw [Conduct.after_cons, next_savepoint hl (.inl rfl)]
    show Conduct.after .write k.begun (u ++ [_]) = _
    rw [Conduct.after_append, hx _ _ _ _ hb]
    exact mark (.inr (.inl rfl)) b
  · rw [Conduct.after_cons, next_savepoint hl (.inl rfl)]
    show Conduct.after .write k.begun (u ++ [_]) = _
    rw [Conduct.after_append, hx _ _ _ _ hb]
    exact mark (.inr (.inr rfl)) b

/-- A block in an open transaction leaves the conduct as it is. In read mode it may only ask. -/
theorem Block.conduct (ha : mode = .write ∨ ((∀ c, ¬a.sends c) ∧ ¬a.elevates)) {x : Task σ α}
    (h : Block a x) {r : Except Failure α} (hg : Goes x s t r s') (hl : k.lock = some mode) :
    Conduct.after mode k.begun t = some k.begun := by
  induction h generalizing s s' t with
  | pure v => rw [(goes_pure.mp hg).1]; rfl
  | fail _ => rw [(goes_fail.mp hg).1]; rfl
  | bindOf _ _ ihx ihf =>
    rcases goes_bind.mp hg with ⟨t₁, t₂, v, s₁, rfl, h₁, h₂⟩ | ⟨f, h₁, rfl⟩
    · rw [Conduct.after_append, ihx h₁]
      exact ihf v ⟨_, _, _, h₁⟩ h₂
    · exact ihx h₁
  | query q intent => exact after_questions hl ((Block.query q intent).asks hg).2
  | change hc intent =>
    have hw : mode = .write := ha.resolve_right fun h => h.1 _ hc
    obtain ⟨_, ⟨f, _, rfl, _⟩ | ⟨_, b, _, rfl, _⟩⟩ := goes_execute.mp hg
    · rfl
    · exact after_execute hl (.inl hw) b
  | elevated he role actor hb ih =>
    have hw : mode = .write := ha.resolve_right fun h => h.2 he
    subst hw
    have silent {u : List Exchange} {o : Except Failure (Option (String × String))}
        {s₁ s₂ : Standing σ} (h : Goes (Task.elevationFor role actor) s₁ u o s₂) :
        Conduct.after .write k.begun u = some k.begun :=
      after_questions hl ((Block.elevationFor role actor).asks h).2
    cases goes_elevated hg with
    | failed h₀ => exact silent h₀
    | needless h₀ h =>
      rw [Conduct.after_append, silent h₀]
      exact ih h
    | refused h₀ =>
      rw [Conduct.after_append, silent h₀]
      exact after_execute hl (.inl rfl) _
    | held h₀ h =>
      rw [Conduct.after_append, silent h₀]
      refine (after_execute hl (.inl rfl) _).trans ?_
      rw [Conduct.after_append, after_savepoint (fun _ _ _ _ hx => ih hx) h hl]
      exact after_execute hl (.inl rfl) _
  | version _ c => exact after_version hg
  | changeWork _ f => rw [(goes_changeWork.mp hg).1]; rfl

/-- The body of a transaction either ends it, after `n` commits in it, or leaves it open. -/
def Ends (mode : LockMode) (k : Conduct) (n : Nat) (body : Task σ α) : Prop :=
  ∀ (s : Standing σ) (t : List Exchange) (r : Except Failure α) (s' : Standing σ),
    Goes body s t r s' → s.session.inTransaction = true →
      (Conduct.after mode k.begun t = some (k.ended n) ∧ s'.session.inTransaction = false) ∨
        (Conduct.after mode k.begun t = some k.begun ∧ s'.session.inTransaction = true)

theorem Block.ends (ha : mode = .write ∨ ((∀ c, ¬a.sends c) ∧ ¬a.elevates)) {x : Task σ α}
    (h : Block a x) (hl : k.lock = some mode) (n : Nat) : Ends mode k n x :=
  fun _ _ _ _ hg hs => .inr ⟨h.conduct ha hg hl, (h.inTransaction_eq hg).trans hs⟩

theorem Block.ends_commit {x : Task σ Unit} (hx : Block a x) (hl : k.lock = some .write)
    (hk : k.commits = 0) : Ends .write k 1 (x >>= fun _ => commit) := by
  intro s t r s' hg hs
  rcases goes_bind.mp hg with ⟨t₁, t₂, v, s₁, rfl, h₁, h₂⟩ | ⟨f, h₁, rfl⟩
  · obtain ⟨rfl, b, rfl, _⟩ := goes_commit.mp h₂
    rw [Conduct.after_append, hx.conduct (.inl rfl) h₁ hl]
    exact .inl ⟨by simp [Conduct.next, Conduct.mark, begun, ended, hl, hk], rfl⟩
  · exact hx.ends (.inl rfl) hl 1 s t _ s' h₁ hs

/-- A transaction opens and closes its connection, and ends what it has begun on it. -/
theorem conduct_transaction {c : Client} {name : String} {body : Task σ α} {n : Nat}
    {r : Except Failure α} (hl : k.lock = some mode) (hb : Ends mode k n body)
    (hg : Goes (c.transaction name body) s t r s') :
    Conduct.after mode k t = some k ∨
      Conduct.after mode k t = some { k with commits := k.commits + n } := by
  obtain ⟨t₀, s₀, he, ⟨f, rfl, _⟩ | ⟨peer, u, rfl, h⟩⟩ := goes_transaction hg
  · refine .inl ?_
    rw [Conduct.after_append, after_setUp he]
    rfl
  · rw [Conduct.after_append, after_setUp he]
    show Conduct.after mode { k with connections := .opened :: k.connections } (u ++ [_]) = _ ∨
      Conduct.after mode { k with connections := .opened :: k.connections } (u ++ [_]) = _
    rw [Conduct.after_append]
    rcases h with ⟨f, rfl, _⟩ | ⟨f, rfl, _⟩ | ⟨v, w, o, o', s₁, rfl, hv, hw, _⟩
    · exact .inl rfl
    · have hbegin : Conduct.next mode { k with connections := .opened :: k.connections }
          ⟨.mark .begin, .error f⟩ = some (k.ended 0) := by
        simp [Conduct.next, Conduct.mark, ended, hl, Except.toBool]
      rw [Conduct.after_cons, hbegin]
      exact .inl rfl
    · have hbegin : Conduct.next mode { k with connections := .opened :: k.connections }
          ⟨.mark .begin, .ok ()⟩ = some k.begun := by
        simp [Conduct.next, Conduct.mark, begun, hl, Except.toBool]
      rw [Conduct.after_cons, hbegin]
      show (Conduct.after mode k.begun (v ++ w)).bind _ = _ ∨
        (Conduct.after mode k.begun (v ++ w)).bind _ = _
      rw [Conduct.after_append]
      rcases hb _ _ _ _ hv rfl with ⟨hv, hs⟩ | ⟨hv, hs⟩
      · rcases goes_rollback.mp hw with ⟨_, rfl, _⟩ | ⟨hs', _⟩
        · rw [hv]
          exact .inr rfl
        · rw [hs] at hs'
          cases hs'
      · rcases goes_rollback.mp hw with ⟨hs', _⟩ | ⟨_, _, b, rfl, _⟩
        · rw [hs] at hs'
          cases hs'
        · have hrollback : Conduct.next mode k.begun ⟨.mark .rollback, b⟩ = some (k.ended 0) := by
            simp [Conduct.next, Conduct.mark, begun, ended, hl]
          rw [hv]
          show (Conduct.after mode k.begun [⟨.mark .rollback, b⟩]).bind _ = _ ∨ _
          rw [Conduct.after_cons, hrollback]
          exact .inl rfl

/-- The conduct between transactions, with the lock or without it. -/
def between (mode : LockMode) (held : Bool) (commits : Nat) : Conduct :=
  { lock := if held then some mode else none, commits }

theorem Course.conduct {held : Bool} {n : Nat} {x : Task σ α} (h : Course mode a held n x)
    {r : Except Failure α} (hg : Goes x s t r s') {m : Nat} (hm : m + n ≤ 1) :
    ∃ m', m' ≤ m + n ∧
      Conduct.after mode (between mode held m) t = some (between mode held m') := by
  induction h generalizing s t s' m with
  | settled r => exact ⟨m, by omega, by rw [(goes_settled.mp hg).1]; rfl⟩
  | @bind held n₁ n₂ _ _ _ _ _ _ ihx ihf =>
    rcases goes_bind.mp hg with ⟨t₁, t₂, v, s₁, rfl, h₁, h₂⟩ | ⟨f, h₁, rfl⟩
    · obtain ⟨m₁, hm₁, ht₁⟩ := ihx h₁ (m := m) (by omega)
      obtain ⟨m₂, hm₂, ht₂⟩ := ihf v h₂ (m := m₁) (by omega)
      exact ⟨m₂, by omega, by rw [Conduct.after_append, ht₁]; exact ht₂⟩
    · obtain ⟨m₁, hm₁, ht₁⟩ := ihx h₁ (m := m) (by omega)
      exact ⟨m₁, by omega, ht₁⟩
  | mono _ hn ih =>
    obtain ⟨m₁, hm₁, ht₁⟩ := ih hg (m := m) (by omega)
    exact ⟨m₁, by omega, ht₁⟩
  | work => exact ⟨m, by omega, by rw [(goes_work.mp hg).1]; rfl⟩
  | changeWork f => exact ⟨m, by omega, by rw [(goes_changeWork.mp hg).1]; rfl⟩
  | attempt _ ih =>
    obtain ⟨o, _, h⟩ := goes_attempt.mp hg
    exact ih h hm
  | version c => exact ⟨m, by omega, after_version hg⟩
  | look c name hb =>
    have hb : Ends mode (between mode true m) 0 _ :=
      hb.ends (.inr ⟨fun _ h => h, fun h => h⟩) rfl 0
    refine ⟨m, by omega, ?_⟩
    rcases conduct_transaction rfl hb hg with ht | ht
    · exact ht
    · exact ht
  | committed hw c name hb =>
    subst hw
    have hb := hb.ends_commit (k := between .write true m) rfl (by show m = 0; omega)
    rcases conduct_transaction rfl hb hg with ht | ht
    · exact ⟨m, by omega, ht⟩
    · exact ⟨m + 1, by omega, ht⟩
  | locked _ ih =>
    obtain ⟨u, rfl, h⟩ := goes_locked.mp hg
    obtain ⟨m₁, hm₁, ht₁⟩ := ih h hm
    refine ⟨m₁, hm₁, ?_⟩
    have hacquire : (between mode false m).next mode ⟨.acquire mode, ()⟩ =
        some (between mode true m) := by
      simp [Conduct.next, between]
    rw [Conduct.after_cons, hacquire]
    show Conduct.after mode (between mode true m) (u ++ [_]) = _
    rw [Conduct.after_append, ht₁]
    simp [Conduct.next, between]

end Task

/-- Every operation keeps the discipline: in the end its lock is free, its connections are closed
and it has sent at most one commit. -/
theorem Operation.conduct (op : Operation) (c : Client) {s s' : Standing Resource}
    {t : List Exchange} {r : Except Failure Value} (h : Task.Goes (op.run c) s t r s') :
    ∃ n ≤ 1, Conduct.after op.mode {} t = some { commits := n } := by
  obtain ⟨n, hn, ht⟩ := (op.course c).conduct h (m := 0) (by omega)
  exact ⟨n, by omega, ht⟩

/-- So nothing but questions about the catalog comes from an operation that reads it. -/
theorem Operation.request_ne_change {op : Operation} (hm : op.mode = .read) {c : Client}
    {s s' : Standing Resource} {t : List Exchange} {r : Except Failure Value}
    (h : Task.Goes (op.run c) s t r s') {y : Exchange} (hy : y ∈ t) (change : Change) :
    y.request ≠ .execute (.change change) := by
  obtain ⟨n, _, ht⟩ := op.conduct c h
  rw [hm] at ht
  obtain ⟨k, k', hn⟩ := Conduct.exists_next ht hy
  obtain ⟨q, a⟩ := y
  rintro rfl
  rw [k.next_read_change] at hn
  cases hn

end DeclaredAccess
