import DeclaredAccess.Proofs.Session.Block

/-! Predicates that hold of a task if they hold of every step in it, whatever the steps come to. A
request is one step; connections, transactions, savepoints, elevations and the lock are made of
steps, so for each of these brackets there is one rule for all such predicates. -/

namespace DeclaredAccess

variable {σ α β : Type}

/-- Whether a request sets up, opens or closes a connection. -/
def Request.isConnecting : Request → Bool
  | openEngine .. | connect _ | disconnect => true
  | _ => false

namespace Task

/-- The predicate holds of each request that is `sent`, and it is kept by all that tasks are built
with; only of a change to what is worked on nothing is said. -/
structure Stepwise (sent : Request → Prop) (P : ∀ {α : Type}, Task σ α → Prop) : Prop where
  settled {α : Type} (r : Except Failure α) : P (settled r : Task σ α)
  bindOf {α β : Type} {x : Task σ α} {f : α → Task σ β} (hx : P x)
    (hf : ∀ v, Returns x v → P (f v)) : P (x >>= f)
  attempt {α : Type} {x : Task σ α} (hx : P x) : P (attempt x)
  ask {q : Request} (h : sent q) : P (ask q : Task σ q.Answer)
  session : P (session : Task σ Session)
  changeSession (f : Session → Session) : P (changeSession f : Task σ Unit)

namespace Stepwise

variable {sent : Request → Prop} {P : ∀ {α : Type}, Task σ α → Prop} (h : Stepwise sent P)

include h

theorem bind {x : Task σ α} {f : α → Task σ β} (hx : P x) (hf : ∀ v, P (f v)) : P (x >>= f) :=
  h.bindOf hx fun v _ => hf v

theorem closed : Closed (fun _ => True) P where
  pure v := h.settled (.ok v)
  fail _ := h.settled _
  bind := h.bind

theorem ofExcept (x : Except Error α) : P (Task.ofExcept x) := h.closed.ofExcept fun _ _ => trivial

theorem andFinally {x : Task σ α} {after : Task σ Unit} (hx : P x) (ha : P after) :
    P (andFinally x after) :=
  h.bind (h.attempt hx) fun r => h.bind ha fun _ => h.settled r

theorem mark {m : Marker} (hm : sent (.mark m)) : P (mark m : Task σ Unit) := by
  rw [mark_eq]
  exact h.bind (h.ask hm) fun _ => h.settled _

theorem execute {st : Sql.Statement} (hs : sent (.execute st)) (intent : String) :
    P (execute st intent : Task σ (List Row)) := by
  cases ht : st.text with
  | error e =>
    unfold Task.execute
    rw [ht]
    exact h.settled _
  | ok text =>
    rw [execute_eq ht]
    exact h.bind (h.ask hs) fun _ => h.settled _

theorem askOne {q : Sql.Query} (hq : sent (.execute (.query q))) (intent : String) :
    P (Catalog.askOne q intent : Task σ Value) :=
  h.closed.askOne (fun _ => trivial) (h.execute hq intent)

theorem change {c : Sql.Change} (hc : sent (.execute (.change c))) (intent : String) :
    P (Catalog.change c intent : Task σ Unit) :=
  h.closed.change (h.execute hc intent)

theorem elevationFor {role actor : Value} (hh : sent (.execute (.query (.hasRole actor role))))
    (hm : sent (.execute (.query (.revocableMembership actor role)))) :
    P (elevationFor role actor : Task σ (Option (String × String))) :=
  h.closed.elevationFor (h.askOne hh _) (h.askOne hm _) (fun _ _ => trivial) fun _ _ => trivial

theorem commit (hm : sent (.mark .commit)) : P (commit : Task σ Unit) := by
  refine h.bind (h.changeSession _) fun _ => h.bind (h.ask hm) fun a => ?_
  cases a with
  | ok v => exact h.closed.pure ()
  | error e => exact h.settled _

theorem locked {mode : LockMode} (ha : sent (.acquire mode)) (hr : sent (.release mode))
    {x : Task σ α} (hx : P x) : P (locked mode x) :=
  h.bind (h.ask ha) fun _ => h.andFinally hx (h.ask hr)

theorem schema {name : Value} (hq : sent (.execute (.query (.schema name)))) :
    P (Catalog.schema name : Task σ (Option (Value × List Value))) :=
  h.closed.schema (fun _ => trivial) fun _ => h.execute hq _

theorem actorRole (hq : sent (.execute (.query .currentUser))) (c : Client) :
    P (c.actorRole : Task σ Value) :=
  h.closed.actorRole (fun _ => trivial) fun _ => h.execute hq _

/-- What is missing is passed over. -/
theorem unlessMissing {x : Task σ Unit} (hx : P x) : P (unlessMissing x) := by
  refine h.bind (h.attempt hx) fun outcome => ?_
  split
  · exact h.closed.pure ()
  · split
    · exact h.closed.pure ()
    · exact h.settled _

/-! ## Savepoints and elevations -/

section

variable (hm : ∀ m, m ≠ .commit → sent (.mark m))

include hm

theorem rollback : P (rollback : Task σ Unit) := by
  refine h.bind h.session fun s => ?_
  split
  · exact h.bind (h.changeSession _) fun _ => h.mark (hm _ (by decide))
  · exact h.closed.pure ()

theorem savepoint {x : Task σ α} (hx : P x) : P (savepoint x) := by
  refine h.bind (h.mark (hm _ (by decide))) fun _ => h.bind (h.attempt hx) fun r => ?_
  cases r with
  | ok v => exact h.bind (h.mark (hm _ (by decide))) fun _ => h.closed.pure v
  | error f => exact h.bind (h.mark (hm _ (by decide))) fun _ => h.settled _

section

variable (he : ∀ st, sent (.execute st))

include he

theorem elevated (role actor : Value) {x : Task σ α} (hx : P x) : P (elevated role actor x) := by
  rw [elevated_eq]
  refine h.bind (h.elevationFor (he _) (he _)) fun m => ?_
  cases m with
  | none => exact hx
  | some m =>
    obtain ⟨group, member⟩ := m
    dsimp only
    rw [asMember_eq]
    exact h.bind (h.change (he _) _) fun _ => h.bind (h.attempt (h.savepoint hm hx)) fun _ =>
      h.bind (h.ask (he _)) fun _ => h.settled _

/-- A block has statements and savepoints, and beside these only what its allowance is for. -/
theorem block {a : Allowance} (hv : a.inquires → ∀ c : Client, P (c.version : Task σ Version))
    (hr : a.records → ∀ f, P (changeWork f)) {x : Task σ α} (hx : Block a x) : P x :=
  Kept.block {
    pure v := h.settled (.ok v)
    fail _ := h.settled _
    bindOf := h.bindOf
    query _ := h.execute (he _)
    change _ := h.execute (he _)
    elevated _ role actor hb := h.elevated hm he role actor hb
    version := hv
    changeWork := hr } hx

end

end

/-! ## Connections and transactions -/

section

variable (hc : ∀ q : Request, q.isConnecting = true → sent q)

include hc

theorem connected (c : Client) (name : String) {body : Peer → Task σ α} (hb : ∀ peer, P (body peer)) :
    P (c.connected name body) := by
  have engine : P (c.engine name : Task σ Nat) := by
    refine h.bind h.session fun s => ?_
    split
    · exact h.closed.pure _
    · exact h.bind (h.ask (hc _ rfl)) fun _ => h.bind (h.changeSession _) fun _ => h.closed.pure _
  refine h.bind (h.bind engine fun _ => h.closed.pure _) fun _ => h.bind (h.ask (hc _ rfl)) fun a => ?_
  cases a with
  | ok peer => exact h.andFinally (hb peer) (h.ask (hc _ rfl))
  | error e => exact h.settled _

theorem version (c : Client) : P (c.version : Task σ Version) := by
  refine h.bind h.session fun s => ?_
  split
  · exact h.closed.pure _
  · exact h.bind (h.connected hc c "" fun _ => h.closed.pure _) fun _ =>
      h.bind (h.changeSession _) fun _ => h.closed.pure _

theorem require (c : Client) (f : Feature) (resource : String) :
    P (c.require f resource : Task σ Unit) :=
  h.closed.require (h.version hc c) fun _ => trivial

variable (hm : ∀ m, m ≠ .commit → sent (.mark m))

include hm

theorem transaction (c : Client) (name : String) {x : Task σ α} (hx : P x) :
    P (c.transaction name x) :=
  h.connected hc c name fun _ => h.bind (h.ofExcept _) fun _ =>
    h.bind (h.mark (hm _ (by decide))) fun _ => h.bind (h.changeSession _) fun _ =>
      h.andFinally hx (h.rollback hm)

theorem committed (hk : sent (.mark .commit)) (c : Client) (name : String) {x : Task σ Unit}
    (hx : P x) : P (c.committed name x) :=
  h.transaction hc hm c name (h.bind hx fun _ => h.commit hk)

end

end Stepwise

end Task

end DeclaredAccess
