import DeclaredAccess.Proofs.Operation.Course
import DeclaredAccess.Proofs.Session.Transcript

/-! No elevation is ever committed. The memberships that an operation's elevations hold form a
stack: an elevation that begins pushes its membership, and the revoke of it pops it again. A block
leaves the stack as it found it, however it ends, because the revoke is attempted on every way out
of an elevation; and a revoke that fails makes the block fail, so that no commit follows it. -/

namespace DeclaredAccess

open Sql

/-- The memberships that elevations hold in the open transaction, the innermost one first, and
whether all those that were taken back in it were so without error. -/
structure Elevations where
  inTransaction : Bool := false
  held : List (List String × String) := []
  clean : Bool := true
  deriving DecidableEq

namespace Elevations

/-- What an exchange makes of the elevations; none where it breaks their rules. A membership is
granted only inside a transaction, a revoke is one of the membership that was granted last, no
transaction ends while a membership is held, and a commit is sent only where every revoke went
well. Statements on memberships that a resource declares are no elevations. -/
def next (declared : Bool) (e : Elevations) : Exchange → Option Elevations
  | ⟨.mark .begin, .ok _⟩ => if e.inTransaction then none else some { inTransaction := true }
  | ⟨.mark .commit, _⟩ => if e.inTransaction && e.held.isEmpty && e.clean then some {} else none
  | ⟨.mark .rollback, _⟩ => if e.inTransaction && e.held.isEmpty then some {} else none
  | ⟨.execute (.change (.grantMembership roles member)), .ok _⟩ =>
    if declared then some e
    else if e.inTransaction then some { e with held := (roles, member) :: e.held }
    else none
  | ⟨.execute (.change (.revokeMembership roles member)), a⟩ =>
    if declared then some e
    else match e.held with
      | [] => none
      | m :: held =>
        if m = (roles, member) then some { e with held, clean := e.clean && a.toBool } else none
  | _ => some e

def after (declared : Bool) (e : Elevations) (t : List Exchange) : Option Elevations :=
  t.foldlM (next declared) e

variable {declared : Bool} {e : Elevations}

@[simp] theorem after_nil : after declared e [] = some e := rfl

@[simp] theorem after_cons (x : Exchange) (t : List Exchange) :
    after declared e (x :: t) = (e.next declared x).bind fun e => after declared e t := rfl

@[simp] theorem after_append (t u : List Exchange) :
    after declared e (t ++ u) = (after declared e t).bind fun e => after declared e u :=
  List.foldlM_append

theorem next_of_isQuestion {x : Exchange} (h : x.isQuestion = true) :
    e.next declared x = some e := by
  unfold Exchange.isQuestion at h
  split at h
  · rfl
  · cases h

theorem after_of_questions {t : List Exchange} (h : ∀ y ∈ t, y.isQuestion = true) :
    after declared e t = some e := by
  induction t with
  | nil => rfl
  | cons x t ih =>
    rw [after_cons, next_of_isQuestion (h x (by simp))]
    exact ih fun y hy => h y (by simp [hy])

theorem next_change {c : Change} (hc : declared = true ∨ c.isMembership = false)
    (a : (Request.execute (.change c)).Answer) :
    e.next declared ⟨.execute (.change c), a⟩ = some e := by
  cases c with
  | grantMembership roles member =>
    rcases hc with rfl | h
    · cases a <;> rfl
    · cases h
  | revokeMembership roles member =>
    rcases hc with rfl | h
    · rfl
    · cases h
  | _ => rfl

end Elevations

variable {σ α : Type} {s s' : Standing σ} {t : List Exchange} {declared : Bool} {e : Elevations}

open Elevations

theorem after_setUp {c : Client} {name : String} (h : EngineSetUp c name s t s') :
    after declared e t = some e :=
  Task.setUp_foldlM h fun _ _ => rfl

theorem after_version {c : Client} {r : Except Failure Version}
    (h : Task.Goes (c.version : Task σ Version) s t r s') : after declared e t = some e :=
  Task.version_foldlM h (fun _ _ => rfl) (fun _ _ => rfl) fun _ _ => rfl

namespace Task

/-- The task leaves the memberships that are held as it found them; where it succeeds, every
membership that it took back was taken back without error. -/
def Nests (declared : Bool) (x : Task σ α) : Prop :=
  ∀ (s : Standing σ) (t : List Exchange) (r : Except Failure α) (s' : Standing σ) (e : Elevations),
    Goes x s t r s' → e.inTransaction = true →
      ∃ clean, after declared e t = some { e with clean } ∧ ∀ v, r = .ok v → clean = e.clean

theorem Nests.run {x : Task σ α} (hx : Nests declared x) {r : Except Failure α}
    (hg : Goes x s t r s') (he : e.inTransaction = true) :
    ∃ clean, after declared e t = some { e with clean } ∧ ∀ v, r = .ok v → clean = e.clean :=
  hx s t r s' e hg he

theorem Nests.of_silent {x : Task σ α} (h : ∀ {s s' : Standing σ} {t : List Exchange}
    {r : Except Failure α} {e : Elevations}, Goes x s t r s' → after declared e t = some e) :
    Nests declared x := by
  intro s t r s' e hg _
  exact ⟨e.clean, h hg, fun _ _ => rfl⟩

theorem Nests.savepoint {x : Task σ α} (hx : Nests declared x) :
    Nests declared (savepoint x) := by
  intro s t r s' e hg he
  rcases goes_savepoint.mp hg with
    ⟨f, rfl, _, rfl⟩ | ⟨u, v, a, rfl, hb, rfl⟩ | ⟨u, f, a, rfl, hb, rfl⟩
  · exact ⟨e.clean, rfl, fun _ _ => rfl⟩
  · obtain ⟨clean, hu, hc⟩ := hx.run hb he
    refine ⟨clean, ?_, fun _ _ => hc v rfl⟩
    show (after declared e (u ++ [_])) = _
    rw [after_append, hu]
    rfl
  · obtain ⟨clean, hu, _⟩ := hx.run hb he
    refine ⟨clean, ?_, fun v hv => ?_⟩
    · show (after declared e (u ++ [_])) = _
      rw [after_append, hu]
      rfl
    · cases a with
      | ok _ => cases hv
      | error _ => cases hv

theorem Nests.elevated {role actor : Value} {x : Task σ α} (hx : Nests declared x) :
    Nests declared (elevated role actor x) := by
  intro s t r s' e hg he
  have silent {u : List Exchange} {o : Except Failure (Option (String × String))}
      {s₁ s₂ : Standing σ} (h : Goes (elevationFor role actor) s₁ u o s₂) :
      ∀ e, after declared e u = some e :=
    fun _ => after_of_questions ((Block.elevationFor role actor).asks h).2
  cases goes_elevated hg with
  | failed h₀ => exact ⟨e.clean, silent h₀ e, fun _ _ => rfl⟩
  | needless h₀ h =>
    obtain ⟨clean, ht, hc⟩ := hx.run h he
    exact ⟨clean, by rw [after_append, silent h₀]; exact ht, hc⟩
  | refused h₀ => exact ⟨e.clean, by rw [after_append, silent h₀]; rfl, fun _ _ => rfl⟩
  | @held t₀ u group member rows o b s₁ h₀ h =>
    cases declared with
    | true =>
      obtain ⟨clean, hu, hc⟩ := hx.savepoint.run h he
      refine ⟨clean, ?_, fun v hv => hc v (eq_ok_of_takenBack hv).1⟩
      rw [after_append, silent h₀]
      show after true e (u ++ [_]) = _
      rw [after_append, hu]
      rfl
    | false =>
      -- the block runs on top of the new membership, which the revoke then finds on top again
      obtain ⟨clean, hu, hc⟩ := hx.savepoint.run h
        (e := { e with held := ([group], member) :: e.held }) he
      refine ⟨clean && b.toBool, ?_, fun v hv => ?_⟩
      · rw [after_append, silent h₀]
        show (next false e _).bind (fun e => after false e (u ++ [_])) = _
        rw [show next false e ⟨.execute (.change (.grantMembership [group] member)), .ok rows⟩ =
            some { e with held := ([group], member) :: e.held } by simp [next, he]]
        show after false _ (u ++ [_]) = _
        rw [after_append, hu]
        simp [next]
      · obtain ⟨ho, _, rfl⟩ := eq_ok_of_takenBack hv
        rw [hc v ho]
        exact Bool.and_true _

theorem Block.nests {a : Allowance}
    (ha : declared = true ∨ ∀ c, a.sends c → c.isMembership = false) {x : Task σ α}
    (h : Block a x) : Nests declared x := by
  induction h with
  | pure v => exact .of_silent fun hg => by rw [(goes_pure.mp hg).1]; rfl
  | fail _ => exact .of_silent fun hg => by rw [(goes_fail.mp hg).1]; rfl
  | bindOf _ _ ihx ihf =>
    intro s t r s' e hg he
    rcases goes_bind.mp hg with ⟨t₁, t₂, v, s₁, rfl, h₁, h₂⟩ | ⟨f, h₁, rfl⟩
    · obtain ⟨clean₁, hu, hc⟩ := ihx.run h₁ he
      obtain ⟨clean₂, hv, hd⟩ := (ihf v ⟨_, _, _, h₁⟩).run h₂ (e := { e with clean := clean₁ }) he
      refine ⟨clean₂, by rw [after_append, hu]; exact hv, fun w hw => ?_⟩
      rw [hd w hw]
      exact hc v rfl
    · obtain ⟨clean, hu, _⟩ := ihx.run h₁ he
      exact ⟨clean, hu, fun v hv => nomatch hv⟩
  | query q intent =>
    exact .of_silent fun hg => after_of_questions ((Block.query q intent).asks hg).2
  | change hc intent =>
    refine .of_silent fun hg => ?_
    obtain ⟨_, ⟨f, _, rfl, _⟩ | ⟨_, b, _, rfl, _⟩⟩ := goes_execute.mp hg
    · rfl
    · rw [after_cons, next_change (ha.imp_right fun h => h _ hc)]
      rfl
  | elevated _ role actor _ ih => exact ih.elevated
  | version _ c => exact .of_silent after_version
  | changeWork _ f => exact .of_silent fun hg => by rw [(goes_changeWork.mp hg).1]; rfl

/-- A block with a commit after it either ends its transaction, with no membership held and every
revoke done, or leaves it open with no membership held. -/
theorem Block.nests_commit {a : Allowance}
    (ha : declared = true ∨ ∀ c, a.sends c → c.isMembership = false) {x : Task σ Unit}
    (hx : Block a x) {r : Except Failure Unit} (hg : Goes (x >>= fun _ => commit) s t r s')
    (hs : s.session.inTransaction = true) :
    (after declared { inTransaction := true } t = some {} ∧ s'.session.inTransaction = false) ∨
      ∃ clean, after declared { inTransaction := true } t = some { inTransaction := true, clean } ∧
        s'.session.inTransaction = true := by
  rcases goes_bind.mp hg with ⟨t₁, t₂, v, s₁, rfl, h₁, h₂⟩ | ⟨f, h₁, rfl⟩
  · obtain ⟨clean, hu, hc⟩ := (hx.nests ha).run h₁ (e := { inTransaction := true }) rfl
    obtain ⟨rfl, b, rfl, _⟩ := goes_commit.mp h₂
    rw [after_append, hu, hc v rfl]
    exact .inl ⟨rfl, rfl⟩
  · obtain ⟨clean, hu, _⟩ := (hx.nests ha).run h₁ (e := { inTransaction := true }) rfl
    exact .inr ⟨clean, hu, (hx.inTransaction_eq h₁).trans hs⟩

/-- A transaction leaves no elevation behind if its body ends it or holds no membership. -/
theorem after_transaction {c : Client} {name : String} {body : Task σ α} {r : Except Failure α}
    (hb : ∀ s t r s', Goes body s t r s' → s.session.inTransaction = true →
      (after declared { inTransaction := true } t = some {} ∧ s'.session.inTransaction = false) ∨
        ∃ clean, after declared { inTransaction := true } t = some { inTransaction := true, clean } ∧
          s'.session.inTransaction = true)
    (hg : Goes (c.transaction name body) s t r s') : after declared {} t = some {} := by
  obtain ⟨t₀, s₀, he, ⟨f, rfl, _⟩ | ⟨peer, u, rfl, h⟩⟩ := goes_transaction hg
  · rw [after_append, after_setUp he]
    rfl
  · rw [after_append, after_setUp he]
    show after declared {} (u ++ [_]) = _
    rw [after_append]
    rcases h with ⟨f, rfl, _⟩ | ⟨f, rfl, _⟩ | ⟨v, w, o, o', s₁, rfl, hv, hw, _⟩
    · rfl
    · rfl
    · show ((after declared { inTransaction := true } (v ++ w)).bind _) = _
      rw [after_append]
      rcases hb _ _ _ _ hv rfl with ⟨hv, hs⟩ | ⟨clean, hv, hs⟩
      · rcases goes_rollback.mp hw with ⟨_, rfl, _⟩ | ⟨hs', _⟩
        · rw [hv]
          rfl
        · rw [hs] at hs'
          cases hs'
      · rcases goes_rollback.mp hw with ⟨hs', _⟩ | ⟨_, _, b, rfl, _⟩
        · rw [hs] at hs'
          cases hs'
        · rw [hv]
          rfl

theorem Course.nests {mode : LockMode} {a : Allowance} {held : Bool} {n : Nat}
    (ha : declared = true ∨ ∀ c, a.sends c → c.isMembership = false) {x : Task σ α}
    (h : Course mode a held n x) {r : Except Failure α} (hg : Goes x s t r s') :
    Elevations.after declared {} t = some {} := by
  induction h generalizing s t s' with
  | settled r => rw [(goes_settled.mp hg).1]; rfl
  | bind _ _ ihx ihf =>
    rcases goes_bind.mp hg with ⟨t₁, t₂, v, s₁, rfl, h₁, h₂⟩ | ⟨f, h₁, rfl⟩
    · rw [after_append, ihx h₁]
      exact ihf v h₂
    · exact ihx h₁
  | mono _ _ ih => exact ih hg
  | work => rw [(goes_work.mp hg).1]; rfl
  | changeWork f => rw [(goes_changeWork.mp hg).1]; rfl
  | attempt _ ih =>
    obtain ⟨o, _, h⟩ := goes_attempt.mp hg
    exact ih h
  | version c => exact after_version hg
  | look c name hb =>
    refine after_transaction (fun s t r s' hg hs => .inr ?_) hg
    obtain ⟨clean, ht, _⟩ := (hb.nests (.inr fun _ (h : False) => h.elim)).run hg
      (e := { inTransaction := true }) rfl
    exact ⟨clean, ht, (hb.inTransaction_eq hg).trans hs⟩
  | committed _ c name hb => exact after_transaction (fun _ _ _ _ => hb.nests_commit ha) hg
  | locked _ ih =>
    obtain ⟨u, rfl, h⟩ := goes_locked.mp hg
    show Elevations.after declared {} (u ++ [_]) = _
    rw [after_append, ih h]
    rfl

end Task

namespace Operation

/-- Whether memberships are what the operation's resource declares. Such an operation goes an
`.enrolling` course: none of its blocks elevates, so the statements on memberships that it sends are
the declared ones alone. -/
def declaresMemberships : Operation → Bool
  | createMembership | readMembership | updateMembership | deleteMembership => true
  | _ => false

theorem allowance_eq (op : Operation) :
    op.allowance = if op.declaresMemberships then .enrolling else .managing := by
  cases op with
  | _ => rfl

/-- An operation elevates nothing, or the statements on memberships that it sends are all those of
its elevations. -/
theorem allowance_spares (op : Operation) : (op.declaresMemberships = true ∧ ¬op.allowance.elevates) ∨
    ∀ c, op.allowance.sends c → c.isMembership = false := by
  rw [op.allowance_eq]
  cases op.declaresMemberships with
  | true => exact .inl ⟨rfl, fun h => h⟩
  | false => exact .inr fun _ h => h

/-- In every transaction of an operation elevations are properly nested and are all taken back
before it ends, and it is committed only where each of them was taken back without error. -/
theorem elevations_never_committed (op : Operation) (c : Client) (s s' : Standing Resource)
    (t : List Exchange) (r : Except Failure Value) (h : Task.Goes (op.run c) s t r s') :
    Elevations.after op.declaresMemberships {} t = some {} :=
  (op.course c).nests (op.allowance_spares.imp_left And.left) h

/-- A schema that belongs to another role than the client's. -/
def ownedSchema : Standing Resource where
  session := {}
  work := { id := "app.s", values := [("name", .text "s"), ("owner", .text "owner")] }

/-- The drop of such a schema is one elevation, taken back before the commit. -/
theorem elevations_never_committed_drop :
    let t := (deleteSchema.run .admin).exchanges Request.granted ownedSchema
    t[6]?.map Exchange.request = some (.execute (.change (.grantMembership ["owner"] "admin"))) ∧
      t[10]?.map Exchange.request =
        some (.execute (.change (.revokeMembership ["owner"] "admin"))) ∧
      Elevations.after false {} t = some {} :=
  ⟨rfl, rfl, elevations_never_committed deleteSchema .admin _ _ _ _ (Task.goes_exchanges _ _ _)⟩

end Operation

end DeclaredAccess
