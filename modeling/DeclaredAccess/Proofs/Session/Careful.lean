import DeclaredAccess.Proofs.Session.Course
import DeclaredAccess.Proofs.Session.Throughout

/-! Tasks by what they leave of what they work on where they fail. A task is careful if it writes only
after its commit, or as the last thing it does, where nothing can fail any more. -/

namespace DeclaredAccess

variable {σ α β : Type} {s s' : Standing σ} {t : List Exchange} {a : Allowance}

/-- Whether no commit succeeded. -/
def Uncommitted (t : List Exchange) : Prop := ∀ y ∈ t, y.isCommitted = false

instance : Decidable (Uncommitted t) :=
  inferInstanceAs (Decidable (∀ y ∈ t, y.isCommitted = false))

theorem Uncommitted.left {u : List Exchange} (h : Uncommitted (t ++ u)) : Uncommitted t :=
  fun y hy => h y (List.mem_append_left _ hy)

theorem Uncommitted.right {u : List Exchange} (h : Uncommitted (t ++ u)) : Uncommitted u :=
  fun y hy => h y (List.mem_append_right _ hy)

theorem Uncommitted.tail {x : Exchange} (h : Uncommitted (x :: t)) : Uncommitted t :=
  fun y hy => h y (List.mem_cons_of_mem _ hy)

theorem Uncommitted.nil : Uncommitted [] := by simp [Uncommitted]

theorem Uncommitted.cons {y : Exchange} (hy : y.isCommitted = false) (h : Uncommitted t) :
    Uncommitted (y :: t) := by
  intro z hz
  rcases List.mem_cons.mp hz with rfl | hz
  · exact hy
  · exact h z hz

theorem Uncommitted.append {u : List Exchange} (h : Uncommitted t) (hu : Uncommitted u) :
    Uncommitted (t ++ u) :=
  fun y hy => (List.mem_append.mp hy).elim (h y) (hu y)

theorem Uncommitted.locked (mode : LockMode) {u : List Exchange} (h : Uncommitted t)
    (hu : Uncommitted u) :
    Uncommitted (t ++ ⟨.acquire mode, ()⟩ :: (u ++ [⟨.release mode, ()⟩])) :=
  h.append (.cons rfl (hu.append (.cons rfl .nil)))

theorem EngineSetUp.uncommitted {c : Client} {name : String} (h : EngineSetUp c name s t s') :
    Uncommitted t := by
  cases h with
  | known _ => exact .nil
  | new _ => exact .cons rfl .nil

theorem Exchange.isCommitted_of_isConnecting {q : Request} (h : q.isConnecting = true)
    (b : q.Answer) : Exchange.isCommitted ⟨q, b⟩ = false := by
  cases q with
  | mark m => cases h
  | _ => rfl

theorem Exchange.isCommitted_mark {m : Marker} (h : m ≠ .commit) {b : Except DriverError Unit} :
    Exchange.isCommitted ⟨.mark m, b⟩ = false := by
  cases m with
  | commit => exact absurd rfl h
  | _ => rfl

namespace Task

theorem version_uncommitted {c : Client} {r : Except Failure Version}
    (h : Goes (c.version : Task σ Version) s t r s') : Uncommitted t :=
  Throughout.stepwise.version (fun _ => Exchange.isCommitted_of_isConnecting) c _ _ _ _ h

/-- A block never ends its transaction. -/
theorem Block.uncommitted {x : Task σ α} (h : Block a x) {r : Except Failure α}
    (hg : Goes x s t r s') : Uncommitted t :=
  Throughout.stepwise.block (fun _ hm _ => Exchange.isCommitted_mark hm) (fun _ _ => rfl)
    (fun _ => Throughout.stepwise.version fun _ => Exchange.isCommitted_of_isConnecting)
    (fun _ => Throughout.changeWork) h _ _ _ _ hg

theorem rollback_uncommitted {r : Except Failure Unit} (h : Goes (rollback : Task σ Unit) s t r s') :
    Uncommitted t :=
  Throughout.stepwise.rollback (fun _ hm _ => Exchange.isCommitted_mark hm) _ _ _ _ h

/-- Only its body can commit a transaction. -/
theorem transaction_uncommitted {c : Client} {name : String} {body : Task σ α}
    {r : Except Failure α} (hg : Goes (c.transaction name body) s t r s') :
    Uncommitted t ∨ ∃ s₀ v o s₁ w o', Goes body s₀ v o s₁ ∧ Goes rollback s₁ w o' s' ∧
      (r = o'.bind fun _ => o) ∧ (Uncommitted v → Uncommitted t) := by
  obtain ⟨t₀, s₀, he, ⟨_, rfl, _⟩ | ⟨peer, u, rfl, h⟩⟩ := goes_transaction hg
  · exact .inl (he.uncommitted.append (.cons rfl .nil))
  · have hu (h : Uncommitted u) : Uncommitted
        (t₀ ++ ⟨.connect (c.databaseOr name), .ok peer⟩ :: (u ++ [⟨.disconnect, ()⟩])) :=
      he.uncommitted.append (.cons rfl (h.append (.cons rfl .nil)))
    rcases h with ⟨_, rfl, _⟩ | ⟨_, rfl, _⟩ | ⟨v, w, o, o', s₁, rfl, hv, hw, hr⟩
    · exact .inl (hu .nil)
    · exact .inl (hu (.cons rfl .nil))
    · refine .inr ⟨_, v, o, s₁, w, o', hv, hw, hr, fun h => ?_⟩
      exact hu (.cons rfl (h.append (rollback_uncommitted hw)))

/-- A transaction that fails is not committed. -/
theorem committed_failed {c : Client} {name : String} {body : Task σ Unit} (hb : Block a body)
    {f : Failure} (hg : Goes (c.committed name body) s t (.error f) s') : Uncommitted t := by
  rcases transaction_uncommitted hg with hu | ⟨s₀, v, o, s₁, w, o', hv, hw, hr, hu⟩
  · exact hu
  · refine hu ?_
    rcases goes_bind.mp hv with ⟨v₁, v₂, _, s₂, rfl, h₁, h₂⟩ | ⟨_, h₁, _⟩
    · obtain ⟨rfl, b, rfl, hc⟩ := goes_commit.mp h₂
      refine (hb.uncommitted h₁).append ?_
      cases b with
      | error e => exact .cons rfl .nil
      | ok _ =>
        -- nothing is left to roll back, so the transaction has not failed
        cases hc
        rcases goes_rollback.mp hw with ⟨_, _, rfl, _⟩ | ⟨ht, _⟩
        · cases hr
        · cases ht
    · exact hb.uncommitted h₁

theorem Course.never_commits {mode : LockMode} {held : Bool} {n : Nat} {x : Task σ α}
    (h : Course mode a held n x) (hn : n = 0) : Throughout (fun y => y.isCommitted = false) x := by
  induction h with
  | settled r => exact .settled r
  | bind _ _ ihx ihf => exact .bind (ihx (by omega)) fun v => ihf v (by omega)
  | mono _ _ ih => exact ih (by omega)
  | work => exact .work
  | changeWork f => exact .changeWork f
  | attempt _ ih => exact Throughout.stepwise.attempt (ih hn)
  | version c => exact fun _ _ _ _ => version_uncommitted
  | look c name hb =>
    exact Throughout.stepwise.transaction (fun _ => Exchange.isCommitted_of_isConnecting)
      (fun _ hm _ => Exchange.isCommitted_mark hm) c name fun _ _ _ _ => hb.uncommitted
  | committed _ _ _ _ => cases hn
  | locked _ ih => exact Throughout.stepwise.locked (fun _ => rfl) (fun _ => rfl) (ih hn)

/-- A task that commits at most no transaction commits none. -/
theorem Course.uncommitted {mode : LockMode} {held : Bool} {n : Nat} {x : Task σ α}
    (h : Course mode a held n x) (hn : n = 0) {r : Except Failure α} (hg : Goes x s t r s') :
    Uncommitted t :=
  h.never_commits hn _ _ _ _ hg

theorem require_uncommitted {c : Client} {f : Feature} {resource : String}
    {r : Except Failure Unit} (hg : Goes (c.require f resource : Task σ Unit) s t r s') :
    Uncommitted t :=
  Throughout.stepwise.require (fun _ => Exchange.isCommitted_of_isConnecting) c f resource _ _ _ _ hg

/-! ## Tasks that do not write -/

/-- However it goes, the task leaves what it works on as it is. -/
def Spares (x : Task σ α) : Prop :=
  ∀ (s : Standing σ) (t : List Exchange) (r : Except Failure α) (s' : Standing σ),
    Goes x s t r s' → s'.work = s.work

namespace Spares

theorem stepwise : Stepwise (fun _ => True) fun {α} (x : Task σ α) => Spares x where
  settled _ := fun _ _ _ _ hg => congrArg Standing.work (goes_settled.mp hg).2.2
  bindOf hx hf := by
    intro s t r s' hg
    rcases goes_bind.mp hg with ⟨t₁, t₂, v, s₁, _, h₁, h₂⟩ | ⟨f, h₁, _⟩
    · exact (hf v ⟨_, _, _, h₁⟩ _ _ _ _ h₂).trans (hx _ _ _ _ h₁)
    · exact hx _ _ _ _ h₁
  attempt hx := by
    intro s t r s' hg
    obtain ⟨o, _, h⟩ := goes_attempt.mp hg
    exact hx _ _ _ _ h
  ask _ := by
    intro s t r s' hg
    obtain ⟨a, _, _, rfl⟩ := goes_ask.mp hg
    rfl
  session := fun _ _ _ _ hg => congrArg Standing.work (goes_session.mp hg).2.2
  changeSession _ := fun _ _ _ _ hg => by rw [(goes_changeSession.mp hg).2.2]

theorem settled (r : Except Failure α) : Spares (settled r : Task σ α) := stepwise.settled r

theorem pure (v : α) : Spares (pure v : Task σ α) := settled _

theorem ofExcept (x : Except Error α) : Spares (ofExcept x : Task σ α) := stepwise.ofExcept x

theorem bind {x : Task σ α} {f : α → Task σ β} (hx : Spares x) (hf : ∀ v, Spares (f v)) :
    Spares (x >>= f) :=
  stepwise.bind hx hf

theorem work : Spares (work : Task σ σ) :=
  fun _ _ _ _ hg => congrArg Standing.work (goes_work.mp hg).2.2

theorem require (c : Client) (f : Feature) (resource : String) :
    Spares (c.require f resource : Task σ Unit) :=
  stepwise.require (fun _ _ => trivial) c f resource

theorem unlessMissing {x : Task σ Unit} (hx : Spares x) : Spares (unlessMissing x) :=
  stepwise.unlessMissing hx

theorem locked {x : Task σ α} {mode : LockMode} (hx : Spares x) : Spares (locked mode x) :=
  stepwise.locked trivial trivial hx

theorem block {x : Task σ α} (ha : ¬a.records) (hx : Block a x) : Spares x :=
  fun _ _ _ _ hg => hx.work_eq ha hg

theorem transaction {c : Client} {name : String} {body : Task σ α} (hb : Spares body) :
    Spares (c.transaction name body) :=
  stepwise.transaction (fun _ _ => trivial) (fun _ _ => trivial) c name hb

/-- A transaction that only asks. -/
theorem asks {c : Client} {name : String} {body : Task σ α} (hb : Block .asking body) :
    Spares (c.transaction name body) :=
  .transaction (.block id hb)

theorem committed {c : Client} {name : String} {body : Task σ Unit} (ha : ¬a.records)
    (hb : Block a body) : Spares (c.committed name body) :=
  stepwise.committed (fun _ _ => trivial) (fun _ _ => trivial) trivial c name (.block ha hb)

end Spares

/-! ## Tasks that write when nothing can fail any more -/

/-- The task cannot fail. -/
def Succeeds (x : Task σ α) : Prop :=
  ∀ (s : Standing σ) (t : List Exchange) (r : Except Failure α) (s' : Standing σ),
    Goes x s t r s' → ∃ v, r = .ok v

theorem Succeeds.pure (v : α) : Succeeds (pure v : Task σ α) :=
  fun _ _ _ _ hg => ⟨v, (goes_pure.mp hg).2.1⟩

theorem Succeeds.changeWork (f : σ → σ) : Succeeds (changeWork f : Task σ Unit) :=
  fun _ _ _ _ hg => ⟨(), (goes_changeWork.mp hg).2.1⟩

/-- Where the task succeeds, it has committed. -/
def Commits (x : Task σ α) : Prop :=
  ∀ (s : Standing σ) (t : List Exchange) (v : α) (s' : Standing σ),
    Goes x s t (.ok v) s' → ¬Uncommitted t

theorem Commits.committed (c : Client) (name : String) (body : Task σ Unit) :
    Commits (c.committed name body) := by
  have hb : Commits (body >>= fun _ => Task.commit) := by
    intro s t v s' hg hu
    rcases goes_bind.mp hg with ⟨t₁, t₂, w, s₁, rfl, _, h₂⟩ | ⟨f, _, hr⟩
    · obtain ⟨_, b, rfl, hb⟩ := goes_commit.mp h₂
      cases b with
      | ok _ =>
        have h : true = false := hu.right _ List.mem_cons_self
        cases h
      | error e => cases hb
    · cases hr
  intro s t v s' hg hu
  obtain ⟨t₀, s₀, peer, v', w, s₁, _, hv, _, rfl⟩ := goes_transaction_succeeds hg
  exact hb _ _ _ _ hv hu.right.tail.left.tail.left

/-- Where the task fails without a commit, it leaves what it works on as it is. -/
def Careful (x : Task σ α) : Prop :=
  ∀ (s : Standing σ) (t : List Exchange) (f : Failure) (s' : Standing σ),
    Goes x s t (.error f) s' → Uncommitted t → s'.work = s.work

namespace Careful

theorem spares {x : Task σ α} (hx : Spares x) : Careful x := fun _ _ _ _ hg _ => hx _ _ _ _ hg

theorem succeeds {x : Task σ α} (hx : Succeeds x) : Careful x := by
  intro s t f s' hg _
  obtain ⟨v, hv⟩ := hx _ _ _ _ hg
  cases hv

/-- What comes first does not write. -/
theorem after {x : Task σ α} {f : α → Task σ β} (hx : Spares x) (hf : ∀ v, Careful (f v)) :
    Careful (x >>= f) := by
  intro s t e s' hg hu
  rcases goes_bind.mp hg with ⟨t₁, t₂, v, s₁, rfl, h₁, h₂⟩ | ⟨_, h₁, _⟩
  · exact (hf v _ _ _ _ h₂ hu.right).trans (hx _ _ _ _ h₁)
  · exact hx _ _ _ _ h₁

/-- What comes last is done only after a commit. -/
theorem committed {c : Client} {name : String} {body : Task σ Unit} {f : Unit → Task σ β}
    (ha : ¬a.records) (hb : Block a body) : Careful (c.committed name body >>= f) := by
  intro s t e s' hg hu
  rcases goes_bind.mp hg with ⟨t₁, t₂, v, s₁, rfl, h₁, _⟩ | ⟨_, h₁, _⟩
  · exact absurd hu.left (Commits.committed c name body _ _ _ _ h₁)
  · exact Spares.committed ha hb _ _ _ _ h₁

/-- What comes last cannot fail. -/
theorem before {x : Task σ α} {f : α → Task σ β} (hx : Careful x) (hf : ∀ v, Succeeds (f v)) :
    Careful (x >>= f) := by
  intro s t e s' hg hu
  rcases goes_bind.mp hg with ⟨t₁, t₂, v, s₁, rfl, _, h₂⟩ | ⟨_, h₁, _⟩
  · obtain ⟨w, hw⟩ := hf v _ _ _ _ h₂
    cases hw
  · exact hx _ _ _ _ h₁ hu

theorem whenThen {p : Prop} [Decidable p] {x : Task σ Unit} {f : Unit → Task σ α}
    (hx : Spares x) (hf : ∀ v, Careful (f v)) : Careful (if p then x >>= f else f ()) := by
  split
  · exact .after hx hf
  · exact hf ()

theorem locked {x : Task σ α} {mode : LockMode} (hx : Careful x) : Careful (locked mode x) := by
  intro s t f s' hg hu
  obtain ⟨u, rfl, h⟩ := goes_locked.mp hg
  exact hx _ _ _ _ h hu.tail.left

end Careful

end Task

end DeclaredAccess
