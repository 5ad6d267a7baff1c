import DeclaredAccess.Proofs.Session.Runs
import DeclaredAccess.Proofs.Session.Stepwise

/-! What holds of every exchange of a task, however it goes. A statement has one exchange, and
everything that is built from statements has only theirs and those of the brackets around them. -/

namespace DeclaredAccess.Task

variable {σ α β : Type} {p : Exchange → Prop} {a : Allowance}

/-- Every exchange of the task satisfies `p`. -/
def Throughout (p : Exchange → Prop) (x : Task σ α) : Prop :=
  ∀ (s : Standing σ) (t : List Exchange) (r : Except Failure α) (s' : Standing σ),
    Goes x s t r s' → ∀ y ∈ t, p y

namespace Throughout

theorem settled (r : Except Failure α) : Throughout p (settled r : Task σ α) := by
  intro s t o s' hg
  rw [(goes_settled.mp hg).1]
  exact List.forall_mem_nil p

theorem work : Throughout p (work : Task σ σ) := by
  intro s t r s' hg
  rw [(goes_work.mp hg).1]
  exact List.forall_mem_nil p

theorem changeWork (f : σ → σ) : Throughout p (changeWork f : Task σ Unit) := by
  intro s t r s' hg
  rw [(goes_changeWork.mp hg).1]
  exact List.forall_mem_nil p

theorem bindOf {x : Task σ α} {f : α → Task σ β} (hx : Throughout p x)
    (hf : ∀ v, Returns x v → Throughout p (f v)) : Throughout p (x >>= f) := by
  intro s t r s' hg
  rcases goes_bind.mp hg with ⟨t₁, t₂, v, s₁, rfl, h₁, h₂⟩ | ⟨e, h₁, _⟩
  · exact List.forall_mem_append.mpr ⟨hx _ _ _ _ h₁, hf v ⟨_, _, _, h₁⟩ _ _ _ _ h₂⟩
  · exact hx _ _ _ _ h₁

/-- A request is one exchange, and the other steps have none. -/
theorem stepwise : Stepwise (fun q => ∀ b, p ⟨q, b⟩) fun {α} (x : Task σ α) => Throughout p x where
  settled := settled
  bindOf := bindOf
  attempt hx := by
    intro s t r s' hg
    obtain ⟨o, _, h⟩ := goes_attempt.mp hg
    exact hx _ _ _ _ h
  ask hq := by
    intro s t r s' hg
    obtain ⟨b, rfl, _⟩ := goes_ask.mp hg
    exact List.forall_mem_singleton.mpr (hq b)
  session := by
    intro s t r s' hg
    rw [(goes_session.mp hg).1]
    exact List.forall_mem_nil p
  changeSession f := by
    intro s t r s' hg
    rw [(goes_changeSession.mp hg).1]
    exact List.forall_mem_nil p

theorem pure (v : α) : Throughout p (pure v : Task σ α) := settled _

theorem ofExcept (x : Except Error α) : Throughout p (ofExcept x : Task σ α) := stepwise.ofExcept x

theorem ofConflict (x : Except Conflict α) : Throughout p (ofConflict x : Task σ α) :=
  stepwise.closed.ofConflict fun _ _ => trivial

theorem bind {x : Task σ α} {f : α → Task σ β} (hx : Throughout p x)
    (hf : ∀ v, Throughout p (f v)) : Throughout p (x >>= f) :=
  .bindOf hx fun v _ => hf v

theorem ofExceptThen {x : Except Error α} {f : α → Task σ β}
    (hf : ∀ v, x = .ok v → Throughout p (f v)) : Throughout p (Task.ofExcept x >>= f) := by
  intro s t r s' hg
  obtain ⟨rfl, _⟩ | ⟨v, hv, h⟩ := goes_ofExcept_bind hg
  · exact List.forall_mem_nil p
  · exact hf v hv _ _ _ _ h

theorem forM {l : List β} {f : β → Task σ PUnit} (hf : ∀ v ∈ l, Throughout p (f v)) :
    Throughout p (l.forM f) :=
  stepwise.closed.forM hf

theorem change {c : Sql.Change} (h : ∀ b, p ⟨.execute (.change c), b⟩) (intent : String) :
    Throughout p (Catalog.change c intent : Task σ Unit) :=
  stepwise.change h intent

/-- A block that does not ask for the server's version has only statements and markers. -/
theorem block {x : Task σ α} (ha : ¬a.inquires) (he : ∀ q b, p ⟨.execute q, b⟩)
    (hm : ∀ m b, p ⟨.mark m, b⟩) (hx : Block a x) : Throughout p x :=
  stepwise.block (fun m _ => hm m) he (fun h => absurd h ha) (fun _ => changeWork) hx

/-- A block that is no member of other roles has only its questions and its changes. -/
theorem unelevated {x : Task σ α} (he : ¬a.elevates) (hi : ¬a.inquires)
    (hq : ∀ q b, p ⟨.execute (.query q), b⟩) (hc : ∀ c, a.sends c → ∀ b, p ⟨.execute (.change c), b⟩)
    (hx : Block a x) : Throughout p x :=
  Kept.block (P := fun x => Throughout p x) {
    pure := .pure
    fail _ := .settled _
    bindOf := .bindOf
    query q := stepwise.execute (hq q)
    change h := stepwise.execute (hc _ h)
    elevated h := absurd h he
    version h := absurd h hi
    changeWork _ := .changeWork } hx

end Throughout

end DeclaredAccess.Task
