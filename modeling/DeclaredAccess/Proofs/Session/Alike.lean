import DeclaredAccess.Proofs.Session.Stepwise

/-! Two runs side by side. A task that does not look at what it works on goes the same way whatever
that is; and if it looks, it goes the same way on what is alike to it. So a relation between what two
tasks work on is kept by their steps, and by everything that is built from these. -/

namespace DeclaredAccess

variable {σ α β : Type} {R : σ → σ → Prop}

/-- The client knows the same, and what is worked on is related. -/
structure Standing.Alike (R : σ → σ → Prop) (s u : Standing σ) : Prop where
  session : u.session = s.session
  work : R s.work u.work

namespace Task

/-- Wherever the first task can go, the second one can go too, with the same exchanges and the same
outcome, and what is worked on stays related. -/
def Alike (R : σ → σ → Prop) (x y : Task σ α) : Prop :=
  ∀ (s u : Standing σ) (t : List Exchange) (r : Except Failure α) (s' : Standing σ),
    s.Alike R u → Goes x s t r s' → ∃ u', Goes y u t r u' ∧ s'.Alike R u'

namespace Alike

theorem settled (r : Except Failure α) : Alike R (settled r : Task σ α) (settled r) := by
  intro s u t o s' hs hg
  obtain ⟨rfl, rfl, rfl⟩ := goes_settled.mp hg
  exact ⟨u, goes_settled.mpr ⟨rfl, rfl, rfl⟩, hs⟩

theorem changeWork {f g : σ → σ} (h : ∀ v w, R v w → R (f v) (g w)) :
    Alike R (changeWork f) (changeWork g) := by
  intro s u t r s' hs hg
  obtain ⟨rfl, rfl, rfl⟩ := goes_changeWork.mp hg
  exact ⟨_, goes_changeWork.mpr ⟨rfl, rfl, rfl⟩, hs.session, h _ _ hs.work⟩

/-- What is looked at is related. -/
theorem workThen {f g : σ → Task σ α} (h : ∀ v w, R v w → Alike R (f v) (g w)) :
    Alike R (work >>= f) (work >>= g) :=
  fun s u t r s' hs hg => h _ _ hs.work s u t r s' hs hg

theorem bindOf {x y : Task σ α} {f g : α → Task σ β} (hx : Alike R x y)
    (hf : ∀ v, Returns x v → Alike R (f v) (g v)) : Alike R (x >>= f) (y >>= g) := by
  intro s u t r s' hs hg
  rcases goes_bind.mp hg with ⟨t₁, t₂, v, s₁, rfl, h₁, h₂⟩ | ⟨e, h₁, rfl⟩
  · obtain ⟨u₁, g₁, hs₁⟩ := hx _ _ _ _ _ hs h₁
    obtain ⟨u', g₂, hs'⟩ := hf v ⟨_, _, _, h₁⟩ _ _ _ _ _ hs₁ h₂
    exact ⟨u', goes_bind.mpr (.inl ⟨t₁, t₂, v, u₁, rfl, g₁, g₂⟩), hs'⟩
  · obtain ⟨u', g₁, hs'⟩ := hx _ _ _ _ _ hs h₁
    exact ⟨u', goes_bind.mpr (.inr ⟨e, g₁, rfl⟩), hs'⟩

/-- Only what is worked on may differ, and no step but a look at it depends on that. -/
theorem stepwise : Stepwise (fun _ => True) fun {α} (x : Task σ α) => Alike R x x where
  settled := settled
  bindOf := bindOf
  attempt hx := by
    intro s u t r s' hs hg
    obtain ⟨o, rfl, h⟩ := goes_attempt.mp hg
    obtain ⟨u', hu, hs'⟩ := hx _ _ _ _ _ hs h
    exact ⟨u', goes_attempt.mpr ⟨o, rfl, hu⟩, hs'⟩
  ask _ := by
    intro s u t r s' hs hg
    obtain ⟨a, rfl, rfl, rfl⟩ := goes_ask.mp hg
    exact ⟨u, goes_ask.mpr ⟨a, rfl, rfl, rfl⟩, hs⟩
  session := by
    intro s u t r s' hs hg
    obtain ⟨rfl, rfl, rfl⟩ := goes_session.mp hg
    exact ⟨u, goes_session.mpr ⟨rfl, congrArg Except.ok hs.session.symm, rfl⟩, hs⟩
  changeSession f := by
    intro s u t r s' hs hg
    obtain ⟨rfl, rfl, rfl⟩ := goes_changeSession.mp hg
    exact ⟨_, goes_changeSession.mpr ⟨rfl, rfl, rfl⟩, congrArg f hs.session, hs.work⟩

/-- A block that does not write down what it found goes the same way whatever is worked on. -/
theorem block {a : Allowance} (ha : ¬a.records) {x : Task σ α} (h : Block a x) : Alike R x x :=
  stepwise.block (fun _ _ => trivial) (fun _ => trivial)
    (fun _ => stepwise.version fun _ _ => trivial) (fun hr => absurd hr ha) h

theorem transaction (c : Client) (name : String) {x : Task σ α} (h : Alike R x x) :
    Alike R (c.transaction name x) (c.transaction name x) :=
  stepwise.transaction (fun _ _ => trivial) (fun _ _ => trivial) c name h

theorem committed (c : Client) (name : String) {x : Task σ Unit} (h : Alike R x x) :
    Alike R (c.committed name x) (c.committed name x) :=
  stepwise.committed (fun _ _ => trivial) (fun _ _ => trivial) trivial c name h

theorem locked (mode : LockMode) {x : Task σ α} (h : Alike R x x) :
    Alike R (locked mode x) (locked mode x) :=
  stepwise.locked trivial trivial h

end Alike

end Task

end DeclaredAccess
