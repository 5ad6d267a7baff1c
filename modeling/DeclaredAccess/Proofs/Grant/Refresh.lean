import DeclaredAccess.Proofs.Operation.Course
import DeclaredAccess.Proofs.Session.Careful

/-! How a grant is compared with the catalog. The role, the database and the schema are looked for
first; where they all exist, the resource gets the grant's identifier if it has none, and only then
is the catalog asked what the role holds. -/

namespace DeclaredAccess.Grant

open DeclaredAccess.Task (Spares Goes goes_bind goes_pure goes_changeWork goes_changeWork_bind
  goes_ofExcept)

variable {σ α : Type} {c : Client} {g : Grant} {t : List Exchange}

theorem spares_isPresent : Spares (g.isPresent c : Task σ Bool) := by
  refine .bind (.asks (block_findsRole g)) fun found => ?_
  split
  · exact .pure _
  · split
    · exact .pure _
    · exact .asks (block_findsSchema g)

theorem isPresent_uncommitted {s s' : Standing σ} {r : Except Failure Bool}
    (hg : Goes (g.isPresent c : Task σ Bool) s t r s') : Uncommitted t := by
  have h : Task.Course .read .asking true 0 (g.isPresent c : Task σ Bool) := course_isPresent c g
  exact h.uncommitted rfl hg

theorem refresh_uncommitted {s s' : Standing Resource} {r : Except Failure Unit}
    (hg : Goes (g.refresh c) s t r s') : Uncommitted t := by
  have h : Task.Course .read .asking true 0 (g.refresh c) := course_refresh c g
  exact h.uncommitted rfl hg

/-- The resource as it is while the catalog is asked what the role holds. -/
def identified (g : Grant) (r : Resource) : Resource := if r.id.isEmpty then r.setId g.id else r

/-- A refresh fails before it knows what exists, or it finds that something does not; otherwise it
asks what the role holds, and fails at that or takes it over. -/
theorem goes_refresh {s s' : Standing Resource} {r : Except Failure Unit}
    (hg : Goes (g.refresh c) s t r s') :
    (∃ f, r = .error f ∧ s'.work = s.work ∧ Goes (g.isPresent c) s t (.error f) s') ∨
    (r = .ok () ∧ s'.work = s.work.setId "" ∧ ∃ s₁, Goes (g.isPresent c) s t (.ok false) s₁) ∨
    ∃ u v s₁, t = u ++ v ∧ Goes (g.isPresent c) s u (.ok true) s₁ ∧
      ((∃ f, r = .error f ∧ s'.work = g.identified s.work) ∨
        ∃ (found : Holdings) (s₂ s₃ : Standing Resource), r = .ok () ∧
          s'.work = g.settle found (g.identified s.work) ∧
            Goes (c.transaction g.database (Catalog.objectPrivileges g.role g.target)) s₂ v
              (.ok found) s₃) := by
  rcases goes_bind.mp hg with ⟨u, v, found, s₁, rfl, h₁, h₂⟩ | ⟨e, h₁, he⟩
  · have hw : s₁.work = s.work := spares_isPresent _ _ _ _ h₁
    cases found with
    | false =>
      simp only [Bool.false_eq_true, if_false] at h₂
      obtain ⟨rfl, hr, rfl⟩ := goes_changeWork.mp h₂
      refine .inr (.inl ⟨hr, congrArg (Resource.setId · "") hw, s₁, ?_⟩)
      rw [List.append_nil]
      exact h₁
    | true =>
      simp only [if_true] at h₂
      rw [goes_changeWork_bind, hw] at h₂
      refine .inr (.inr ⟨u, v, s₁, rfl, h₁, ?_⟩)
      rcases goes_bind.mp h₂ with ⟨v₁, v₂, found, s₂, rfl, h₃, h₄⟩ | ⟨e, h₃, hr⟩
      · have hq : s₂.work = g.identified s.work :=
          Spares.asks (.objectPrivileges _ _) _ _ _ _ h₃
        have ho : Spares (discard (Task.ofExcept (Value.inOrder found.names)) : Task Resource _) :=
          .bind (.ofExcept _) fun _ => .pure _
        rcases goes_bind.mp h₄ with ⟨v₃, v₄, _, s₃, rfl, h₅, h₆⟩ | ⟨e, h₅, hr⟩
        · obtain ⟨rfl, hr, rfl⟩ := goes_changeWork.mp h₆
          have hv : v₃ = [] := by
            rcases goes_bind.mp h₅ with ⟨w₁, w₂, _, _, rfl, h₇, h₈⟩ | ⟨_, _, he⟩
            · rw [(goes_ofExcept.mp h₇).1, (goes_pure.mp h₈).1]
              rfl
            · cases he
          subst hv
          refine .inr ⟨found, _, s₂, hr, ?_, by rw [List.nil_append, List.append_nil]; exact h₃⟩
          show g.settle found s₃.work = _
          rw [ho _ _ _ _ h₅, hq]
        · exact .inl ⟨e, hr, (ho _ _ _ _ h₅).trans hq⟩
      · exact .inl ⟨e, hr, Spares.asks (.objectPrivileges _ _) _ _ _ _ h₃⟩
  · exact .inl ⟨e, he, spares_isPresent _ _ _ _ h₁, h₁⟩

end DeclaredAccess.Grant
