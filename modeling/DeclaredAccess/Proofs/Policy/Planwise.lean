import DeclaredAccess.Policy.Plan
import DeclaredAccess.Proofs.Policy.Merge
import Mathlib.Data.List.Forall2

/-! How a plan is built. It computes and asks about dropped roles, and its statements come from the
declarations one by one. What is said of a plan together with what it comes to, and is kept by
computing, is said of every plan once it is said of what each declaration comes to. -/

namespace DeclaredAccess

open Sql

variable {m : Type → Type} [Monad m] {α β : Type}

/-- What is said of a plan and of all that it comes to is kept by computing. -/
structure Planwise (P : ∀ {α : Type}, ExceptT Conflict m α → (α → Prop) → Prop) : Prop where
  pure {α : Type} {p : α → Prop} {v : α} (h : p v) : P (pure v) p
  bind {α β : Type} {p : α → Prop} {q : β → Prop} {x : ExceptT Conflict m α}
    {f : α → ExceptT Conflict m β} (hx : P x p) (hf : ∀ v, p v → P (f v) q) : P (x >>= f) q

namespace Planwise

variable {P : ∀ {α : Type}, ExceptT Conflict m α → (α → Prop) → Prop} (h : Planwise P)
  {target : Target} {roleExists : String → m Bool}

include h

/-- A dropped role is asked about, unless it is one that cannot be gone. -/
theorem dropRole {d : Declaration} {said : Bool → Prop} {p : List Change → Prop}
    (hr : P (liftM (roleExists d.role)) said)
    (hl : d.role.isEmpty = true ∨ said true → P (do return (← d.toAcl).revokes target) p)
    (hn : d.role.isEmpty = false → said false → p []) :
    P (PolicyDiff.dropRole target roleExists d) p := by
  unfold PolicyDiff.dropRole
  split
  · exact hl (.inl ‹_›)
  · refine h.bind hr fun there ht => ?_
    cases there with
    | true => exact hl (.inr ht)
    | false => exact h.pure (hn (Bool.eq_false_iff.mpr ‹_›) ht)

variable [LawfulMonad m]

theorem mapM {f : α → ExceptT Conflict m β} {q : α → β → Prop} {l : List α}
    (hf : ∀ v ∈ l, P (f v) (q v)) : P (l.mapM f) (List.Forall₂ q l) := by
  induction l with
  | nil => exact h.pure .nil
  | cons v l ih =>
    rw [List.mapM_cons]
    refine h.bind (hf v List.mem_cons_self) fun w hw => ?_
    refine h.bind (ih fun u hu => hf u (List.mem_cons_of_mem v hu)) fun ws hws => ?_
    exact h.pure (.cons hw hws)

theorem plan {diff : PolicyDiff} {dropped added : String × Declaration → List Change → Prop}
    {lowered raised : String × Declaration × Declaration → List Change → Prop}
    {q : List Change → Prop}
    (hd : ∀ e ∈ diff.dropped, P (PolicyDiff.dropRole target roleExists e.2) (dropped e))
    (hl : ∀ e ∈ diff.updated, P (do return (← e.2.1.toAcl).revokes target) (lowered e))
    (ha : ∀ e ∈ diff.added, P (do Acl.grants target (← e.2.toAcl)) (added e))
    (hr : ∀ e ∈ diff.updated, P (do Acl.grants target (← e.2.2.toAcl)) (raised e))
    (hq : ∀ ds ls as rs, List.Forall₂ dropped diff.dropped.sorted ds →
      List.Forall₂ lowered diff.updated.sorted ls → List.Forall₂ added diff.added.sorted as →
      List.Forall₂ raised diff.updated.sorted rs →
      q (ds.flatten ++ ls.flatten ++ as.flatten ++ rs.flatten)) :
    P (diff.plan target roleExists) q := by
  have sorted {γ : Type} {m : Keyed γ} {e : String × γ} (he : e ∈ m.sorted) : e ∈ m :=
    (Keyed.sorted_perm m).mem_iff.mp he
  unfold PolicyDiff.plan
  refine h.bind (h.mapM fun e he => hd e (sorted he)) fun ds h₁ => ?_
  refine h.bind (h.mapM fun e he => hl e (sorted he)) fun ls h₂ => ?_
  refine h.bind (h.mapM fun e he => ha e (sorted he)) fun as h₃ => ?_
  refine h.bind (h.mapM fun e he => hr e (sorted he)) fun rs h₄ => ?_
  exact h.pure (hq ds ls as rs h₁ h₂ h₃ h₄)

omit h in
theorem forall_mem_flatten {p : β → Prop} {es : List α} {ls : List (List β)}
    (hl : List.Forall₂ (fun _ l => ∀ c ∈ l, p c) es ls) : ∀ c ∈ ls.flatten, p c := by
  induction hl with
  | nil => exact fun _ hc => nomatch hc
  | cons hw _ ih => exact List.forall_mem_append.mpr ⟨hw, ih⟩

/-- What holds of each statement that a declaration comes to holds of each statement of the plan. -/
theorem plan_forall {diff : PolicyDiff} {p : Change → Prop}
    (hd : ∀ e ∈ diff.dropped, P (PolicyDiff.dropRole target roleExists e.2) (∀ c ∈ ·, p c))
    (hl : ∀ e ∈ diff.updated, P (do return (← e.2.1.toAcl).revokes target) (∀ c ∈ ·, p c))
    (ha : ∀ e ∈ diff.added, P (do Acl.grants target (← e.2.toAcl)) (∀ c ∈ ·, p c))
    (hr : ∀ e ∈ diff.updated, P (do Acl.grants target (← e.2.2.toAcl)) (∀ c ∈ ·, p c)) :
    P (diff.plan target roleExists) (∀ c ∈ ·, p c) := by
  refine h.plan hd hl ha hr fun ds ls as rs h₁ h₂ h₃ h₄ => ?_
  simp only [List.forall_mem_append]
  exact ⟨⟨⟨forall_mem_flatten h₁, forall_mem_flatten h₂⟩, forall_mem_flatten h₃⟩,
    forall_mem_flatten h₄⟩

end Planwise

end DeclaredAccess
