import DeclaredAccess.Proofs.Session.Elevation

/-! Predicates on tasks that are kept when one task goes on after another. Every task is built from
requests in this way, so a predicate that is kept holds of a task if it holds of the requests in it;
how each part of an operation is built is gone through here once for all such predicates. -/

namespace DeclaredAccess.Task

variable {σ α β : Type}

/-- The predicate holds of tasks that only return, or that only fail with an error of the kind
`fails`, and of one task after another where it holds of both. -/
structure Closed (fails : Error → Prop) (P : ∀ {α : Type}, Task σ α → Prop) : Prop where
  pure {α : Type} (v : α) : P (pure v)
  fail {α : Type} {e : Error} (h : fails e) : P (fail e : Task σ α)
  bind {α β : Type} {x : Task σ α} {f : α → Task σ β} (hx : P x) (hf : ∀ v, P (f v)) : P (x >>= f)

namespace Closed

variable {fails : Error → Prop} {P : ∀ {α : Type}, Task σ α → Prop} (h : Closed fails P)

include h

theorem ofExcept {x : Except Error α} (hx : ∀ e, x = .error e → fails e) : P (Task.ofExcept x) := by
  cases x with
  | ok v => exact h.pure v
  | error e => exact h.fail (hx e rfl)

theorem ofConflict {x : Except Conflict α} (hx : ∀ e, x = .error e → fails (.conflict e)) :
    P (Task.ofConflict x) := by
  cases x with
  | ok v => exact h.pure v
  | error e => exact h.fail (hx e rfl)

theorem forM {l : List β} {f : β → Task σ PUnit} (hf : ∀ v ∈ l, P (f v)) : P (l.forM f) := by
  induction l with
  | nil => exact h.pure _
  | cons v l ih =>
    show P (f v >>= fun _ => l.forM f)
    exact h.bind (hf v List.mem_cons_self) fun _ => ih fun w hw => hf w (List.mem_cons_of_mem v hw)

/-- A step that is left out where its condition does not hold. -/
theorem whenThen {p : Prop} [Decidable p] {x : Task σ Unit} {f : Unit → Task σ α} (hx : P x)
    (hf : ∀ v, P (f v)) : P (if p then x >>= f else f ()) := by
  split
  · exact h.bind hx hf
  · exact hf ()

theorem require {c : Client} {f : Feature} {resource : String} (hv : P (c.version : Task σ Version))
    (hu : ∀ v, fails (.unsupported resource v)) : P (c.require f resource : Task σ Unit) := by
  refine h.bind (h.bind hv fun v => h.pure _) fun has => ?_
  split
  · exact h.bind hv fun v => h.fail (hu v)
  · exact h.pure _

/-! ## The catalog -/

theorem change {c : Sql.Change} {intent : String}
    (hc : P (execute (.change c) intent : Task σ (List Row))) :
    P (Catalog.change c intent : Task σ Unit) :=
  h.bind hc fun _ => h.pure _

/-- Whether a membership is needed is found out by two questions. -/
theorem elevationFor {role actor : Value} (hh : P (Catalog.hasRole actor role : Task σ Value))
    (hm : P (Catalog.revocableMembership actor role : Task σ Value))
    (hr : ∀ e, Catalog.name role = .error e → fails e)
    (ha : ∀ e, Catalog.name actor = .error e → fails e) :
    P (Task.elevationFor role actor : Task σ (Option (String × String))) := by
  unfold Task.elevationFor
  split
  · exact h.pure _
  · refine h.bind hh fun has => ?_
    split
    · exact h.pure _
    · refine h.bind hm fun direct => ?_
      split
      · exact h.pure _
      · exact h.bind (h.ofExcept hr) fun _ => h.bind (h.ofExcept ha) fun _ => h.pure _

section

-- an answer that has not the shape of what was asked for
variable (hs : ∀ e, fails (.shape e))

include hs

theorem askOne {q : Sql.Query} {intent : String}
    (hq : P (execute (.query q) intent : Task σ (List Row))) :
    P (Catalog.askOne q intent : Task σ Value) := by
  refine h.bind hq fun rows => h.ofExcept fun e he => ?_
  unfold Catalog.firstCell at he
  split at he
  · cases he
  · cases he
    exact hs _

theorem schema {name : Value}
    (hq : ∀ intent, P (execute (.query (.schema name)) intent : Task σ (List Row))) :
    P (Catalog.schema name : Task σ (Option (Value × List Value))) := by
  refine h.bind (hq _) fun rows => ?_
  split
  · exact h.pure _
  · split
    · exact h.pure _
    · exact h.fail (hs _)
  · exact h.fail (hs _)

theorem actorRole {c : Client}
    (hq : ∀ intent, P (execute (.query .currentUser) intent : Task σ (List Row))) :
    P (c.actorRole : Task σ Value) := by
  unfold Client.actorRole
  split
  · exact h.askOne hs (hq _)
  · exact h.pure _

end

end Closed

end DeclaredAccess.Task
