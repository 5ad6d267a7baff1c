import DeclaredAccess.Proofs.Grant.Enclosed
import DeclaredAccess.Proofs.Operation.Failure
import DeclaredAccess.Proofs.Operation.Nesting

/-! What became of a schema or an extension that was removed. A removal returns where its transaction
was committed, and then what was declared is dropped. It also returns where the transaction failed
because something is missing. Where that was said of the drop, nothing was left to drop; but it may
also have been said of what another statement names, such as the owner whose membership is looked
for. Then the schema is still there and its identifier is cleared nevertheless. -/

namespace DeclaredAccess

open DeclaredAccess.Task (Block Encloses Goes Heeds Learns Spares goes_bind_ok goes_change goes_commit
  goes_forgetting goes_ofExcept goes_ofExcept_bind_ok goes_transaction_succeeds goes_work_bind)
open Allowance (not_records_confined)

variable {σ : Type} {c : Client} {d : Sql.Change} {t u v : List Exchange}

/-- The statement by which an operation drops what the resource declares. -/
inductive Operation.Drops (c : Client) (r : Resource) : Operation → Sql.Change → Prop
  | schema {s : Schema} (h : Schema.ofResource r c.defaultDatabase = .ok s) :
    Drops c r deleteSchema (.dropSchema s.name s.dropCascade)
  | extension {e : Extension} (h : Extension.ofResource r c.defaultDatabase = .ok e) :
    Drops c r deleteExtension (.dropExtension e.name)

/-- The drop was sent, and either a commit after it succeeded or it was answered that there is
nothing to drop. -/
def Dropped (d : Sql.Change) (t : List Exchange) : Prop :=
  ∃ u a v, t = u ++ ⟨.execute (.change d), a⟩ :: v ∧
    ((∃ e : DriverError, a = .error e ∧ e.isMissing = true) ∨ ∃ y ∈ v, y.isCommitted = true)

/-- Something was said to be missing, but not of what was to be dropped. -/
def Misled (d : Sql.Change) (t : List Exchange) : Prop :=
  ¬FindsAll t ∧ ∀ e : DriverError, ⟨.execute (.change d), .error e⟩ ∈ t → e.isMissing = false

/-- Where everything is there and the drop is committed, nothing misleads. -/
theorem dropped_iff_of_committed {a : Except DriverError (List Row)} (hf : FindsAll t)
    (ht : t = u ++ ⟨.mark .commit, .ok ()⟩ :: v) (ha : ⟨.execute (.change d), a⟩ ∈ u) :
    Dropped d t ↔ ¬Misled d t := by
  refine iff_of_true ?_ fun h => h.1 hf
  obtain ⟨u₁, u₂, rfl⟩ := List.append_of_mem ha
  exact ⟨u₁, a, u₂ ++ ⟨.mark .commit, .ok ()⟩ :: v, by simp [ht],
    .inr ⟨_, List.mem_append_right _ List.mem_cons_self, rfl⟩⟩

/-- Without a commit, only the answer to the drop can tell that there is nothing to drop. -/
theorem dropped_iff_of_uncommitted (hf : ¬FindsAll t) (hu : Uncommitted t) :
    Dropped d t ↔ ¬Misled d t := by
  constructor
  · intro h hm
    obtain ⟨u, a, v, rfl, ⟨e, rfl, he⟩ | ⟨y, hy, hc⟩⟩ := h
    · cases he.symm.trans (hm.2 e (List.mem_append_right _ List.mem_cons_self))
    · cases hc.symm.trans (hu.right.tail y hy)
  · intro h
    have told : ∃ e : DriverError, ⟨.execute (.change d), .error e⟩ ∈ t ∧ e.isMissing = true := by
      refine Classical.byContradiction fun hn => h ⟨hf, fun e he => ?_⟩
      exact Bool.eq_false_iff.mpr fun hm => hn ⟨e, he, hm⟩
    obtain ⟨e, he, hm⟩ := told
    obtain ⟨u, v, rfl⟩ := List.append_of_mem he
    exact ⟨u, _, v, rfl, .inl ⟨e, rfl, hm⟩⟩

namespace Task

variable {s s' : Standing σ}

/-- What is done before the commit of a transaction that succeeds. -/
theorem goes_committed_succeeds {name : String} {body : Task σ Unit}
    (hg : Goes (c.committed name body) s t (.ok ()) s') : ∃ s₀ w s₁ u v,
      Goes body s₀ w (.ok ()) s₁ ∧ w ⊆ u ∧ t = u ++ ⟨.mark .commit, .ok ()⟩ :: v := by
  obtain ⟨t₀, s₀, peer, x, w, s₁, _, hx, _, rfl⟩ := goes_transaction_succeeds hg
  obtain ⟨x₁, x₂, _, s₂, rfl, h₁, h₂⟩ := goes_bind_ok.mp hx
  obtain ⟨_, b, rfl, hb⟩ := goes_commit.mp h₂
  cases b with
  | error e => cases hb
  | ok _ =>
    refine ⟨_, x₁, _, t₀ ++ ⟨.connect (c.databaseOr name), .ok peer⟩ :: ⟨.mark .begin, .ok ()⟩ ::
      x₁, w ++ [⟨.disconnect, ()⟩], h₁, fun y hy => by simp [hy], by simp⟩

/-- What is removed by a block around a drop is dropped, unless the block is misled; then nothing is
committed. -/
theorem dropped_iff {database intent : String} {body : Task Resource Unit}
    {s s' : Standing Resource} {t : List Exchange} (hd : d.isVersioned = false)
    (hb : Block .confined body) (he : Encloses body (Catalog.change d intent)) (hg : Goes (do
      locked .write (unlessMissing (c.committed database body))
      changeWork (·.setId "")) s t (.ok ()) s') :
    s'.work = s.work.setId "" ∧ ∀ t₀, FindsAll t₀ → Uncommitted t₀ →
      (Dropped d (t₀ ++ t) ↔ ¬Misled d (t₀ ++ t)) ∧ (Misled d (t₀ ++ t) → Uncommitted (t₀ ++ t)) := by
  obtain ⟨w, o, s₁, rfl, hc, hend⟩ := goes_forgetting hg
  obtain ⟨_, hw, ho⟩ := hend.resolve_right fun ⟨_, _, he, _⟩ => by cases he
  have hwork : s₁.work = s.work := Spares.committed not_records_confined hb _ _ _ _ hc
  refine ⟨by rw [hw, hwork], fun t₀ hf hu => ?_⟩
  rcases ho with rfl | ⟨f, rfl, hm⟩
  · have hall : FindsAll (t₀ ++ ⟨.acquire .write, ()⟩ :: (w ++ [⟨.release .write, ()⟩])) :=
      hf.append (.cons rfl ((Heeds.committed (.block hb) _ _ _ _ hc).append (.cons rfl .nil)))
    obtain ⟨s₀, x, s₂, u, v, hx, hsub, rfl⟩ := goes_committed_succeeds hc
    obtain ⟨_, _, _, _, hy, hs⟩ := he.succeeds _ _ _ _ hx
    obtain ⟨_, a, rfl, _⟩ := (goes_change hd).mp hy
    refine ⟨dropped_iff_of_committed (a := a) (u := t₀ ++ ⟨.acquire .write, ()⟩ :: u)
      (v := v ++ [⟨.release .write, ()⟩]) hall (by simp) ?_, fun h => absurd hall h.1⟩
    exact List.mem_append_right _ (List.mem_cons_of_mem _ (hsub (hs List.mem_cons_self)))
  · have hnot : ¬FindsAll w := Learns.committed (.block hb) _ _ _ _ hc hm
    have hnone := Uncommitted.locked .write hu (committed_failed hb hc)
    exact ⟨dropped_iff_of_uncommitted (fun h => hnot h.right.tail.left) hnone, fun _ => hnone⟩

/-- A drop by itself is not misled: only the drop can be answered that something is missing. -/
theorem not_misled {database intent : String} {s s' : Standing Resource} {t : List Exchange}
    (hd : d.isVersioned = false) (hg : Goes (do
      locked .write (unlessMissing (c.committed database (Catalog.change d intent)))
      changeWork (·.setId "")) s t (.ok ()) s') {t₀ : List Exchange} (hf : FindsAll t₀) :
    ¬Misled d (t₀ ++ t) := by
  rintro ⟨hall, hnone⟩
  obtain ⟨w, o, s₁, rfl, hc, ⟨_, _, rfl | ⟨f, rfl, hm⟩⟩ | ⟨_, _, he, _⟩⟩ := goes_forgetting hg
  · have found : Heeds (Catalog.change d intent : Task Resource Unit) :=
      Heeds.closed.change (.execute _ _)
    exact hall (hf.append (.cons rfl ((found.committed _ _ _ _ hc).append (.cons rfl .nil))))
  · obtain ⟨_, _, _, v, _, _, _, h, rfl⟩ := goes_committed_missing hm hc
    obtain ⟨_, a, rfl, ha⟩ := (goes_change hd).mp h
    cases a with
    | ok rows => cases ha
    | error e =>
      cases ha
      cases (DriverError.isMissing_of_isNotFound hm).symm.trans (hnone e (by simp))
  · cases he

end Task

theorem Extension.declared_ok {e : Extension} {s s' : Standing Resource}
    (h : Goes (Extension.declared c) s t (.ok e) s') :
    FindsAll t ∧ Uncommitted t ∧ s'.work = s.work ∧
      Extension.ofResource s.work c.defaultDatabase = .ok e := by
  obtain ⟨u, v, _, s₁, rfl, h₁, h₂⟩ := goes_bind_ok.mp h
  have hs : s₁.work = s.work := Spares.require c _ _ _ _ _ _ h₁
  have declared : Goes (Task.ofExcept (Extension.ofResource s₁.work c.defaultDatabase))
    s₁ v (.ok e) s' := h₂
  obtain ⟨rfl, rfl, he⟩ := goes_ofExcept.mp declared
  rw [List.append_nil, ← hs]
  refine ⟨Heeds.require c _ _ _ _ _ _ h₁, Task.require_uncommitted h₁, rfl, ?_⟩
  cases hx : Extension.ofResource s'.work c.defaultDatabase with
  | ok x => rw [hx] at he; cases he; rfl
  | error f => rw [hx] at he; cases he

namespace Operation

variable {s s' : Standing Resource} {w : Value}

theorem deleteSchema_drops (h : Goes (deleteSchema.run c) s t (.ok w) s') :
    s'.work = s.work.setId "" ∧ ∃ d, deleteSchema.Drops c s.work d ∧ (Dropped d t ↔ ¬Misled d t) ∧
      (Misled d t → Uncommitted t) := by
  obtain ⟨x, declared, hx⟩ := goes_ofExcept_bind_ok.mp (goes_work_bind.mp (goes_quiet_ok h))
  obtain ⟨hw, hd⟩ := Task.dropped_iff rfl (Schema.block_removal x c)
    (.after (.actorRole c) fun _ => .elevated _ _ _) hx
  exact ⟨hw, _, .schema declared, hd [] .nil .nil⟩

theorem deleteExtension_drops (h : Goes (deleteExtension.run c) s t (.ok w) s') :
    s'.work = s.work.setId "" ∧ ∃ d, deleteExtension.Drops c s.work d ∧ Dropped d t ∧
      ¬Misled d t := by
  obtain ⟨t₁, t₂, e, s₁, rfl, h₁, h₂⟩ := goes_bind_ok.mp (goes_quiet_ok h)
  obtain ⟨hf, hu, hs, he⟩ := Extension.declared_ok h₁
  obtain ⟨hw, hd⟩ := Task.dropped_iff rfl (.send rfl _) (.refl _) h₂
  have hn := Task.not_misled rfl h₂ hf
  exact ⟨by rw [hw, hs], _, .extension he, (hd t₁ hf hu).1.mpr hn, hn⟩

/-- A removal that returns has cleared the identifier. What was declared is dropped unless a statement
other than the drop was answered that something is missing; then nothing was committed, and what was
to be removed is a schema. -/
theorem removal_drops_iff {op : Operation} (hop : op = deleteSchema ∨ op = deleteExtension)
    (h : Goes (op.run c) s t (.ok w) s') :
    s'.work = s.work.setId "" ∧ ∃ d, op.Drops c s.work d ∧ (Dropped d t ↔ ¬Misled d t) ∧
      (Misled d t → op = deleteSchema ∧ Uncommitted t) := by
  rcases hop with rfl | rfl
  · obtain ⟨hw, d, hd, hiff, hu⟩ := deleteSchema_drops h
    exact ⟨hw, d, hd, hiff, fun hm => ⟨rfl, hu hm⟩⟩
  · obtain ⟨hw, d, hd, hdropped, hn⟩ := deleteExtension_drops h
    exact ⟨hw, d, hd, iff_of_true hdropped hn, fun hm => absurd hm hn⟩

/-- The server's word that the owner of a schema is gone. -/
def ownerGone : DriverError :=
  ⟨some { message := "role \"owner\" does not exist", sqlstate := some "42704" }⟩

/-- A server without the owner of `ownedSchema`. -/
def ownerlessAnswer : (q : Request) → q.Answer
  | .execute (.query (.hasRole ..)) => .error ownerGone
  | q => q.granted

/-- What is asked and answered when the schema is removed. -/
def ownerlessRemoval : List Exchange :=
  [⟨.acquire .write, ()⟩, ⟨.openEngine "app" (some ⟨4, 0, 180, "sync-grants"⟩), ()⟩,
    ⟨.connect "app", .ok ⟨"postgresql", "psycopg", some [16, 2]⟩⟩, ⟨.mark .begin, .ok ()⟩,
    ⟨.execute (.query (.hasRole (.text "admin") (.text "owner"))), .error ownerGone⟩,
    ⟨.mark .rollback, .ok ()⟩, ⟨.disconnect, ()⟩, ⟨.release .write, ()⟩]

theorem goes_ownerlessRemoval : Goes (deleteSchema.run .admin) ownedSchema ownerlessRemoval
    (.ok .null) { session := { engines := [("app", 0)], engineCount := 1 }
                  work := ownedSchema.work.setId "" } :=
  Task.goes_exchanges ownerlessAnswer _ _

theorem not_dropped_ownerless (d : Sql.Change) : ¬Dropped d ownerlessRemoval := by
  intro h
  obtain ⟨u, a, v, he, _⟩ := h
  have hd : .execute (.change d) ∈ ownerlessRemoval.map Exchange.request := by simp [he]
  simp [ownerlessRemoval] at hd

theorem removal_drops_iff_ownerless : Uncommitted ownerlessRemoval ∧
    ∃ d, deleteSchema.Drops .admin ownedSchema.work d ∧ Misled d ownerlessRemoval := by
  obtain ⟨_, d, hd, hiff, hu⟩ := removal_drops_iff (.inl rfl) goes_ownerlessRemoval
  have misled : Misled d ownerlessRemoval :=
    Classical.not_not.mp fun hn => not_dropped_ownerless d (hiff.mpr hn)
  exact ⟨(hu misled).2, d, hd, misled⟩

/-- A removal clears the identifier of a schema that it has not dropped, since the owner is gone. -/
theorem ownerless_schema_forgotten : ¬∀ (op : Operation) (c : Client) (s s' : Standing Resource)
    (t : List Exchange) (w : Value), op = deleteSchema ∨ op = deleteExtension →
    Goes (op.run c) s t (.ok w) s' → ∃ d, op.Drops c s.work d ∧ Dropped d t := by
  intro h
  obtain ⟨d, _, hd⟩ := h _ _ _ _ _ _ (.inl rfl) goes_ownerlessRemoval
  exact not_dropped_ownerless d hd

end Operation

end DeclaredAccess
