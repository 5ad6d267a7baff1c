import DeclaredAccess.Proofs.Grant.History
import DeclaredAccess.Proofs.Operation.Failure
import DeclaredAccess.Proofs.Session.Throughout

/-! How many connections an operation needs at a time. Transactions follow each other, and the server's
version is asked for outside of them, so that one connection is enough. The creation of a schema is
the exception: where it does not know the version, and finds that the schema is not there, it asks
whether the server can create it only if it is not there, and opens a second connection for that
while its transaction is open. -/

namespace DeclaredAccess

open DeclaredAccess.Task (Block Course Goes Throughout goes_attempt goes_bind goes_changeWork
  goes_changeWork_bind goes_commit goes_locked goes_pure goes_rollback goes_savepoint
  goes_settled goes_transaction goes_version goes_work goes_work_bind)

variable {σ α β : Type} {c : Client} {s s' : Standing σ} {t u : List Exchange} {busy : Bool}

namespace Exchange

/-- Whether no connection is opened or closed. -/
def staysConnected : Exchange → Bool
  | ⟨.connect _, _⟩ | ⟨.disconnect, _⟩ => false
  | _ => true

/-- Whether a schema was looked for and not found. -/
def findsNoSchema : Exchange → Bool
  | ⟨.execute (.query (.schemaExists _)), .ok rows⟩ => match Catalog.firstCell rows with
    | .ok v => !v.truthy
    | .error _ => false
  | _ => false

end Exchange

namespace Occupancy

/-- What an exchange makes of whether a connection is open; none where a second one is opened. -/
def next (busy : Bool) : Exchange → Option Bool
  | ⟨.connect _, a⟩ => if busy then none else some a.toBool
  | ⟨.disconnect, _⟩ => some false
  | _ => some busy

def after (busy : Bool) (t : List Exchange) : Option Bool := t.foldlM next busy

@[simp] theorem after_nil : after busy [] = some busy := rfl

@[simp] theorem after_cons (y : Exchange) (t : List Exchange) :
    after busy (y :: t) = (next busy y).bind fun b => after b t := rfl

@[simp] theorem after_append (t u : List Exchange) :
    after busy (t ++ u) = (after busy t).bind fun b => after b u :=
  List.foldlM_append

theorem next_eq {y : Exchange} (h : y.staysConnected = true) : next busy y = some busy := by
  obtain ⟨q, a⟩ := y
  cases q with
  | connect d => cases h
  | disconnect => cases h
  | _ => rfl

theorem after_eq (h : ∀ y ∈ t, y.staysConnected = true) : after busy t = some busy := by
  induction t with
  | nil => rfl
  | cons y t ih =>
    rw [after_cons, next_eq (h y List.mem_cons_self)]
    exact ih fun z hz => h z (List.mem_cons_of_mem y hz)

end Occupancy

/-- A second connection is opened in the exchanges exactly if `asks` holds and a schema is looked for
in vain; otherwise they end with as many connections as they began with. -/
def Doubles (asks busy : Bool) (t : List Exchange) : Prop :=
  Occupancy.after busy t = if asks && t.any Exchange.findsNoSchema then none else some busy

namespace Doubles

variable {asks : Bool}

theorem of_stays (h : ∀ y ∈ t, y.staysConnected = true)
    (hf : asks = true → ∀ y ∈ t, y.findsNoSchema = false) : Doubles asks busy t := by
  unfold Doubles
  rw [Occupancy.after_eq h, if_neg]
  intro hn
  obtain ⟨ha, hany⟩ := Bool.and_eq_true_iff.mp hn
  obtain ⟨y, hy, hfind⟩ := List.any_eq_true.mp hany
  cases hfind.symm.trans (hf ha y hy)

/-- Where no connection is opened or closed, and no schema is looked for in vain. -/
theorem of_still (h : ∀ y ∈ t, y.staysConnected = true ∧ y.findsNoSchema = false) :
    Doubles asks busy t :=
  of_stays (fun y hy => (h y hy).1) fun _ y hy => (h y hy).2

theorem nil : Doubles asks busy [] := of_stays (by simp) (by simp)

theorem append (ht : Doubles asks busy t) (hu : Doubles asks busy u) : Doubles asks busy (t ++ u) := by
  unfold Doubles at ht hu ⊢
  rw [Occupancy.after_append, ht]
  cases asks with
  | false => simpa using hu
  | true =>
    cases hany : t.any Exchange.findsNoSchema with
    | false => simpa [hany] using hu
    | true => simp [hany]

theorem cons {y : Exchange} (hs : y.staysConnected = true) (hf : y.findsNoSchema = false)
    (h : Doubles asks busy t) : Doubles asks busy (y :: t) :=
  append (t := [y]) (of_stays (by simp [hs]) (by simp [hf])) h

theorem refused {d : String} {e : DriverError} : Doubles asks false [⟨.connect d, .error e⟩] := by
  cases asks <;> rfl

/-- Between its connection and the end of it. -/
theorem connected {d : String} {peer : Peer} (h : Doubles asks true t) :
    Doubles asks false (⟨.connect d, .ok peer⟩ :: (t ++ [⟨.disconnect, ()⟩])) := by
  unfold Doubles at h ⊢
  rw [Occupancy.after_cons]
  show (Occupancy.after true (t ++ _)) = _
  rw [Occupancy.after_append, h]
  cases asks with
  | false => simp [Occupancy.next]
  | true =>
    cases hany : t.any Exchange.findsNoSchema <;>
      simp [hany, Occupancy.next, Exchange.findsNoSchema]

end Doubles

theorem EngineSetUp.session {c : Client} {name : String} (h : EngineSetUp c name s t s') :
    s'.session.version = s.session.version := by
  cases h with
  | known _ => rfl
  | new _ => rfl

theorem EngineSetUp.doubles {c : Client} {name : String} {asks : Bool}
    (h : EngineSetUp c name s t s') : Doubles asks busy t := by
  cases h with
  | known _ => exact .nil
  | new _ => exact .cons rfl rfl .nil

namespace Task

variable {asks : Bool}

theorem doubles_version {r : Except Failure Version}
    (hg : Goes (c.version : Task σ Version) s t r s') : Doubles asks false t := by
  rcases goes_version hg with ⟨v, _, rfl, _⟩ | ⟨t₀, s₀, _, hs, ⟨e, rfl, _⟩ | ⟨peer, v, rfl, _⟩⟩
  · exact .nil
  · exact hs.doubles.append .refused
  · exact hs.doubles.append (.connected .nil)

/-- A version that is not known is asked for on a connection of its own. -/
theorem after_version {r : Except Failure Version} (hg : Goes (c.version : Task σ Version) s t r s') :
    Occupancy.after true t = if s.session.version.isNone then none else some true := by
  have setUp {t : List Exchange} {s₀ : Standing σ} (h : EngineSetUp c "" s t s₀) :
      Occupancy.after true t = some true :=
    setUp_foldlM h fun _ _ => rfl
  rcases goes_version hg with ⟨v, he, rfl, _⟩ | ⟨t₀, s₀, hn, hs, ⟨e, rfl, _⟩ | ⟨peer, v, rfl, _⟩⟩
  · simp [he]
  all_goals
    rw [Occupancy.after_append, setUp hs, hn]
    rfl

theorem after_supports {f : Feature} {r : Except Failure Bool}
    (hg : Goes (c.supports f : Task σ Bool) s t r s') :
    Occupancy.after true t = if s.session.version.isNone then none else some true := by
  rcases goes_bind.mp hg with ⟨t₁, t₂, v, s₁, rfl, h₁, h₂⟩ | ⟨e, h₁, _⟩
  · obtain ⟨rfl, _, _⟩ := goes_pure.mp h₂
    rw [List.append_nil]
    exact after_version h₁
  · exact after_version h₁

/-- A transaction is on its connection alone, as far as its body is. -/
theorem doubles_transaction {name : String} {body : Task σ α} {r : Except Failure α}
    (hb : ∀ s₀ v o s₁, s₀.session.version = s.session.version → Goes body s₀ v o s₁ →
      Doubles asks true v)
    (hg : Goes (c.transaction name body) s t r s') : Doubles asks false t := by
  obtain ⟨t₀, s₀, he, ⟨e, rfl, _⟩ | ⟨peer, u, rfl, h⟩⟩ := goes_transaction hg
  · exact he.doubles.append .refused
  · refine he.doubles.append (.connected ?_)
    rcases h with ⟨_, rfl, _⟩ | ⟨_, rfl, _⟩ | ⟨v, w, o, o', s₁, rfl, hv, hw, _⟩
    · exact .nil
    · exact .cons rfl rfl .nil
    · refine .cons rfl rfl ((hb (s₀.within true) _ _ _ he.session hv).append ?_)
      rcases goes_rollback.mp hw with ⟨_, rfl, _⟩ | ⟨_, _, b, rfl, _⟩
      · exact .nil
      · exact .cons rfl rfl .nil

theorem doubles_committed {name : String} {body : Task σ Unit} {r : Except Failure Unit}
    (hb : ∀ s₀ v o s₁, s₀.session.version = s.session.version → Goes body s₀ v o s₁ →
      Doubles asks true v)
    (hg : Goes (c.committed name body) s t r s') : Doubles asks false t := by
  refine doubles_transaction (fun s₀ v o s₁ hs h => ?_) hg
  rcases goes_bind.mp h with ⟨v₁, v₂, _, s₂, rfl, h₁, h₂⟩ | ⟨_, h₁, _⟩
  · obtain ⟨_, b, rfl, _⟩ := goes_commit.mp h₂
    exact (hb _ _ _ _ hs h₁).append (.cons rfl rfl .nil)
  · exact hb _ _ _ _ hs h₁

theorem Block.doubles {a : Allowance} (ha : ¬a.inquires) {x : Task σ α} (hx : Block a x)
    {r : Except Failure α} (hg : Goes x s t r s') : Doubles false busy t := by
  have stays : Throughout (fun y => y.staysConnected = true) x :=
    .block ha (fun _ _ => rfl) (fun _ _ => rfl) hx
  exact .of_stays (stays _ _ _ _ hg) fun h => by cases h

/-- An operation whose blocks do not ask for the version has one connection at a time. -/
theorem Course.doubles {mode : LockMode} {a : Allowance} {held : Bool} {n : Nat} {x : Task σ α}
    (ha : ¬a.inquires) (h : Course mode a held n x) {r : Except Failure α}
    (hg : Goes x s t r s') : Doubles false false t := by
  induction h generalizing s s' t with
  | settled r => rw [(goes_settled.mp hg).1]; exact .nil
  | bind _ _ ihx ihf =>
    rcases goes_bind.mp hg with ⟨t₁, t₂, v, s₁, rfl, h₁, h₂⟩ | ⟨f, h₁, rfl⟩
    · exact (ihx h₁).append (ihf v h₂)
    · exact ihx h₁
  | mono _ _ ih => exact ih hg
  | work => rw [(goes_work.mp hg).1]; exact .nil
  | changeWork f => rw [(goes_changeWork.mp hg).1]; exact .nil
  | attempt _ ih =>
    obtain ⟨o, _, h⟩ := goes_attempt.mp hg
    exact ih h
  | version c => exact doubles_version hg
  | look c name hb => exact doubles_transaction (fun _ _ _ _ _ h => hb.doubles id h) hg
  | committed _ c name hb => exact doubles_committed (fun _ _ _ _ _ h => hb.doubles ha h) hg
  | locked _ ih =>
    obtain ⟨u, rfl, h⟩ := goes_locked.mp hg
    exact .cons rfl rfl ((ih h).append (.cons rfl rfl .nil))

end Task

namespace Schema

/-- Whether the creation of a schema may ask for the version inside its transaction. -/
def asksWithin (x : Schema) (v : Option Version) : Bool := x.ifNotExists && v.isNone

/-- What is asked and sent beside the question whether the schema exists. -/
def Still (y : Exchange) : Prop := y.staysConnected = true ∧ y.findsNoSchema = false

theorem still_change (d : Sql.Change) (intent : String) :
    Throughout Still (Catalog.change d intent : Task σ Unit) :=
  .change (fun _ => ⟨rfl, rfl⟩) intent

/-- The creation of a schema that is not there opens a second connection where the version has to be
asked for. -/
theorem after_creation {x : Schema} {r : Except Failure Unit} (hg : Goes (do
      let ifNotExists ← if x.ifNotExists then c.supports .schemaCreateIfNotExists else pure false
      Catalog.createSchema x.name x.owner ifNotExists) s t r s') :
    Occupancy.after true t = if x.asksWithin s.session.version then none else some true := by
  have created (b : Bool) {s s' : Standing σ} {t : List Exchange} {r : Except Failure Unit}
      (h : Goes (Catalog.createSchema x.name x.owner b) s t r s') :
      Occupancy.after true t = some true :=
    Occupancy.after_eq fun y hy => (still_change _ _ _ _ _ _ h y hy).1
  cases hn : x.ifNotExists with
  | false =>
    simp only [hn, Bool.false_eq_true, if_false] at hg
    simpa [asksWithin, hn] using created false hg
  | true =>
    simp only [hn, if_true] at hg
    rcases goes_bind.mp hg with ⟨t₁, t₂, b, s₁, rfl, h₁, h₂⟩ | ⟨e, h₁, _⟩
    · rw [Occupancy.after_append, Task.after_supports h₁]
      cases hk : s.session.version with
      | none => simp [asksWithin, hn]
      | some k => simpa [asksWithin] using created b h₂
    · simpa [asksWithin, hn] using Task.after_supports h₁

/-- A schema is found or not, or it cannot be told. -/
theorem goes_schemaExists {v : Value} {r : Except Failure Value}
    (hg : Goes (Catalog.schemaExists v) s t r s') : s' = s ∧
      ((∃ e, r = .error e ∧ ∀ y ∈ t, Still y) ∨ ∃ w y, r = .ok w ∧ t = [y] ∧
        y.staysConnected = true ∧ y.findsNoSchema = !w.truthy) := by
  obtain ⟨rfl, ⟨e, rfl, rfl⟩ | ⟨a, rfl, rfl⟩⟩ := Task.goes_execute_ofExcept hg
  · exact ⟨rfl, .inl ⟨e, rfl, by simp⟩⟩
  · refine ⟨rfl, ?_⟩
    cases a with
    | error e => exact .inl ⟨_, rfl, by simp [Still, Exchange.staysConnected, Exchange.findsNoSchema]⟩
    | ok rows =>
      change (_ ∨ ∃ w y, (Catalog.firstCell rows).mapError Failure.of = .ok w ∧ _)
      cases hc : Catalog.firstCell rows with
      | error e =>
        refine .inl ⟨Failure.of e, congrArg (Except.mapError Failure.of) hc, ?_⟩
        simp [Still, Exchange.staysConnected, Exchange.findsNoSchema, hc]
      | ok w => exact .inr ⟨w, _, rfl, rfl, rfl, by simp [Exchange.findsNoSchema, hc]⟩

theorem doubles_establish {x : Schema} {r : Except Failure Unit}
    (hg : Goes (x.establish c) s t r s') :
    Doubles (x.asksWithin s.session.version) true t := by
  rcases goes_bind.mp hg with ⟨t₁, t₂, v, s₁, rfl, h₁, h₂⟩ | ⟨e, h₁, _⟩
  · obtain ⟨rfl, ⟨_, hr, _⟩ | ⟨w, y, hr, rfl, hy, hf⟩⟩ := goes_schemaExists h₁
    · cases hr
    cases hr
    cases hv : v.truthy with
    | true =>
      simp only [hv, if_true] at h₂
      rw [hv] at hf
      refine .cons hy hf (.of_still ?_)
      have owned : Throughout Still (if !x.owner.isEmpty then
          Catalog.setSchemaOwner x.name x.owner else pure () : Task σ Unit) := by
        split
        · exact still_change _ _
        · exact .pure _
      exact owned _ _ _ _ h₂
    | false =>
      simp only [hv, Bool.false_eq_true, if_false] at h₂
      rw [hv] at hf
      show Occupancy.after true (y :: t₂) = _
      rw [Occupancy.after_cons, Occupancy.next_eq hy]
      simpa [hf] using after_creation h₂
  · obtain ⟨_, ⟨_, _, hy⟩ | ⟨_, _, hr, _⟩⟩ := goes_schemaExists h₁
    · exact .of_still hy
    · cases hr

theorem still_grantPolicies (x : Schema) : Throughout Still (x.grantPolicies : Task σ Unit) := by
  refine .bind (.ofConflict _) fun policies => .forM fun e _ => ?_
  refine .bind (.ofConflict _) fun declared => .bind (.ofConflict _) fun granted => ?_
  exact .forM fun d _ => still_change _ _

/-- An elevation opens no connection beside what its block does. -/
theorem doubles_elevated {asks : Bool} {role actor : Value} {block : Task σ α}
    {r : Except Failure α} (hb : ∀ t r s', Goes block s t r s' → Doubles asks true t)
    (hg : Goes (Task.elevated role actor block) s t r s') : Doubles asks true t := by
  have asked : Throughout Still (Task.elevationFor role actor : Task σ _) :=
    Throughout.stepwise.elevationFor (fun _ => ⟨rfl, rfl⟩) fun _ => ⟨rfl, rfl⟩
  cases Task.goes_elevated hg with
  | failed h₀ => exact .of_still (asked _ _ _ _ h₀)
  | needless h₀ h => exact (Doubles.of_still (asked _ _ _ _ h₀)).append (hb _ _ _ h)
  | refused h₀ => exact (Doubles.of_still (asked _ _ _ _ h₀)).append (.cons rfl rfl .nil)
  | held h₀ h =>
    refine (Doubles.of_still (asked _ _ _ _ h₀)).append (.cons rfl rfl ?_)
    refine .append ?_ (.cons rfl rfl .nil)
    rcases goes_savepoint.mp h with ⟨e, rfl, _⟩ | ⟨u, v, b, rfl, hu, _⟩ | ⟨u, f, b, rfl, hu, _⟩
    · exact .cons rfl rfl .nil
    · exact .cons rfl rfl ((hb _ _ _ hu).append (.cons rfl rfl .nil))
    · exact .cons rfl rfl ((hb _ _ _ hu).append (.cons rfl rfl .nil))

theorem doubles_creation {x : Schema} {r : Except Failure Unit} (hg : Goes (do
      Task.elevated x.owner (← c.actorRole) do
        x.establish c
        x.grantPolicies) s t r s') : Doubles (x.asksWithin s.session.version) true t := by
  have actor : Throughout Still (c.actorRole : Task σ Value) :=
    Throughout.stepwise.actorRole (fun _ => ⟨rfl, rfl⟩) c
  rcases goes_bind.mp hg with ⟨t₁, t₂, a, s₁, rfl, h₁, h₂⟩ | ⟨e, h₁, _⟩
  · obtain ⟨rfl, _⟩ := (Block.actorRole c).asks h₁
    refine (Doubles.of_still (actor _ _ _ _ h₁)).append (doubles_elevated (fun u o s₂ h => ?_) h₂)
    rcases goes_bind.mp h with ⟨u₁, u₂, _, s₃, rfl, h₃, h₄⟩ | ⟨e, h₃, _⟩
    · exact (doubles_establish h₃).append (.of_still (still_grantPolicies x _ _ _ _ h₄))
    · exact doubles_establish h₃
  · exact .of_still (actor _ _ _ _ h₁)

theorem doubles_refresh {asks : Bool} {database : String} {name : Value} {s s' : Standing Resource}
    {r : Except Failure Unit} (hg : Goes (refresh c database name) s t r s') :
    Doubles asks false t := by
  have asked : Throughout Still (Catalog.schema name : Task Resource _) :=
    Throughout.stepwise.schema fun _ => ⟨rfl, rfl⟩
  obtain ⟨found, s₁, h, _⟩ := goes_refresh hg
  exact Task.doubles_transaction (fun _ v o _ _ hv => .of_still (asked _ _ _ _ hv)) h

theorem doubles_create {s s' : Standing Resource} {r : Except Failure Unit} {x : Schema}
    (hx : ofResource s.work c.defaultDatabase = .ok x) (hg : Goes (create c) s t r s') :
    Doubles (x.asksWithin s.session.version) false t := by
  rw [create, goes_work_bind, hx] at hg
  obtain ⟨u, rfl, h⟩ := goes_locked.mp hg
  refine .cons rfl rfl (.append ?_ (.cons rfl rfl .nil))
  have made {s' : Standing Resource} {u : List Exchange} {o : Except Failure Unit}
      (h : Goes (c.committed x.database do
        Task.elevated x.owner (← c.actorRole) do
          x.establish c
          x.grantPolicies) s u o s') : Doubles (x.asksWithin s.session.version) false u :=
    Task.doubles_committed (fun _ _ _ _ hv h => hv ▸ doubles_creation h) h
  rcases goes_bind.mp h with ⟨t₁, t₂, _, s₁, rfl, h₁, h₂⟩ | ⟨e, h₁, _⟩
  · exact (made h₁).append (doubles_refresh (goes_changeWork_bind.mp h₂))
  · exact made h₁

end Schema

namespace Operation

/-- The operation asks for the version inside its transaction: it creates a schema that it has not
found, and does not know whether the server can create one only if it is not there. -/
def AsksWithin (op : Operation) (c : Client) (s : Standing Resource) (t : List Exchange) : Prop :=
  op = createSchema ∧ s.session.version = none ∧
    (∃ x, Schema.ofResource s.work c.defaultDatabase = .ok x ∧ x.ifNotExists = true) ∧
      t.any Exchange.findsNoSchema = true

theorem createSchema_lone_iff {s s' : Standing Resource} {r : Except Failure Unit}
    (h : Goes (Schema.create c) s t r s') :
    Occupancy.after false t = some false ↔ ¬createSchema.AsksWithin c s t := by
  cases hx : Schema.ofResource s.work c.defaultDatabase with
  | error e =>
    rw [Schema.create, goes_work_bind, hx] at h
    obtain ⟨rfl, _⟩ : t = [] ∧ _ := goes_settled.mp h
    refine iff_of_true rfl fun ⟨_, _, ⟨x, hx', _⟩, _⟩ => ?_
    cases hx.symm.trans hx'
  | ok x =>
    rw [Schema.doubles_create hx h, ite_eq_right_iff]
    constructor
    · intro hn ⟨_, hv, ⟨x', hx', hi⟩, hf⟩
      cases hx.symm.trans hx'
      cases hn (by simp [Schema.asksWithin, hi, hv, hf])
    · intro hn ha
      simp only [Schema.asksWithin, Bool.and_eq_true, Option.isNone_iff_eq_none] at ha
      exact absurd ⟨rfl, ha.1.2, ⟨x, hx, ha.1.1⟩, ha.2⟩ hn

/-- An operation has one connection at a time, and in the end none, unless it asks for the version
inside its transaction. -/
theorem lone_connection_iff (op : Operation) (c : Client) (s s' : Standing Resource)
    (t : List Exchange) (r : Except Failure Value) (h : Goes (op.run c) s t r s') :
    Occupancy.after false t = some false ↔ ¬op.AsksWithin c s t := by
  by_cases hop : op = createSchema
  · subst hop
    obtain ⟨r, hr, _⟩ := goes_quiet_iff.mp h
    exact createSchema_lone_iff hr
  · have lone : Doubles false false t :=
      (course_confined hop c).doubles op.not_inquires_confinement h
    exact iff_of_true lone fun ha => hop ha.1

/-- A schema that is declared by its name alone. -/
def plainSchema : Standing Resource where
  session := {}
  work := { id := "", values := [("name", .text "s")] }

/-- A server without any schema. -/
def schemalessAnswer : (q : Request) → q.Answer
  | .execute (.query (.schemaExists _)) => .ok [[.bool false]]
  | q => q.granted

/-- The version is asked for on a second connection. -/
theorem after_firstCreation :
    Occupancy.after false ((createSchema.run .admin).exchanges schemalessAnswer plainSchema) =
      none := rfl

theorem lone_connection_iff_first :
    createSchema.AsksWithin .admin plainSchema
      ((createSchema.run .admin).exchanges schemalessAnswer plainSchema) := by
  have hiff := lone_connection_iff createSchema .admin _ _ _ _
    (Task.goes_exchanges schemalessAnswer (createSchema.run .admin) plainSchema)
  refine Classical.not_not.mp fun hn => ?_
  cases after_firstCreation.symm.trans (hiff.mpr hn)

/-- The creation of a schema can have two connections at a time. -/
theorem creation_doubles_connection : ¬∀ (op : Operation) (c : Client) (s s' : Standing Resource)
    (t : List Exchange) (r : Except Failure Value), Goes (op.run c) s t r s' →
      Occupancy.after false t = some false := by
  intro h
  have lone := h createSchema .admin _ _ _ _
    (Task.goes_exchanges schemalessAnswer (createSchema.run .admin) plainSchema)
  cases after_firstCreation.symm.trans lone

end Operation

end DeclaredAccess
