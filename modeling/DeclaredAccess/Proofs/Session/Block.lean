import DeclaredAccess.Proofs.Session.Closed
import DeclaredAccess.Proofs.Session.Exchange
import DeclaredAccess.Session.Policy

/-! What runs inside a transaction. Every operation is built there from few parts: questions,
changes, elevations and computations. A block is what these parts build, and what holds of every
block is shown once, by induction on how it is built. -/

namespace DeclaredAccess

variable {σ α β : Type} {s s' : Standing σ} {t : List Exchange}

/-- A computation that never says that something is missing; only a statement finds that out. -/
def NeverMissing (x : Except Error α) : Prop := ∀ e, x = .error e → e.isNotFound = false

theorem NeverMissing.ok (a : α) : NeverMissing (.ok a) := by
  intro e h
  cases h

theorem NeverMissing.error {e : Error} (h : e.isNotFound = false) :
    NeverMissing (.error e : Except Error α) := by
  intro e' he
  cases he
  exact h

theorem NeverMissing.bind {x : Except Error α} {f : α → Except Error β} (hx : NeverMissing x)
    (hf : ∀ a, NeverMissing (f a)) : NeverMissing (x >>= f) := by
  cases x with
  | ok a => exact hf a
  | error e => exact .error (hx e rfl)

theorem NeverMissing.mapM {f : α → Except Error β} (hf : ∀ a, NeverMissing (f a)) (l : List α) :
    NeverMissing (l.mapM f) := by
  induction l with
  | nil => exact .ok []
  | cons a l ih =>
    rw [List.mapM_cons]
    exact (hf a).bind fun b => ih.bind fun bs => .ok (b :: bs)

/-- What a block may do beside asking the catalog. -/
structure Allowance where
  /-- The changes that it may send. -/
  sends : Sql.Change → Prop
  /-- Whether it may act as a member of other roles. -/
  elevates : Prop
  /-- Whether it may ask for the server's version, on a connection of its own. -/
  inquires : Prop
  /-- Whether it may write down what it found. -/
  records : Prop

/-- A block that only asks. -/
def Allowance.asking : Allowance := ⟨fun _ => False, False, False, False⟩

namespace Task

/-- Whether a task can have the value as its result. -/
def Returns (x : Task σ α) (v : α) : Prop := ∃ s t s', Goes x s t (.ok v) s'

theorem eq_ok_of_returns {x : Except Conflict α} {v : α}
    (h : Returns (ofConflict x : Task σ α) v) : x = .ok v := by
  obtain ⟨s, t, s', hg⟩ := h
  obtain ⟨_, _, hr⟩ := goes_ofConflict.mp hg
  cases x with
  | ok w => cases hr; rfl
  | error e => cases hr

inductive Block (a : Allowance) : {α : Type} → Task σ α → Prop
  | pure {α : Type} (v : α) : Block a (pure v)
  | fail {α : Type} {e : Error} (h : e.isNotFound = false) : Block a (fail e : Task σ α)
  | bindOf {α β : Type} {x : Task σ α} {f : α → Task σ β} (hx : Block a x)
    (hf : ∀ v, Returns x v → Block a (f v)) : Block a (x >>= f)
  | query (q : Sql.Query) (intent : String) : Block a (execute (.query q) intent)
  | change {c : Sql.Change} (h : a.sends c) (intent : String) :
    Block a (execute (.change c) intent)
  | elevated {α : Type} {block : Task σ α} (h : a.elevates) (role actor : Value)
    (hb : Block a block) : Block a (elevated role actor block)
  | version (h : a.inquires) (c : Client) : Block a c.version
  | changeWork (h : a.records) (f : σ → σ) : Block a (changeWork f)

namespace Block

variable {a : Allowance}

theorem bind {x : Task σ α} {f : α → Task σ β} (hx : Block a x) (hf : ∀ v, Block a (f v)) :
    Block a (x >>= f) :=
  .bindOf hx fun v _ => hf v

theorem closed (a : Allowance) :
    Closed (·.isNotFound = false) fun {α} (x : Task σ α) => Block a x where
  pure := .pure
  fail := .fail
  bind := .bind

theorem ofExcept {x : Except Error α} (h : NeverMissing x) : Block a (ofExcept x : Task σ α) :=
  (closed a).ofExcept h

theorem ofConflict (x : Except Conflict α) : Block a (ofConflict x : Task σ α) :=
  (closed a).ofConflict fun _ _ => rfl

theorem forM {l : List β} {f : β → Task σ PUnit} (hf : ∀ v ∈ l, Block a (f v)) :
    Block a (l.forM f) :=
  (closed a).forM hf

theorem whenThen {p : Prop} [Decidable p] {x : Task σ Unit} {f : Unit → Task σ α}
    (hx : Block a x) (hf : ∀ v, Block a (f v)) : Block a (if p then x >>= f else f ()) :=
  (closed a).whenThen hx hf

/-! ## The catalog's questions -/

theorem neverMissing_name (v : Value) : NeverMissing (Catalog.name v) := by
  unfold Catalog.name
  split
  · exact .ok _
  · exact .error rfl

theorem neverMissing_column (rows : List Row) : NeverMissing (Catalog.column rows) := by
  refine .mapM (fun row => ?_) rows
  split
  · exact .ok _
  · exact .error rfl

theorem neverMissing_distinct (vs : List Value) : NeverMissing (Value.distinct vs) := by
  unfold Value.distinct
  split
  · exact .error rfl
  · exact .ok _

theorem neverMissing_inOrder (vs : List Value) : NeverMissing (Value.inOrder vs) := by
  unfold Value.inOrder
  split
  · exact .ok _
  · exact .error rfl

theorem neverMissing_ofRows (role : String) (rows : List Row) :
    NeverMissing (Holdings.ofRows role rows) := by
  refine .bind (.mapM (fun row => ?_) rows) fun held => .ok _
  unfold Holdings.ofRow
  split
  · split
    · exact .error rfl
    · split
      · exact .ok _
      · rename_i name
        cases h : Privilege.named name with
        | ok p => exact .ok _
        | error e =>
          refine .error ?_
          unfold Privilege.named at h
          split at h <;> cases h
          rfl
      · exact .error rfl
  · exact .error rfl

theorem askOne (q : Sql.Query) (intent : String) : Block a (Catalog.askOne q intent : Task σ _) :=
  (closed a).askOne (fun _ => rfl) (.query q intent)

theorem schema (v : Value) : Block a (Catalog.schema v : Task σ _) :=
  (closed a).schema (fun _ => rfl) (.query _)

theorem relationOwners (schema : String) : Block a (Catalog.relationOwners schema : Task σ _) :=
  .bind (.query _ _) fun rows => .ofExcept (neverMissing_column rows)

theorem objectPrivileges (role : String) (target : Target) :
    Block a (Catalog.objectPrivileges role target : Task σ _) :=
  .bind (.query _ _) fun rows => .ofExcept (neverMissing_ofRows role rows)

theorem roleMembers (role : String) : Block a (Catalog.roleMembers role : Task σ _) :=
  .bind (.query _ _) fun rows => .ofExcept (neverMissing_column rows)

theorem extension (name : String) : Block a (Catalog.extension name : Task σ _) := by
  refine .bind (.query _ _) fun rows => ?_
  split
  · exact .pure _
  · exact .pure _
  · exact .fail rfl

theorem actorRole (c : Client) : Block a (c.actorRole : Task σ _) :=
  (closed a).actorRole (fun _ => rfl) (.query _)

theorem ownersIn (schema : String) : Block a (Catalog.ownersIn schema : Task σ _) := by
  refine .bind (.relationOwners schema) fun found => ?_
  refine .bind (.ofExcept (neverMissing_distinct found)) fun owners => ?_
  refine .bind (.schema _) fun found => ?_
  split
  · exact .bind (.ofExcept (neverMissing_distinct _)) fun _ => .ofExcept (neverMissing_inOrder _)
  · exact .ofExcept (neverMissing_inOrder _)

theorem elevationFor (role actor : Value) : Block a (Task.elevationFor role actor : Task σ _) :=
  (closed a).elevationFor (.askOne _ _) (.askOne _ _) (neverMissing_name role)
    (neverMissing_name actor)

theorem send {c : Sql.Change} (h : a.sends c) (intent : String) :
    Block a (Catalog.change c intent : Task σ _) :=
  (closed a).change (.change h intent)

end Block

/-- What holds of a block, and is kept by checks before it and by an elevation around it, holds of
the block with all its elevations. -/
theorem elevatedAll_of {Q : Task σ α → Prop} {roles : List Value} {actor : Value} {block : Task σ α}
    (hb : Q block)
    (after : ∀ {x : Except Error (List Value)} {f : List Value → Task σ α}, NeverMissing x →
      (∀ vs, Q (f vs)) → Q (ofExcept x >>= f))
    (elevated : ∀ role x, Q x → Q (elevated role actor x)) :
    Q (elevatedAll roles actor block) := by
  refine after (Block.neverMissing_distinct _) fun found => ?_
  refine after (Block.neverMissing_inOrder found) fun sorted => ?_
  induction sorted with
  | nil => exact hb
  | cons role sorted ih => exact elevated role _ ih

theorem Block.elevatedAll {a : Allowance} (h : a.elevates) (roles : List Value) (actor : Value)
    {block : Task σ α} (hb : Block a block) : Block a (elevatedAll roles actor block) :=
  elevatedAll_of hb (fun hx hf => .bind (.ofExcept hx) hf) fun role _ hx => .elevated h role actor hx

/-! ## What all blocks have -/

/-- The predicate is kept by everything that blocks with this allowance are built from. -/
structure Kept (a : Allowance) (P : ∀ {α : Type}, Task σ α → Prop) : Prop where
  pure {α : Type} (v : α) : P (pure v)
  fail {α : Type} {e : Error} (h : e.isNotFound = false) : P (fail e : Task σ α)
  bindOf {α β : Type} {x : Task σ α} {f : α → Task σ β} (hx : P x)
    (hf : ∀ v, Returns x v → P (f v)) : P (x >>= f)
  query (q : Sql.Query) (intent : String) : P (execute (.query q) intent)
  change {c : Sql.Change} (h : a.sends c) (intent : String) : P (execute (.change c) intent)
  elevated {α : Type} {block : Task σ α} (h : a.elevates) (role actor : Value) (hb : P block) :
    P (elevated role actor block)
  version (h : a.inquires) (c : Client) : P (c.version : Task σ Version)
  changeWork (h : a.records) (f : σ → σ) : P (changeWork f)

/-- The predicate holds of every block, by induction on how the block is built. -/
theorem Kept.block {a : Allowance} {P : ∀ {α : Type}, Task σ α → Prop} (h : Kept a P)
    {x : Task σ α} (hx : Block a x) : P x := by
  induction hx with
  | pure v => exact h.pure v
  | fail he => exact h.fail he
  | bindOf _ _ ihx ihf => exact h.bindOf ihx ihf
  | query q intent => exact h.query q intent
  | change hs intent => exact h.change hs intent
  | elevated he role actor _ ih => exact h.elevated he role actor ih
  | version hi c => exact h.version hi c
  | changeWork hr f => exact h.changeWork hr f

/-- A block may be allowed more than it does. -/
theorem Block.weaken {a b : Allowance} {x : Task σ α} (h : Block a x)
    (hs : ∀ c, a.sends c → b.sends c) (he : a.elevates → b.elevates)
    (hi : a.inquires → b.inquires) (hr : a.records → b.records) : Block b x :=
  Kept.block (P := fun x => Block b x) {
    pure := .pure
    fail := .fail
    bindOf := .bindOf
    query := .query
    change h := .change (hs _ h)
    elevated h := .elevated (he h)
    version h := .version (hi h)
    changeWork h := .changeWork (hr h) } h

end Task

end DeclaredAccess
