import DeclaredAccess.Proofs.Session.Course

/-! What a task was told that succeeds, or that fails because something is missing. A statement that
fails lets everything around it fail too, up to the end of its transaction, so where a transaction
succeeds all that its statements name was there. Only a statement finds that something is missing, so
where a transaction fails for that reason, one of its statements was told so. -/

namespace DeclaredAccess

variable {σ α β : Type} {s s' : Standing σ} {t : List Exchange} {a : Allowance}

/-- Whether nothing that a statement names was said to be missing. -/
def FindsAll (t : List Exchange) : Prop := ∀ y ∈ t, y.findsMissing = false

theorem FindsAll.nil : FindsAll [] := by simp [FindsAll]

theorem FindsAll.cons {y : Exchange} (hy : y.findsMissing = false) (h : FindsAll t) :
    FindsAll (y :: t) :=
  List.forall_mem_cons.mpr ⟨hy, h⟩

theorem FindsAll.append {u : List Exchange} (h : FindsAll t) (hu : FindsAll u) :
    FindsAll (t ++ u) :=
  List.forall_mem_append.mpr ⟨h, hu⟩

theorem FindsAll.left {u : List Exchange} (h : FindsAll (t ++ u)) : FindsAll t :=
  (List.forall_mem_append.mp h).1

theorem FindsAll.right {u : List Exchange} (h : FindsAll (t ++ u)) : FindsAll u :=
  (List.forall_mem_append.mp h).2

theorem FindsAll.head {y : Exchange} (h : FindsAll (y :: t)) : y.findsMissing = false :=
  (List.forall_mem_cons.mp h).1

theorem FindsAll.tail {y : Exchange} (h : FindsAll (y :: t)) : FindsAll t :=
  (List.forall_mem_cons.mp h).2

theorem EngineSetUp.findsAll {c : Client} {name : String} (h : EngineSetUp c name s t s') :
    FindsAll t := by
  cases h with
  | known _ => exact .nil
  | new _ => exact .cons rfl .nil

namespace Task

/-- Where the task succeeds, nothing was said to be missing. -/
def Heeds (x : Task σ α) : Prop :=
  ∀ (s : Standing σ) (t : List Exchange) (v : α) (s' : Standing σ),
    Goes x s t (.ok v) s' → FindsAll t

namespace Heeds

theorem bindOf {x : Task σ α} {f : α → Task σ β} (hx : Heeds x)
    (hf : ∀ v, Returns x v → Heeds (f v)) : Heeds (x >>= f) := by
  intro s t w s' hg
  rcases goes_bind.mp hg with ⟨t₁, t₂, v, s₁, rfl, h₁, h₂⟩ | ⟨f, _, he⟩
  · exact (hx _ _ _ _ h₁).append (hf v ⟨_, _, _, h₁⟩ _ _ _ _ h₂)
  · cases he

theorem closed : Closed (fun _ => True) fun {α} (x : Task σ α) => Heeds x where
  pure v := by
    intro s t w s' hg
    rw [(goes_pure.mp hg).1]
    exact .nil
  fail _ := by
    intro s t v s' hg
    cases (goes_fail.mp hg).2.1
  bind hx hf := bindOf hx fun v _ => hf v

theorem execute (q : Sql.Statement) (intent : String) :
    Heeds (execute q intent : Task σ (List Row)) := by
  intro s t v s' hg
  obtain ⟨_, ⟨_, _, rfl, _⟩ | ⟨_, b, _, rfl, hr⟩⟩ := goes_execute.mp hg
  · exact .nil
  · cases b with
    | ok rows => exact .cons rfl .nil
    | error e => cases hr

theorem askOne (q : Sql.Query) (intent : String) :
    Heeds (Catalog.askOne q intent : Task σ Value) :=
  closed.askOne (fun _ => trivial) (execute _ _)

theorem savepoint {body : Task σ α} (hb : Heeds body) : Heeds (savepoint body) := by
  intro s t v s' hg
  rcases goes_savepoint.mp hg with ⟨e, _, _, hr⟩ | ⟨u, w, b, rfl, hu, _⟩ | ⟨u, f, b, _, _, hr⟩
  · cases hr
  · exact .cons rfl ((hb _ _ _ _ hu).append (.cons rfl .nil))
  · cases b with
    | ok _ => cases hr
    | error e => cases hr

theorem elevated {role actor : Value} {block : Task σ α} (hb : Heeds block) :
    Heeds (elevated role actor block) := by
  intro s t v s' hg
  have asked : Heeds (elevationFor role actor : Task σ _) :=
    closed.elevationFor (askOne _ _) (askOne _ _) (fun _ _ => trivial) fun _ _ => trivial
  have he := goes_elevated hg
  generalize ho : (Except.ok v : Except Failure α) = o at he
  cases he with
  | failed h₀ => cases ho
  | needless h₀ h =>
    rw [← ho] at h
    exact (asked _ _ _ _ h₀).append (hb _ _ _ _ h)
  | refused h₀ => cases ho
  | held h₀ h =>
    -- the membership was granted and taken back, and the block has succeeded between
    obtain ⟨rfl, rows, rfl⟩ := eq_ok_of_takenBack ho.symm
    refine (asked _ _ _ _ h₀).append (.cons rfl ?_)
    exact (hb.savepoint _ _ _ _ h).append (.cons rfl .nil)

theorem version (c : Client) : Heeds (c.version : Task σ Version) := by
  intro s t v s' hg
  rcases goes_version hg with ⟨v, _, rfl, _⟩ | ⟨t₀, s₀, _, hs, ⟨e, rfl, _⟩ | ⟨peer, v, rfl, _⟩⟩
  · exact .nil
  · exact hs.findsAll.append (.cons rfl .nil)
  · exact hs.findsAll.append (.cons rfl (.cons rfl .nil))

theorem require (c : Client) (f : Feature) (resource : String) :
    Heeds (c.require f resource : Task σ Unit) :=
  closed.require (version c) fun _ => trivial

theorem block {x : Task σ α} (hx : Block a x) : Heeds x :=
  Kept.block {
    pure := closed.pure
    fail _ := closed.fail trivial
    bindOf := bindOf
    query _ := execute _
    change _ := execute _
    elevated _ _ _ := elevated
    version _ := version
    changeWork _ f := by
      intro s t v s' hg
      rw [(goes_changeWork.mp hg).1]
      exact .nil } hx

theorem transaction {c : Client} {name : String} {body : Task σ α} (hb : Heeds body) :
    Heeds (c.transaction name body) := by
  intro s t v s' hg
  obtain ⟨t₀, s₀, peer, u, w, s₁, he, hu, hw, rfl⟩ := goes_transaction_succeeds hg
  have hend : FindsAll w := by
    rcases goes_rollback.mp hw with ⟨_, rfl, _⟩ | ⟨_, _, b, rfl, _⟩
    · exact .nil
    · exact .cons rfl .nil
  refine he.findsAll.append (.cons rfl (.cons rfl ?_))
  exact ((hb _ _ _ _ hu).append hend).append (.cons rfl .nil)

theorem committed {c : Client} {name : String} {body : Task σ Unit} (hb : Heeds body) :
    Heeds (c.committed name body) := by
  refine .transaction (.bindOf hb fun _ _ s t v s' hg => ?_)
  obtain ⟨_, b, rfl, _⟩ := goes_commit.mp hg
  exact .cons rfl .nil

end Heeds

/-! ## What is missing -/

theorem takenBack_missing {intent : String} {a : Except DriverError (List Row)}
    {o : Except Failure α} {f : Failure} (h : .error f = takenBack intent a o)
    (hf : f.error.isNotFound = true) :
    (∃ e, a = .error e ∧ e.isMissing = true) ∨ ∃ g, o = .error g ∧ g.error = f.error := by
  cases o with
  | ok w => cases a with
    | ok rows => cases h
    | error e =>
      cases h
      exact .inl ⟨e, rfl, DriverError.isMissing_of_isNotFound hf⟩
  | error g => cases a with
    | ok rows =>
      cases h
      exact .inr ⟨f, rfl, rfl⟩
    | error e =>
      simp only [takenBack, replied_error] at h
      cases h
      split at hf
      · refine .inr ⟨g, rfl, ?_⟩
        split
        · rfl
        · contradiction
      · exact .inl ⟨e, rfl, DriverError.isMissing_of_isNotFound hf⟩

/-- Only its body finds that something is missing; neither the connection nor the markers do. -/
theorem goes_committed_missing {body : Task σ Unit} {f : Failure} (hf : f.error.isNotFound = true)
    (hg : Goes (c.committed name body) s t (.error f) s') : ∃ t₀ s₀ peer v w s₁,
      EngineSetUp c name s t₀ s₀ ∧ Goes body (s₀.within true) v (.error f) s₁ ∧
        t = t₀ ++ ⟨.connect (c.databaseOr name), .ok peer⟩ ::
          (⟨.mark .begin, .ok ()⟩ :: (v ++ w) ++ [⟨.disconnect, ()⟩]) := by
  obtain ⟨t₀, s₀, he, ⟨_, _, _, hr⟩ | ⟨peer, u, rfl, h⟩⟩ := goes_transaction hg
  · cases hr
    cases hf
  · rcases h with ⟨_, _, _, hr, hp⟩ | ⟨_, _, _, hr⟩ | ⟨v, w, o, o', s₁, rfl, hv, hw, hr⟩
    · cases hr
      rcases Peer.eq_of_check hp with rfl | rfl
      · cases hf
      · cases hf
    · cases hr
      cases hf
    · have ho : o = .error f := by
        cases o' with
        | ok _ => exact hr.symm
        | error g =>
          rcases goes_rollback.mp hw with ⟨_, _, he, _⟩ | ⟨_, _, b, _, he⟩
          · cases he
          · cases hr
            cases b with
            | ok _ => cases he
            | error e => cases he; cases hf
      subst ho
      rcases goes_bind.mp hv with ⟨v₁, v₂, _, s₂, rfl, _, h₂⟩ | ⟨_, h₁, he'⟩
      · obtain ⟨_, b, _, hc⟩ := goes_commit.mp h₂
        cases b with
        | ok _ => cases hc
        | error e =>
          cases hc
          have hn : true = false := hf.symm.trans e.isNotFound_toCommitError
          cases hn
      · cases he'
        exact ⟨t₀, s₀, peer, v, w, s₁, he, h₁, rfl⟩

/-- Where the task fails because something is missing, it was told so by a statement. -/
def Learns (x : Task σ α) : Prop :=
  ∀ (s : Standing σ) (t : List Exchange) (f : Failure) (s' : Standing σ),
    Goes x s t (.error f) s' → f.error.isNotFound = true → ¬FindsAll t

namespace Learns

theorem bindOf {x : Task σ α} {f : α → Task σ β} (hx : Learns x)
    (hf : ∀ v, Returns x v → Learns (f v)) : Learns (x >>= f) := by
  intro s t e s' hg he hall
  rcases goes_bind.mp hg with ⟨t₁, t₂, v, s₁, rfl, h₁, h₂⟩ | ⟨_, h₁, hr⟩
  · exact hf v ⟨_, _, _, h₁⟩ _ _ _ _ h₂ he hall.right
  · cases hr
    exact hx _ _ _ _ h₁ he hall

theorem closed : Closed (·.isNotFound = false) fun {α} (x : Task σ α) => Learns x where
  pure v := by
    intro s t f s' hg
    cases (goes_pure.mp hg).2.1
  fail h := by
    intro s t f s' hg hf
    cases (goes_fail.mp hg).2.1
    cases hf.symm.trans h
  bind hx hf := bindOf hx fun v _ => hf v

theorem execute (q : Sql.Statement) (intent : String) :
    Learns (execute q intent : Task σ (List Row)) := by
  intro s t f s' hg hf hall
  obtain ⟨_, ⟨_, _, _, hr⟩ | ⟨_, b, _, rfl, hr⟩⟩ := goes_execute.mp hg
  · cases hr
    cases hf
  · cases b with
    | ok rows => cases hr
    | error e =>
      cases hr
      cases (DriverError.isMissing_of_isNotFound hf).symm.trans hall.head

theorem askOne (q : Sql.Query) (intent : String) :
    Learns (Catalog.askOne q intent : Task σ Value) :=
  closed.askOne (fun _ => rfl) (execute _ _)

theorem savepoint {body : Task σ α} (hb : Learns body) : Learns (savepoint body) := by
  intro s t f s' hg hf hall
  rcases goes_savepoint.mp hg with ⟨e, _, _, hr⟩ | ⟨u, w, b, _, _, hr⟩ | ⟨u, g, b, rfl, hu, hr⟩
  · cases hr
    cases hf
  · cases b with
    | ok _ => cases hr
    | error e => cases hr; cases hf
  · cases b with
    | error e => cases hr; cases hf
    | ok _ =>
      cases hr
      exact hb _ _ _ _ hu hf hall.tail.left

theorem elevated {role actor : Value} {block : Task σ α} (hb : Learns block) :
    Learns (elevated role actor block) := by
  have asked : Learns (elevationFor role actor : Task σ _) :=
    closed.elevationFor (askOne _ _) (askOne _ _) (Block.neverMissing_name role)
      (Block.neverMissing_name actor)
  intro s t f s' hg hf hall
  have he := goes_elevated hg
  generalize ho : (Except.error f : Except Failure α) = o at he
  cases he with
  | failed h₀ =>
    cases ho
    exact asked _ _ _ _ h₀ hf hall
  | needless h₀ h =>
    rw [← ho] at h
    exact hb _ _ _ _ h hf hall.right
  | refused h₀ =>
    cases ho
    cases (DriverError.isMissing_of_isNotFound hf).symm.trans hall.right.head
  | held h₀ h =>
    -- the block itself failed so, or the membership could not be taken back after it
    rcases takenBack_missing ho hf with ⟨e, rfl, he⟩ | ⟨g, rfl, hgf⟩
    · cases he.symm.trans hall.right.tail.right.head
    · exact hb.savepoint _ _ _ _ h (hgf ▸ hf) hall.right.tail.left

theorem version (c : Client) : Learns (c.version : Task σ Version) := by
  intro s t f s' hg hf
  rcases goes_version hg with ⟨_, _, _, he, _⟩ | ⟨_, _, _, _, ⟨e, _, _, he⟩ | ⟨_, _, _, he, _⟩⟩
  · cases he
  · cases he
    cases hf
  · cases he

theorem block {x : Task σ α} (hx : Block a x) : Learns x :=
  Kept.block {
    pure := closed.pure
    fail := closed.fail
    bindOf := bindOf
    query _ := execute _
    change _ := execute _
    elevated _ _ _ := elevated
    version _ := version
    changeWork _ f := by
      intro s t e s' hg
      cases (goes_changeWork.mp hg).2.1 } hx

theorem committed {c : Client} {name : String} {body : Task σ Unit} (hb : Learns body) :
    Learns (c.committed name body) := by
  intro s t f s' hg hf hall
  obtain ⟨t₀, s₀, peer, v, w, s₁, _, h, rfl⟩ := goes_committed_missing hf hg
  exact hb _ _ _ _ h hf hall.right.tail.left.tail.left

end Learns

end Task

end DeclaredAccess
