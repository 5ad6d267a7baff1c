import DeclaredAccess.Session.Elevation

/-! What one step of a task can do. Each way of building a task has one lemma, which lists every
way such a task can go: its exchanges, its outcome and the state it leads to. Later proofs open a
task by these lemmas and by none of its definitions. -/

namespace DeclaredAccess

variable {σ α β : Type} {s s' : Standing σ} {t : List Exchange}

/-- An error as the failure of a task; nobody has added a note to it yet. -/
def Failure.of (e : Error) : Failure := ⟨e, []⟩

/-- The standing while the open connection is in a transaction, or is not. -/
def Standing.within (s : Standing σ) (b : Bool) : Standing σ :=
  { s with session := { s.session with inTransaction := b } }

namespace Task

/-! ## Steps that always go on -/

theorem goes_ask_bind {q : Request} {f : q.Answer → Task σ β} {r : Except Failure β} :
    Goes (ask q >>= f) s t r s' ↔ ∃ a u, t = ⟨q, a⟩ :: u ∧ Goes (f a) s u r s' :=
  Dialogue.path_ask_iff

/-- A request whose answer settles the outcome. -/
theorem goes_ask_settled {q : Request} {f : q.Answer → Except Failure β} {r : Except Failure β} :
    Goes (ask q >>= fun a => settled (f a)) s t r s' ↔ s' = s ∧ ∃ a, t = [⟨q, a⟩] ∧ r = f a := by
  rw [goes_ask_bind]
  simp only [goes_settled]
  constructor
  · rintro ⟨a, u, rfl, rfl, rfl, rfl⟩
    exact ⟨rfl, a, rfl, rfl⟩
  · rintro ⟨rfl, a, rfl, rfl⟩
    exact ⟨a, [], rfl, rfl, rfl, rfl⟩

theorem goes_session_bind {f : Session → Task σ β} {r : Except Failure β} :
    Goes (session >>= f) s t r s' ↔ Goes (f s.session) s t r s' := Iff.rfl

theorem goes_changeSession_bind {g : Session → Session} {f : Unit → Task σ β}
    {r : Except Failure β} : Goes (changeSession g >>= f) s t r s' ↔
      Goes (f ()) { s with session := g s.session } t r s' := Iff.rfl

theorem goes_work_bind {f : σ → Task σ β} {r : Except Failure β} :
    Goes (work >>= f) s t r s' ↔ Goes (f s.work) s t r s' := Iff.rfl

theorem goes_changeWork_bind {g : σ → σ} {f : Unit → Task σ β} {r : Except Failure β} :
    Goes (changeWork g >>= f) s t r s' ↔ Goes (f ()) { s with work := g s.work } t r s' := Iff.rfl

theorem goes_attempt_bind {x : Task σ α} {f : Except Failure α → Task σ β}
    {r : Except Failure β} : Goes (attempt x >>= f) s t r s' ↔
      ∃ t₁ t₂ o s₁, t = t₁ ++ t₂ ∧ Goes x s t₁ o s₁ ∧ Goes (f o) s₁ t₂ r s' := by
  rw [goes_bind]
  constructor
  · intro h
    obtain ⟨t₁, t₂, a, s₁, rfl, h₁, h₂⟩ | ⟨e, h, rfl⟩ := h
    · obtain ⟨o, ho, hx⟩ := goes_attempt.mp h₁
      cases ho
      exact ⟨t₁, t₂, _, s₁, rfl, hx, h₂⟩
    · obtain ⟨o, ho, _⟩ := goes_attempt.mp h
      cases ho
  · intro h
    obtain ⟨t₁, t₂, o, s₁, rfl, hx, hf⟩ := h
    exact .inl ⟨t₁, t₂, o, s₁, rfl, goes_attempt.mpr ⟨o, rfl, hx⟩, hf⟩

theorem goes_ofExcept {x : Except Error α} {r : Except Failure α} :
    Goes (ofExcept x) s t r s' ↔ t = [] ∧ s' = s ∧ r = x.mapError Failure.of := by
  cases x with
  | ok a => exact goes_pure.trans (and_congr_right fun _ => and_comm)
  | error e => exact goes_fail.trans (and_congr_right fun _ => and_comm)

theorem ofConflict_eq (x : Except Conflict α) :
    (ofConflict x : Task σ α) = ofExcept (x.mapError .conflict) := by
  cases x with
  | ok _ => rfl
  | error e => rfl

theorem goes_ofConflict {x : Except Conflict α} {r : Except Failure α} :
    Goes (ofConflict x) s t r s' ↔
      t = [] ∧ s' = s ∧ r = (x.mapError .conflict).mapError Failure.of := by
  rw [ofConflict_eq]
  exact goes_ofExcept

/-- A task that succeeds has succeeded in each of its steps. -/
theorem goes_bind_ok {x : Task σ α} {f : α → Task σ β} {v : β} :
    Goes (x >>= f) s t (.ok v) s' ↔
      ∃ t₁ t₂ a s₁, t = t₁ ++ t₂ ∧ Goes x s t₁ (.ok a) s₁ ∧ Goes (f a) s₁ t₂ (.ok v) s' := by
  rw [goes_bind]
  exact or_iff_left fun ⟨_, _, h⟩ => by cases h

theorem goes_ofExcept_bind_ok {x : Except Error α} {f : α → Task σ β} {v : β} :
    Goes (ofExcept x >>= f) s t (.ok v) s' ↔ ∃ a, x = .ok a ∧ Goes (f a) s t (.ok v) s' := by
  cases x with
  | ok a =>
    show Goes (pure a >>= f) s t (.ok v) s' ↔ _
    rw [pure_bind]
    simp
  | error e =>
    rw [goes_bind_ok]
    constructor
    · intro h
      obtain ⟨_, _, _, _, _, h, _⟩ := h
      cases (goes_fail.mp h).2.1
    · intro h
      obtain ⟨_, he, _⟩ := h
      cases he

/-- A computation fails at once, or the task goes on with its value. -/
theorem goes_ofExcept_bind {x : Except Error α} {f : α → Task σ β} {r : Except Failure β}
    (h : Goes (ofExcept x >>= f) s t r s') :
    (t = [] ∧ ∃ e, r = .error e) ∨ ∃ a, x = .ok a ∧ Goes (f a) s t r s' := by
  cases x with
  | ok a => exact .inr ⟨a, rfl, h⟩
  | error e =>
    rcases goes_bind.mp h with ⟨_, _, _, _, _, h₁, _⟩ | ⟨e, h₁, rfl⟩
    · cases (goes_fail.mp h₁).2.1
    · exact .inl ⟨(goes_fail.mp h₁).1, e, rfl⟩

/-- What comes afterwards is done whatever the outcome was, and only its failure changes that. -/
theorem goes_andFinally {x : Task σ α} {after : Task σ Unit} {r : Except Failure α} :
    Goes (andFinally x after) s t r s' ↔ ∃ t₁ t₂ o s₁ u, t = t₁ ++ t₂ ∧ Goes x s t₁ o s₁ ∧
      Goes after s₁ t₂ u s' ∧ r = u.bind fun _ => o := by
  unfold andFinally
  rw [goes_attempt_bind]
  constructor
  · intro h
    obtain ⟨t₁, t₂, o, s₁, rfl, hx, h⟩ := h
    rcases goes_bind.mp h with ⟨u₁, u₂, b, s₂, rfl, ha, hr⟩ | ⟨e, ha, rfl⟩
    · obtain ⟨rfl, rfl, rfl⟩ := goes_settled.mp hr
      exact ⟨t₁, u₁, _, s₁, .ok b, by simp, hx, ha, rfl⟩
    · exact ⟨t₁, t₂, _, s₁, .error e, rfl, hx, ha, rfl⟩
  · intro h
    obtain ⟨t₁, t₂, o, s₁, u, rfl, hx, ha, rfl⟩ := h
    refine ⟨t₁, t₂, o, s₁, rfl, hx, goes_bind.mpr ?_⟩
    cases u with
    | ok b => exact .inl ⟨t₂, [], b, s', by simp, ha, goes_settled.mpr ⟨rfl, rfl, rfl⟩⟩
    | error e => exact .inr ⟨e, ha, rfl⟩

/-! ## Markers and statements -/

/-- The outcome of a marker by its answer. -/
def marked (a : Except DriverError Unit) : Except Failure Unit :=
  a.mapError fun e => Failure.of (.database e)

/-- The outcome of a statement by its answer. -/
def replied (intent : String) (a : Except DriverError (List Row)) : Except Failure (List Row) :=
  a.mapError fun e => Failure.of (e.toError intent)

@[simp] theorem replied_error (intent : String) (e : DriverError) :
    replied intent (.error e) = .error (Failure.of (e.toError intent)) := rfl

/-- The outcome of a commit by its answer. -/
def committed (a : Except DriverError Unit) : Except Failure Unit :=
  a.mapError fun e => Failure.of e.toCommitError

theorem mark_eq (m : Marker) :
    (mark m : Task σ Unit) = ask (.mark m) >>= fun a => settled (marked a) := by
  refine congrArg (ask _ >>= ·) (funext fun a => ?_)
  cases a with
  | ok _ => rfl
  | error e => rfl

/-- A statement that can be written is sent, and its answer is the outcome. -/
theorem execute_eq {q : Sql.Statement} {text : String} (h : q.text = .ok text) (intent : String) :
    (execute q intent : Task σ (List Row)) =
      ask (.execute q) >>= fun a => settled (replied intent a) := by
  unfold execute
  rw [h]
  refine congrArg (ask _ >>= ·) (funext fun a => ?_)
  cases a with
  | ok _ => rfl
  | error e => rfl

theorem commit_eq : (commit : Task σ Unit) =
    changeSession (fun s => { s with inTransaction := false }) >>= fun _ =>
      ask (.mark .commit) >>= fun a => settled (committed a) := by
  refine congrArg (changeSession _ >>= ·) (funext fun _ => ?_)
  refine congrArg (ask _ >>= ·) (funext fun a => ?_)
  cases a with
  | ok _ => rfl
  | error e => rfl

theorem goes_mark {m : Marker} {r : Except Failure Unit} :
    Goes (mark m) s t r s' ↔ s' = s ∧ ∃ a, t = [⟨.mark m, a⟩] ∧ r = marked a := by
  rw [mark_eq]
  exact goes_ask_settled

theorem goes_execute {q : Sql.Statement} {intent : String} {r : Except Failure (List Row)} :
    Goes (execute q intent) s t r s' ↔ s' = s ∧
      ((∃ e, q.text = .error e ∧ t = [] ∧ r = .error (Failure.of (.constant e))) ∨
        ∃ text a, q.text = .ok text ∧ t = [⟨.execute q, a⟩] ∧ r = replied intent a) := by
  cases hq : q.text with
  | error e =>
    unfold execute
    rw [hq]
    refine goes_fail.trans ?_
    constructor
    · intro h
      obtain ⟨rfl, rfl, rfl⟩ := h
      exact ⟨rfl, .inl ⟨e, rfl, rfl, rfl⟩⟩
    · intro h
      obtain ⟨rfl, ⟨_, he, rfl, rfl⟩ | ⟨_, _, he, _⟩⟩ := h
      · cases he
        exact ⟨rfl, rfl, rfl⟩
      · cases he
  | ok text =>
    rw [execute_eq hq]
    refine goes_ask_settled.trans (and_congr_right fun _ => ?_)
    constructor
    · intro h
      obtain ⟨a, ht, hr⟩ := h
      exact .inr ⟨text, a, rfl, ht, hr⟩
    · intro h
      obtain ⟨_, he, _⟩ | ⟨_, a, _, ht, hr⟩ := h
      · cases he
      · exact ⟨a, ht, hr⟩

/-- A question whose answer is worked out by a computation. -/
theorem goes_execute_ofExcept {q : Sql.Statement} {intent : String} {f : List Row → Except Error β}
    {r : Except Failure β} (h : Goes (execute q intent >>= fun rows => ofExcept (f rows)) s t r s') :
    s' = s ∧ ((∃ e, t = [] ∧ r = .error e) ∨ ∃ a, t = [⟨.execute q, a⟩] ∧
      r = (replied intent a).bind fun rows => (f rows).mapError Failure.of) := by
  rcases goes_bind.mp h with ⟨t₁, t₂, rows, s₁, rfl, h₁, h₂⟩ | ⟨e, h₁, rfl⟩
  · obtain ⟨rfl, rfl, hr⟩ := goes_ofExcept.mp h₂
    obtain ⟨rfl, ⟨_, _, _, ho⟩ | ⟨_, a, _, rfl, ho⟩⟩ := goes_execute.mp h₁
    · cases ho
    · exact ⟨rfl, .inr ⟨a, by simp, by rw [← ho]; exact hr⟩⟩
  · obtain ⟨rfl, ⟨_, _, rfl, _⟩ | ⟨_, a, _, rfl, ho⟩⟩ := goes_execute.mp h₁
    · exact ⟨rfl, .inl ⟨e, rfl, rfl⟩⟩
    · exact ⟨rfl, .inr ⟨a, rfl, by rw [← ho]; rfl⟩⟩

/-- A question that is answered. -/
theorem goes_askOne_ok {q : Sql.Query} {intent : String} {v : Value}
    (h : Goes (Catalog.askOne q intent) s t (.ok v) s') :
    s' = s ∧ ∃ rows, t = [⟨.execute (.query q), .ok rows⟩] ∧ Catalog.firstCell rows = .ok v := by
  obtain ⟨t₁, t₂, rows, s₁, rfl, h₁, h₂⟩ := goes_bind_ok.mp h
  obtain ⟨rfl, rfl, hv⟩ := goes_ofExcept.mp h₂
  obtain ⟨rfl, ⟨e, -, -, hr⟩ | ⟨_, a, -, rfl, hr⟩⟩ := goes_execute.mp h₁
  · cases hr
  · cases a with
    | error e => cases hr
    | ok found =>
      cases hr
      refine ⟨rfl, rows, rfl, ?_⟩
      cases hf : Catalog.firstCell rows with
      | error e => rw [hf] at hv; cases hv
      | ok w => rw [hf] at hv; cases hv; rfl

theorem goes_commit {r : Except Failure Unit} :
    Goes commit s t r s' ↔
      s' = s.within false ∧ ∃ a, t = [⟨.mark .commit, a⟩] ∧ r = committed a := by
  rw [commit_eq, goes_changeSession_bind]
  exact goes_ask_settled

/-- Nothing is sent where no transaction is open. -/
theorem goes_rollback {r : Except Failure Unit} :
    Goes rollback s t r s' ↔
      (s.session.inTransaction = false ∧ t = [] ∧ r = .ok () ∧ s' = s) ∨
      (s.session.inTransaction = true ∧ s' = s.within false ∧
        ∃ a, t = [⟨.mark .rollback, a⟩] ∧ r = marked a) := by
  unfold rollback
  rw [goes_session_bind]
  cases s.session.inTransaction with
  | false => simpa using goes_pure
  | true =>
    simp only [if_true, Bool.true_eq_false, false_and, true_and, false_or]
    rw [goes_changeSession_bind]
    exact goes_mark

/-- What fails after the savepoint was set is undone; the marker at the end may fail too. -/
theorem goes_savepoint {body : Task σ α} {r : Except Failure α} :
    Goes (savepoint body) s t r s' ↔
      (∃ e, t = [⟨.mark .savepoint, .error e⟩] ∧ s' = s ∧ r = .error (Failure.of (.database e))) ∨
      (∃ u v a, t = ⟨.mark .savepoint, .ok ()⟩ :: (u ++ [⟨.mark .release, a⟩]) ∧
        Goes body s u (.ok v) s' ∧ r = (marked a).map fun _ => v) ∨
      (∃ u f a, t = ⟨.mark .savepoint, .ok ()⟩ :: (u ++ [⟨.mark .rollbackTo, a⟩]) ∧
        Goes body s u (.error f) s' ∧ r = (marked a).bind fun _ => .error f) := by
  unfold savepoint
  constructor
  · intro h
    rcases goes_bind.mp h with ⟨t₁, t₂, _, s₁, rfl, h₁, h₂⟩ | ⟨f, h₁, rfl⟩
    · obtain ⟨rfl, a, rfl, ha⟩ := goes_mark.mp h₁
      cases a with
      | error e => cases ha
      | ok v =>
        obtain ⟨u, w, o, s₂, rfl, hb, hm⟩ := goes_attempt_bind.mp h₂
        cases o with
        | ok v =>
          refine .inr (.inl ?_)
          rcases goes_bind.mp hm with ⟨w₁, w₂, _, s₃, rfl, hr, hp⟩ | ⟨f, hr, rfl⟩
          · obtain ⟨rfl, a, rfl, ha⟩ := goes_mark.mp hr
            obtain ⟨rfl, rfl, rfl⟩ := goes_pure.mp hp
            exact ⟨u, v, a, by simp, hb, by rw [← ha]; rfl⟩
          · obtain ⟨rfl, a, rfl, ha⟩ := goes_mark.mp hr
            exact ⟨u, v, a, by simp, hb, by rw [← ha]; rfl⟩
        | error f =>
          refine .inr (.inr ?_)
          rcases goes_bind.mp hm with ⟨w₁, w₂, _, s₃, rfl, hr, hp⟩ | ⟨g, hr, rfl⟩
          · obtain ⟨rfl, a, rfl, ha⟩ := goes_mark.mp hr
            obtain ⟨rfl, rfl, rfl⟩ := goes_settled.mp hp
            exact ⟨u, f, a, by simp, hb, by rw [← ha]; rfl⟩
          · obtain ⟨rfl, a, rfl, ha⟩ := goes_mark.mp hr
            exact ⟨u, f, a, by simp, hb, by rw [← ha]; rfl⟩
    · obtain ⟨rfl, a, rfl, ha⟩ := goes_mark.mp h₁
      cases a with
      | ok v => cases ha
      | error e => cases ha; exact .inl ⟨e, rfl, rfl, rfl⟩
  · intro h
    obtain ⟨e, rfl, rfl, rfl⟩ | ⟨u, v, a, rfl, hb, rfl⟩ | ⟨u, f, a, rfl, hb, rfl⟩ := h
    · exact goes_bind.mpr (.inr ⟨_, goes_mark.mpr ⟨rfl, .error e, rfl, rfl⟩, rfl⟩)
    all_goals
      refine goes_bind.mpr (.inl ⟨[⟨.mark .savepoint, .ok ()⟩], _, (), s, rfl,
        goes_mark.mpr ⟨rfl, .ok (), rfl, rfl⟩, goes_attempt_bind.mpr ⟨u, _, _, s', rfl, hb, ?_⟩⟩)
      refine goes_bind.mpr ?_
      cases a with
      | ok w => exact .inl ⟨_, [], (), s', by simp, goes_mark.mpr ⟨rfl, .ok w, rfl, rfl⟩,
          goes_settled.mpr ⟨rfl, rfl, rfl⟩⟩
      | error e => exact .inr ⟨_, goes_mark.mpr ⟨rfl, .error e, rfl, rfl⟩, rfl⟩

end Task

end DeclaredAccess
