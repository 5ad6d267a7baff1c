import DeclaredAccess.Proofs.Session.Careful
import DeclaredAccess.Proofs.Session.Fault

/-! Tasks by what they may fail with. A task surfaces if its failures are never conflicts and,
where the server keeps to what it is asked for, are accounted for by the driver's faults. Whether
that is known of the server is a parameter `k`; the same rules, one for each way of building a
task, serve both for servers that answer anything and for those that answer properly. -/

namespace DeclaredAccess

variable {σ α β : Type} {k : Prop}

/-- A text that can stand in a statement. -/
def Value.IsWritable (v : Value) : Prop := ∃ s, v = .text s ∧ '\x00' ∉ s.toList

namespace Sql.Query

/-- A question about texts that can all be written. -/
def Legible (q : Query) : Prop := (q.values.all fun v => v.text?.isSome) = true ∧ Writable q.quoted

/-- The rows that a question asks for. -/
def Takes : Query → List Row → Prop
  | currentUser, rows => ∃ v, rows = [[v]] ∧ v.IsWritable
  | roleExists _, rows | databaseExists _, rows | schemaExists _, rows => ∃ v, rows = [[v]]
  | hasRole .., rows | revocableMembership .., rows => ∃ v, rows = [[v]]
  | schema _, rows => rows = [] ∨ ∃ owner entries, rows = [[owner, .list entries]] ∧
      owner.IsWritable ∧ ∀ v ∈ entries, ∃ s, v = .text s
  | relationOwners _, rows => ∃ owners : List Value, rows = owners.map ([·]) ∧ ∀ v ∈ owners, v.IsWritable
  | objectPrivileges .., rows => ∀ row ∈ rows, ∃ object privilege option,
      row = [.text object, privilege, option] ∧ (privilege = .null ∨ ∃ name, privilege = .text name)
  | roleMembers _, rows => ∃ members : List Value, rows = members.map ([·])
  | extension _, rows => rows = [] ∨ ∃ schema version, rows = [[schema, version]]

end Sql.Query

/-- What a server of the right kind answers: it takes every connection and every marker but for a
commit, and what it answers to a question is what is asked for. Statements and commits can fail in
every way. -/
def Exchange.IsRegular : Exchange → Prop
  | ⟨.connect _, a⟩ => ∃ p : Peer, a = .ok p ∧ p.check = .ok ()
  | ⟨.mark m, a⟩ => m = .commit ∨ a = .ok ()
  | ⟨.execute (.query q), .ok rows⟩ => q.Takes rows
  | _ => True

/-- What a computation fails with: never a conflict and, where `k` holds, with errors of its own. -/
def Fine (k : Prop) (x : Except Error α) : Prop :=
  ∀ e, x = .error e → e.isConflict = false ∧ (k → e.isOwn = true)

namespace Fine

theorem ok (a : α) : Fine k (.ok a : Except Error α) := fun _ h => nomatch h

theorem own {e : Error} (h : e.isOwn = true) : Fine k (.error e : Except Error α) := by
  intro e' he
  cases he
  exact ⟨Error.isConflict_of_isOwn h, fun _ => h⟩

theorem of_not {e : Error} (h : e.isConflict = false) (hk : ¬k) :
    Fine k (.error e : Except Error α) := by
  intro e' he
  cases he
  exact ⟨h, fun hp => absurd hp hk⟩

theorem of_ok {x : Except Error α} {a : α} (h : x = .ok a) : Fine k x := h ▸ .ok a

theorem bind {x : Except Error α} {f : α → Except Error β} (hx : Fine k x)
    (hf : ∀ a, x = .ok a → Fine k (f a)) : Fine k (x >>= f) := by
  cases x with
  | ok a => exact hf a rfl
  | error e =>
    intro e' he
    cases he
    exact hx e rfl

theorem map {x : Except Error α} {f : α → β} (hx : Fine k x) : Fine k (x.map f) := by
  cases x with
  | ok a => exact .ok (f a)
  | error e =>
    intro e' he
    cases he
    exact hx e rfl

theorem mapM {f : α → Except Error β} {l : List α} (hf : ∀ a ∈ l, Fine k (f a)) :
    Fine k (l.mapM f) := by
  induction l with
  | nil => exact .ok []
  | cons a l ih =>
    rw [List.mapM_cons]
    refine (hf a List.mem_cons_self).bind fun b _ => ?_
    exact (ih fun c hc => hf c (List.mem_cons_of_mem a hc)).bind fun bs _ => .ok (b :: bs)

theorem guard {p : Prop} [Decidable p] {e : Error} {f : Unit → Except Error β}
    (he : e.isOwn = true) (hf : ¬p → Fine k (f ())) :
    Fine k (if p then throw e >>= f else f ()) := by
  split
  · exact .own he
  · exact hf ‹_›

end Fine

theorem fine_name {v : Value} (hv : k → v.IsWritable) : Fine k (Catalog.name v) := by
  unfold Catalog.name
  split
  · exact .ok _
  · rename_i hn
    refine .of_not rfl fun hk => ?_
    obtain ⟨t, ht, _⟩ := hv hk
    exact hn t ht

theorem EngineSetUp.faults_eq {c : Client} {name : String} {t : List Exchange} {s s' : Standing σ}
    (h : EngineSetUp c name s t s') : faults t = [] := by
  cases h with
  | known _ => rfl
  | new _ => rfl

/-- The failure is no conflict and, where `k` holds, accounted for by the faults. -/
def Fails (k : Prop) (ys : List Fault) (f : Failure) : Prop :=
  f.error.isConflict = false ∧ (k → AccountsFor ys f)

/-- An outcome as it should be: a value with `P`, without a fault where `k` holds, or a failure that
is accounted for. -/
def Surfaced (k : Prop) (P : α → Prop) (ys : List Fault) : Except Failure α → Prop
  | .ok v => (k → ys = []) ∧ P v
  | .error f => Fails k ys f

namespace Surfaced

variable {P : α → Prop} {t u : List Exchange} {o : Except Failure α}

/-- What went before had no fault. -/
theorem after (ht : k → faults t = []) (ho : Surfaced k P (faults u) o) :
    Surfaced k P (faults (t ++ u)) o := by
  have he (hk : k) : faults (t ++ u) = faults u := by
    rw [faults_append, ht hk, List.nil_append]
  cases o with
  | ok v => exact ⟨fun hk => (he hk).trans (ho.1 hk), ho.2⟩
  | error f => exact ⟨ho.1, fun hk => he hk ▸ ho.2 hk⟩

theorem cons {y : Exchange} (hy : y.fault? = none) (ho : Surfaced k P (faults t) o) :
    Surfaced k P (faults (y :: t)) o :=
  (faults_cons_of_none hy).symm ▸ ho

theorem concat {y : Exchange} (hy : y.fault? = none) (ho : Surfaced k P (faults t) o) :
    Surfaced k P (faults (t ++ [y])) o := by
  rw [faults_append, faults_cons_of_none hy, faults_nil, List.append_nil]
  exact ho

/-- A marker at the end changes the outcome only where it fails, and no marker but a commit does. -/
theorem marked {m : Marker} (hm : m ≠ .commit) (ho : Surfaced k P (faults t) o)
    {a : Except DriverError Unit} (ha : k → Exchange.IsRegular ⟨.mark m, a⟩) :
    Surfaced k P (faults (t ++ [⟨.mark m, a⟩])) ((Task.marked a).bind fun _ => o) := by
  cases a with
  | ok u =>
    refine ho.concat ?_
    cases m <;> rfl
  | error e =>
    refine ⟨rfl, fun hk => ?_⟩
    rcases ha hk with hc | he
    · exact absurd hc hm
    · cases he

/-- The failure of a block stays when the membership is taken back. -/
theorem takenBack (ho : Surfaced k P (faults t) o) (intent group member : String)
    (b : Except DriverError (List Row)) :
    Surfaced k P (faults (t ++ [⟨.execute (.change (.revokeMembership [group] member)), b⟩]))
      (Task.takenBack intent b o) := by
  cases b with
  | ok rows =>
    have hall : Surfaced k P (faults (t ++ [⟨.execute (.change (.revokeMembership [group] member)),
        .ok rows⟩])) o := ho.concat rfl
    cases o with
    | ok v => exact hall
    | error f => exact hall
  | error e =>
    rw [faults_append]
    have hback : ∀ st, st = Sql.Statement.change (.revokeMembership [group] member) →
        (Fault.statement st e).isTakingBack = true := fun _ h => h ▸ rfl
    have hlast : ∀ st, st = Sql.Statement.change (.revokeMembership [group] member) →
        Surfaced k P (faults t ++ [.statement st e]) (Task.takenBack intent (.error e) o) := by
      intro st hst
      cases o with
      | ok v =>
        refine ⟨e.isConflict_toError intent, fun hk => ?_⟩
        rw [ho.1 hk]
        exact .of_statement st e intent
      | error f =>
        rcases Fault.toError_cases st e intent with ⟨hs, he⟩ | ⟨hs, hy⟩
        · simp only [Task.takenBack, Task.replied_error, Failure.of, he]
          exact ⟨rfl, fun _ => .inl ⟨⟨.statement st e, by simp, hs⟩, rfl⟩⟩
        · obtain ⟨note, hn⟩ := hy.exists_message
          simp only [Task.takenBack, Task.replied_error, Failure.of, hy.isFinding, if_true, hn,
            Option.getD_some]
          refine ⟨ho.1, fun hk => ?_⟩
          rcases ho.2 hk with ⟨⟨z, hz, hq⟩, hf⟩ | htr
          · exact .inl ⟨⟨z, List.mem_append_left _ hz, hq⟩, hf⟩
          · exact .inr (htr.note hs (hback st hst) hy hn)
    exact hlast _ rfl

end Surfaced

namespace Task

/-- However the task goes, it returns a value with `P` and without a fault, or it fails in a way
that is accounted for. -/
def Surfaces (k : Prop) (x : Task σ α) (s : Standing σ) (P : α → Prop) : Prop :=
  ∀ (t : List Exchange) (r : Except Failure α) (s' : Standing σ), Goes x s t r s' →
    (k → ∀ y ∈ t, y.IsRegular) → Surfaced k P (faults t) r

namespace Surfaces

variable {s : Standing σ} {P P' : α → Prop} {Q : β → Prop} {x : Task σ α}

theorem mono (h : Surfaces k x s P) (hp : ∀ v, P v → P' v) : Surfaces k x s P' := by
  intro t r s' hg hr
  have hx := h t r s' hg hr
  cases r with
  | ok v => exact ⟨hx.1, hp v hx.2⟩
  | error f => exact hx

theorem pure {v : α} (h : P v) : Surfaces k (pure v : Task σ α) s P := by
  intro t r s' hg _
  obtain ⟨rfl, rfl, _⟩ := goes_pure.mp hg
  exact ⟨fun _ => rfl, h⟩

theorem fail {e : Error} (h : e.isConflict = false) (hk : k → e.isOwn = true) :
    Surfaces k (fail e : Task σ α) s P := by
  intro t r s' hg _
  obtain ⟨rfl, rfl, _⟩ := goes_fail.mp hg
  exact ⟨h, fun hp => .inr (.own (hk hp))⟩

theorem ofExcept {x : Except Error α} (h : Fine k x) (hp : ∀ v, x = .ok v → P v) :
    Surfaces k (ofExcept x : Task σ α) s P := by
  cases x with
  | ok v => exact .pure (hp v rfl)
  | error e => exact .fail (h e rfl).1 (h e rfl).2

/-- Of what comes out nothing needs to be known. -/
theorem ofFine {x : Except Error α} (h : Fine k x) :
    Surfaces k (Task.ofExcept x : Task σ α) s fun _ => True :=
  .ofExcept h fun _ _ => trivial

theorem ofConflict_bind {x : Except Conflict α} {v : α} {f : α → Task σ β} (h : x = .ok v)
    (hf : Surfaces k (f v) s Q) : Surfaces k (Task.ofConflict x >>= f) s Q := by
  subst h
  exact hf

theorem fail_bind {e : Error} {f : α → Task σ β} (h : e.isConflict = false) (hk : k → e.isOwn = true) :
    Surfaces k (Task.fail e >>= f) s Q :=
  .fail h hk

/-- The second task goes on from a standing of which something may be known. -/
theorem bindOf {f : α → Task σ β} {R : Standing σ → Prop} (hx : Surfaces k x s P)
    (hr : ∀ t v s', Goes x s t (.ok v) s' → R s')
    (hf : ∀ v s', P v → R s' → Surfaces k (f v) s' Q) : Surfaces k (x >>= f) s Q := by
  intro t r s' hg hreg
  rcases goes_bind.mp hg with ⟨t₁, t₂, v, s₁, rfl, h₁, h₂⟩ | ⟨e, h₁, rfl⟩
  · obtain ⟨hclean, hv⟩ := hx _ _ _ h₁ fun hk y hy => hreg hk y (List.mem_append_left _ hy)
    refine .after hclean (hf v s₁ hv (hr _ _ _ h₁) _ _ _ h₂ fun hk y hy => ?_)
    exact hreg hk y (List.mem_append_right _ hy)
  · exact hx _ _ _ h₁ hreg

theorem bind {f : α → Task σ β} (hx : Surfaces k x s P)
    (hf : ∀ v s', P v → Surfaces k (f v) s' Q) : Surfaces k (x >>= f) s Q :=
  .bindOf (R := fun _ => True) hx (fun _ _ _ _ => trivial) fun v s' hv _ => hf v s' hv

/-- What comes first leaves what is worked on. -/
theorem bindSpares {f : α → Task σ β} (hs : Spares x) (hx : Surfaces k x s P)
    (hf : ∀ v s', P v → s'.work = s.work → Surfaces k (f v) s' Q) : Surfaces k (x >>= f) s Q :=
  .bindOf (R := fun s' => s'.work = s.work) hx (fun _ _ _ hg => hs _ _ _ _ hg) hf

theorem work_bind {f : σ → Task σ β} (h : Surfaces k (f s.work) s Q) :
    Surfaces k (work >>= f) s Q :=
  fun t r s' hg hreg => h t r s' (goes_work_bind.mp hg) hreg

theorem changeWork_bind {g : σ → σ} {f : Unit → Task σ β}
    (h : Surfaces k (f ()) { s with work := g s.work } Q) :
    Surfaces k (Task.changeWork g >>= f) s Q :=
  fun t r s' hg hreg => h t r s' (goes_changeWork_bind.mp hg) hreg

theorem changeWork {g : σ → σ} {P : Unit → Prop} (h : P ()) :
    Surfaces k (changeWork g) s P := by
  intro t r s' hg _
  obtain ⟨rfl, rfl, _⟩ := goes_changeWork.mp hg
  exact ⟨fun _ => rfl, h⟩

/-- What surfaces from every standing, whatever comes out. -/
theorem closed (k : Prop) : Closed (fun e => e.isConflict = false ∧ (k → e.isOwn = true))
    fun {α} (x : Task σ α) => ∀ s, Surfaces k x s fun _ => True where
  pure _ := fun _ => pure trivial
  fail h := fun _ => fail h.1 h.2
  bind hx hf := fun s => bind (hx s) fun v s' _ => hf v s'

theorem forM {l : List β} {f : β → Task σ PUnit}
    (hf : ∀ v ∈ l, ∀ s, Surfaces k (f v) s fun _ => True) :
    Surfaces k (l.forM f) s fun _ => True :=
  (closed k).forM hf s

/-! ## Statements -/

theorem execute {st : Sql.Statement} {intent : String} {P : List Row → Prop}
    (ht : k → ∃ text, st.text = .ok text)
    (hp : ∀ rows, (k → Exchange.IsRegular ⟨.execute st, .ok rows⟩) → P rows) :
    Surfaces k (execute st intent : Task σ (List Row)) s P := by
  intro t r s' hg hreg
  obtain ⟨_, ⟨e, he, rfl, rfl⟩ | ⟨_, a, _, rfl, rfl⟩⟩ := goes_execute.mp hg
  · refine ⟨rfl, fun hk => ?_⟩
    obtain ⟨text, ht⟩ := ht hk
    cases he.symm.trans ht
  · cases a with
    | ok rows =>
      exact ⟨fun _ => rfl, hp rows fun hk => hreg hk _ (List.mem_singleton_self _)⟩
    | error e => exact ⟨e.isConflict_toError intent, fun _ => .of_statement st e intent⟩

theorem query {q : Sql.Query} {intent : String} (hl : k → q.Legible) :
    Surfaces k (Task.execute (.query q) intent : Task σ (List Row)) s fun rows => k → q.Takes rows :=
  .execute (fun hk => Sql.Query.exists_text (hl hk).1 (hl hk).2) fun _ h => h

/-- A question with one answer. -/
theorem askOne {q : Sql.Query} {intent : String} {P : Value → Prop} (hl : k → q.Legible)
    (hp : ∀ rows, q.Takes rows → ∃ v, rows = [[v]] ∧ P v) :
    Surfaces k (Catalog.askOne q intent : Task σ Value) s fun v => k → P v := by
  refine .bind (.query hl) fun rows _ hr => ?_
  refine .ofExcept (fun e he => ⟨?_, fun hk => ?_⟩) fun v hv hk => ?_
  · unfold Catalog.firstCell at he
    split at he <;> cases he
    rfl
  · obtain ⟨v, rfl, _⟩ := hp rows (hr hk)
    cases he
  · obtain ⟨w, rfl, hw⟩ := hp rows (hr hk)
    cases hv
    exact hw

/-- A question of whose answer nothing needs to be known. -/
theorem asked {q : Sql.Query} {intent : String} (hl : k → q.Legible)
    (hq : ∀ rows, q.Takes rows → ∃ v, rows = [[v]]) :
    Surfaces k (Catalog.askOne q intent : Task σ Value) s fun _ => True :=
  (askOne (P := fun _ => True) hl fun rows h => (hq rows h).imp fun _ hv => ⟨hv, trivial⟩).mono
    fun _ _ => trivial

theorem changeOf {c : Sql.Change} {intent : String}
    (ht : k → ∃ text, Sql.Statement.text c = .ok text) :
    Surfaces k (Catalog.change c intent : Task σ Unit) s fun _ => True :=
  .bind (.execute (P := fun _ => True) ht fun _ _ => trivial) fun _ _ _ => .pure trivial

theorem change {c : Sql.Change} {intent : String} (hc : c.isVersioned = false) :
    Surfaces k (Catalog.change c intent : Task σ Unit) s fun _ => True :=
  .changeOf fun _ => Sql.Change.exists_text hc

theorem commit : Surfaces k (commit : Task σ Unit) s fun _ => True := by
  intro t r s' hg _
  obtain ⟨_, a, rfl, rfl⟩ := goes_commit.mp hg
  cases a with
  | ok v => exact ⟨fun _ => rfl, trivial⟩
  | error e => exact ⟨e.isConflict_toCommitError, fun _ => .of_commit e⟩

/-! ## Elevations -/

theorem savepoint (h : Surfaces k x s P) : Surfaces k (savepoint x) s P := by
  intro t r s' hg hreg
  rcases goes_savepoint.mp hg with ⟨e, rfl, _, rfl⟩ | ⟨u, v, a, rfl, hu, rfl⟩ | ⟨u, f, a, rfl, hu, rfl⟩
  · refine ⟨rfl, fun hk => ?_⟩
    rcases hreg hk _ (List.mem_singleton_self _) with hc | he
    · cases hc
    · cases he
  all_goals
    have hbody := h _ _ _ hu fun hk y hy =>
      hreg hk y (List.mem_cons_of_mem _ (List.mem_append_left _ hy))
    have hlast (hk : k) := hreg hk _ (List.mem_cons_of_mem _ List.mem_concat_self)
  · exact .cons rfl (hbody.marked (by decide) hlast)
  · exact .cons rfl (hbody.marked (by decide) hlast)

theorem elevationFor {role actor : Value} (hr : k → role.IsWritable) (ha : k → actor.IsWritable) :
    Surfaces k (elevationFor role actor : Task σ _) s fun _ => True := by
  refine (closed k).elevationFor (fun _ => asked (fun hk => ?_) fun _ h => h)
    (fun _ => asked (fun hk => ?_) fun _ h => h) (fine_name hr) (fine_name ha) s
  · obtain ⟨r, rfl, hr₀⟩ := hr hk
    obtain ⟨a, rfl, ha₀⟩ := ha hk
    exact ⟨rfl, Sql.writable_cons.mpr ⟨ha₀, Sql.writable_cons.mpr ⟨hr₀, by decide⟩⟩⟩
  · obtain ⟨r, rfl, hr₀⟩ := hr hk
    obtain ⟨a, rfl, ha₀⟩ := ha hk
    exact ⟨rfl, Sql.writable_cons.mpr ⟨hr₀, Sql.writable_cons.mpr ⟨ha₀, by decide⟩⟩⟩

theorem elevated {role actor : Value} (hr : k → role.IsWritable) (ha : k → actor.IsWritable)
    (hx : ∀ s, Surfaces k x s P) : Surfaces k (elevated role actor x) s P := by
  intro t r s' hg hreg
  have asked : Surfaces k (Task.elevationFor role actor : Task σ _) s fun _ => True :=
    .elevationFor hr ha
  cases goes_elevated hg with
  | failed h₀ => exact asked _ _ _ h₀ hreg
  | needless h₀ h =>
    have hfirst := asked _ _ _ h₀ fun hk y hy => hreg hk y (List.mem_append_left _ hy)
    refine .after hfirst.1 (hx _ _ _ _ h fun hk y hy => hreg hk y (List.mem_append_right _ hy))
  | refused h₀ =>
    have hfirst := asked _ _ _ h₀ fun hk y hy => hreg hk y (List.mem_append_left _ hy)
    exact .after hfirst.1 ⟨DriverError.isConflict_toError _ _, fun _ => .of_statement _ _ _⟩
  | held h₀ h =>
    have hfirst := asked _ _ _ h₀ fun hk y hy => hreg hk y (List.mem_append_left _ hy)
    refine .after hfirst.1 (.cons rfl (.takenBack ?_ _ _ _ _))
    exact (savepoint (hx s)) _ _ _ h fun hk y hy => hreg hk y
      (List.mem_append_right _ (List.mem_cons_of_mem _ (List.mem_append_left _ hy)))

/-! ## Connections and transactions -/

theorem locked {mode : LockMode} (hx : Surfaces k x s P) : Surfaces k (locked mode x) s P := by
  intro t r s' hg hreg
  obtain ⟨u, rfl, hu⟩ := goes_locked.mp hg
  exact .cons rfl (.concat rfl (hx _ _ _ hu fun hk y hy =>
    hreg hk y (List.mem_cons_of_mem _ (List.mem_append_left _ hy))))

theorem transaction {c : Client} {name : String}
    (hx : ∀ s₀, s₀.work = s.work → Surfaces k x s₀ P) :
    Surfaces k (c.transaction name x) s P := by
  intro t r s' hg hreg
  obtain ⟨t₀, s₀, he, ⟨e, rfl, _, rfl⟩ | ⟨p, u, rfl, h⟩⟩ := goes_transaction hg
  · refine ⟨rfl, fun hk => ?_⟩
    obtain ⟨_, ha, _⟩ := hreg hk _ (List.mem_append_right _ (List.mem_singleton_self _))
    cases ha
  · have hin (hk : k) : ∀ y ∈ u, y.IsRegular := fun y hy =>
      hreg hk y (List.mem_append_right _ (List.mem_cons_of_mem _ (List.mem_append_left _ hy)))
    refine .after (fun _ => he.faults_eq) (.cons rfl (.concat rfl ?_))
    rcases h with ⟨e, rfl, _, rfl, hp⟩ | ⟨e, rfl, _, rfl⟩ | ⟨v, w, o, o', s₁, rfl, hv, hw, rfl⟩
    · refine ⟨by rcases Peer.eq_of_check hp with rfl | rfl <;> rfl, fun hk => ?_⟩
      obtain ⟨_, ha, hc⟩ := hreg hk _ (List.mem_append_right _ List.mem_cons_self)
      cases ha
      cases hc.symm.trans hp
    · refine ⟨rfl, fun hk => ?_⟩
      rcases hin hk _ (List.mem_singleton_self _) with hc | ha
      · cases hc
      · cases ha
    · have hbody := hx (s₀.within true) (setUp_frame he).1 _ _ _ hv fun hk y hy =>
        hin hk y (List.mem_cons_of_mem _ (List.mem_append_left _ hy))
      refine .cons rfl ?_
      rcases goes_rollback.mp hw with ⟨_, rfl, rfl, _⟩ | ⟨_, _, a, rfl, rfl⟩
      · rw [List.append_nil]
        exact hbody
      · exact hbody.marked (by decide) fun hk => hin hk _ (by simp)

theorem committed {c : Client} {name : String} {x : Task σ Unit}
    (hx : ∀ s₀, s₀.work = s.work → Surfaces k x s₀ fun _ => True) :
    Surfaces k (c.committed name x) s fun _ => True :=
  .transaction fun s₀ hs => .bind (hx s₀ hs) fun _ _ _ => .commit

theorem version (c : Client) : Surfaces k (c.version : Task σ Version) s fun _ => True := by
  intro t r s' hg hreg
  rcases goes_version hg with ⟨v, _, rfl, rfl, _⟩ | ⟨t₀, s₀, _, he, h⟩
  · exact ⟨fun _ => rfl, trivial⟩
  · rcases h with ⟨e, rfl, _, rfl⟩ | ⟨p, v, rfl, rfl, _⟩
    · refine ⟨rfl, fun hk => ?_⟩
      obtain ⟨_, ha, _⟩ := hreg hk _ (List.mem_append_right _ (List.mem_singleton_self _))
      cases ha
    · exact .after (u := [_, _]) (fun _ => he.faults_eq) ⟨fun _ => rfl, trivial⟩

theorem supports (c : Client) (f : Feature) :
    Surfaces k (c.supports f : Task σ Bool) s fun _ => True :=
  .bind (.version c) fun _ _ _ => .pure trivial

theorem require (c : Client) (f : Feature) (resource : String) :
    Surfaces k (c.require f resource : Task σ Unit) s fun _ => True :=
  (closed k).require (fun _ => version c) (fun _ => ⟨rfl, fun _ => rfl⟩) s

end Surfaces

/-! ## Removals -/

/-- Where something was missing and the removal was given up for that, this is the first fault, and
the others are memberships that could not be taken back. The driver was never silent. -/
def Forgiven (ys : List Fault) : Prop := (∀ y ∈ ys, y.isSilent = false) ∧
  ∃ y later, ys = y :: later ∧ y.isMissing = true ∧ ∀ z ∈ later, z.isTakingBack = true

theorem forgiven_of_isNotFound {ys : List Fault} {f : Failure} (h : AccountsFor ys f)
    (hf : f.error.isNotFound = true) : Forgiven ys := by
  rcases h with ⟨_, he⟩ | ⟨haudible, later, ⟨_, ho⟩ | ⟨y, hy, hb⟩, hback, _⟩
  · rw [he] at hf
    cases hf
  · cases hfe : f.error with
    | notFound _ _ =>
      rw [hfe] at ho
      cases ho
    | _ =>
      rw [hfe] at hf
      cases hf
  · exact ⟨haudible, y, later, hy, hb.isNotFound ▸ hf, hback⟩

/-- The task fails in a way that is accounted for, or it returns; then there was no fault, or one
that the task forgives. -/
def Forgives (k : Prop) (x : Task σ Unit) (s : Standing σ) : Prop :=
  ∀ (t : List Exchange) (r : Except Failure Unit) (s' : Standing σ), Goes x s t r s' →
    (k → ∀ y ∈ t, y.IsRegular) → match r with
      | .ok _ => k → faults t = [] ∨ Forgiven (faults t)
      | .error f => Fails k (faults t) f

namespace Forgives

variable {s : Standing σ}

theorem bindSpares {x : Task σ α} {f : α → Task σ Unit} {P : α → Prop} (hs : Spares x)
    (hx : Surfaces k x s P) (hf : ∀ v s', P v → s'.work = s.work → Forgives k (f v) s') :
    Forgives k (x >>= f) s := by
  intro t r s' hg hreg
  rcases goes_bind.mp hg with ⟨t₁, t₂, v, s₁, rfl, h₁, h₂⟩ | ⟨e, h₁, rfl⟩
  · obtain ⟨hclean, hv⟩ := hx _ _ _ h₁ fun hk y hy => hreg hk y (List.mem_append_left _ hy)
    have hrest := hf v s₁ hv (hs _ _ _ _ h₁) _ _ _ h₂ fun hk y hy =>
      hreg hk y (List.mem_append_right _ hy)
    have he (hk : k) : faults (t₁ ++ t₂) = faults t₂ := by
      rw [faults_append, hclean hk, List.nil_append]
    cases r with
    | ok w => exact fun hk => he hk ▸ hrest hk
    | error f => exact ⟨hrest.1, fun hk => he hk ▸ hrest.2 hk⟩
  · exact hx _ _ _ h₁ hreg

theorem work_bind {f : σ → Task σ Unit} (h : Forgives k (f s.work) s) :
    Forgives k (work >>= f) s :=
  fun t r s' hg hreg => h t r s' (goes_work_bind.mp hg) hreg

/-- A removal under a lock, after which what is worked on is changed. -/
theorem removal {mode : LockMode} {x : Task σ Unit} {f : σ → σ}
    (hx : Surfaces k x s fun _ => True) : Forgives k (do
      locked mode (unlessMissing x)
      changeWork f) s := by
  intro t r s' hg hreg
  obtain ⟨w, o, s₁, rfl, hw, h⟩ := goes_forgetting hg
  have hrun : Surfaced k (fun _ => True) (faults w) o := hx _ _ _ hw fun hk y hy =>
    hreg hk y (List.mem_cons_of_mem _ (List.mem_append_left _ hy))
  have hall : Surfaced k (fun _ => True)
      (faults (⟨.acquire mode, ()⟩ :: (w ++ [⟨.release mode, ()⟩]))) o :=
    .cons rfl (.concat rfl hrun)
  rcases h with ⟨rfl, _, rfl | ⟨e, rfl, he⟩⟩ | ⟨e, rfl, rfl, _⟩
  · exact fun hk => .inl (hall.1 hk)
  · exact fun hk => .inr (forgiven_of_isNotFound (hall.2 hk) he)
  · exact hall

end Forgives

end Task

end DeclaredAccess
