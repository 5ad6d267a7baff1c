import DeclaredAccess.Proofs.Grant.Refresh
import DeclaredAccess.Proofs.Session.Snapshot

/-! Grants against a catalog that stays as it is. Whether the role, the database and the schema exist,
and what the role holds on each object, is then fixed by what the server answers, and so is what a read
makes of a resource: it fails for every resource that was applied as the same grant, or it returns for
all of them. -/

namespace DeclaredAccess

open DeclaredAccess.Task (Goes Spares exists_of_run_bind exists_of_run_ofExcept_bind goes_run
  run_bind_ok run_require version_of_goes_require)

variable {σ : Type} {c : Client} {g : Grant}

namespace Snapshot

variable {w : Snapshot} {d d' : String}

/-! ## What is there -/

/-- The rows that a question is answered with; there are none where it fails. -/
def rows (w : Snapshot) (database : String) (q : Sql.Query) : List Row :=
  match w.answer database (.execute (.query q)) with
  | .ok rows => rows
  | .error _ => []

theorem rows_of_answer {q : Sql.Query} {rows : List Row}
    (h : w.answer d (.execute (.query q)) = .ok rows) : w.rows d q = rows := by
  unfold Snapshot.rows
  rw [h]

/-- Whether the first value that a question is answered with counts. -/
def affirms (w : Snapshot) (database : String) (q : Sql.Query) : Bool :=
  match w.rows database q with
  | (v :: _) :: _ => v.truthy
  | _ => false

/-- Whether the role, the database and the schema of a grant exist. `PUBLIC` always does, and a grant
on a database has no schema. -/
def hosts (w : Snapshot) (c : Client) (g : Grant) : Bool :=
  (g.role.isEmpty || w.affirms (c.databaseOr "") (.roleExists g.role)) &&
    w.affirms (c.databaseOr "") (.databaseExists g.database) &&
    (g.kind = .database || w.affirms (c.databaseOr g.database) (.schemaExists g.schema))

/-- What the role of a grant holds on each object of the target that exists. -/
def found (w : Snapshot) (c : Client) (g : Grant) : Holdings :=
  (Holdings.ofRows g.role (w.rows (c.databaseOr g.database)
    (.objectPrivileges g.role g.target))).toOption.getD []

theorem tells_askOne (w : Snapshot) (q : Sql.Query) (intent : String) (d : String) :
    w.Tells (Catalog.askOne q intent : Task σ Value) d fun v => v.truthy = w.affirms d q := by
  refine (w.tells_query q intent Catalog.firstCell d).mono ?_
  rintro v ⟨rows, ha, hv⟩
  unfold affirms
  rw [rows_of_answer ha]
  unfold Catalog.firstCell at hv
  split at hv
  · cases hv
    rfl
  · cases hv

theorem tells_findsRole (w : Snapshot) (g : Grant) (d : String) :
    w.Tells (g.findsRole : Task σ Bool) d fun b =>
      b = ((g.role.isEmpty || w.affirms d (.roleExists g.role)) &&
        w.affirms d (.databaseExists g.database)) := by
  have database : w.Tells (do return (← Catalog.databaseExists g.database).truthy : Task σ Bool) d
      fun b => b = w.affirms d (.databaseExists g.database) :=
    (w.tells_askOne _ _ d).bind fun _ hv => .pure hv
  unfold Grant.findsRole
  cases hr : g.role.isEmpty with
  | true => exact database
  | false =>
    refine (w.tells_askOne _ _ d).bind fun v hv => ?_
    rw [← hv]
    cases v.truthy with
    | true => exact database
    | false => exact .pure rfl

theorem finds_isPresent (w : Snapshot) (c : Client) (g : Grant) :
    w.Finds (g.isPresent c : Task σ Bool) fun b => b = w.hosts c g := by
  unfold Grant.isPresent hosts
  refine (w.tells_findsRole g _).transaction.bind fun b hb => ?_
  rw [← hb]
  cases b with
  | false => exact .pure rfl
  | true =>
    by_cases hk : g.kind = .database
    · simp only [hk]
      exact .pure rfl
    · simp only [hk]
      have schema : w.Tells (g.findsSchema : Task σ Bool) (c.databaseOr g.database) fun b =>
          b = w.affirms (c.databaseOr g.database) (.schemaExists g.schema) :=
        (w.tells_askOne _ _ _).bind fun _ hv => .pure hv
      exact schema.transaction.mono fun _ hb => by simpa using hb

theorem finds_objectPrivileges (w : Snapshot) (c : Client) (g : Grant) :
    w.Finds (c.transaction g.database (Catalog.objectPrivileges g.role g.target) : Task σ Holdings)
      fun held => held = w.found c g := by
  refine Tells.transaction ((w.tells_query _ _ (Holdings.ofRows g.role) _).mono ?_)
  rintro held ⟨rows, ha, hh⟩
  rw [found, rows_of_answer ha, hh]
  rfl

/-! ## What is made of a resource -/

/-- What a comparison with the catalog makes of a resource. -/
def judge (w : Snapshot) (c : Client) (g : Grant) (r : Resource) : Resource :=
  if w.hosts c g then g.settle (w.found c g) (g.identified r) else r.setId ""

/-- Whether the catalog can be compared with a grant: everything is answered as it has to be. -/
structure Permits (w : Snapshot) (c : Client) (g : Grant) : Prop where
  present : w.Looks (g.isPresent c : Task Resource Bool) (.ok (w.hosts c g))
  found : w.hosts c g = true → w.Looks (c.transaction g.database
    (Catalog.objectPrivileges g.role g.target) : Task Resource Holdings) (.ok (w.found c g))
  ordered : w.hosts c g = true → ∃ vs, Value.inOrder (w.found c g).names = .ok vs

theorem Permits.run_refresh (h : w.Permits c g) (s : Standing Resource) (d : String) :
    ∃ s' d', (g.refresh c).run w.serve s d = ((.ok (), s'), d') ∧
      s'.work = w.judge c g s.work ∧ s'.session.version = s.session.version := by
  obtain ⟨s₁, d₁, h₁, hw₁, hv₁⟩ := h.present s d
  unfold judge
  cases hh : w.hosts c g with
  | false =>
    rw [hh] at h₁
    refine ⟨{ s₁ with work := s₁.work.setId "" }, d₁, (run_bind_ok h₁).trans rfl, ?_, hv₁⟩
    exact congrArg (Resource.setId · "") hw₁
  | true =>
    rw [hh] at h₁
    obtain ⟨s₂, d₂, h₂, hw₂, hv₂⟩ := h.found hh { s₁ with work := g.identified s₁.work } d₁
    obtain ⟨vs, hvs⟩ := h.ordered hh
    refine ⟨{ s₂ with work := g.settle (w.found c g) s₂.work }, d₂, ?_, ?_, hv₂.trans hv₁⟩
    · refine (run_bind_ok h₁).trans ((run_bind_ok (a := ()) rfl).trans ((run_bind_ok h₂).trans ?_))
      rw [hvs]
      rfl
    · show g.settle (w.found c g) s₂.work = g.settle (w.found c g) (g.identified s.work)
      rw [hw₂, hw₁]

/-- Where a comparison returns once, the catalog can be compared with the grant. -/
theorem permits_of_run_refresh {s s' : Standing Resource}
    (h : (g.refresh c).run w.serve s d = ((.ok (), s'), d')) : w.Permits c g := by
  obtain ⟨b, s₁, d₁, h₁, h⟩ := exists_of_run_bind h
  obtain ⟨hpresent, rfl⟩ := (w.finds_isPresent c g).of_run h₁
  by_cases hh : w.hosts c g = true
  · rw [if_pos hh] at h
    obtain ⟨_, s₂, d₂, _, h⟩ := exists_of_run_bind h
    obtain ⟨held, s₃, d₃, h₃, h⟩ := exists_of_run_bind h
    obtain ⟨hfound, rfl⟩ := (w.finds_objectPrivileges c g).of_run h₃
    obtain ⟨_, s₄, d₄, h₄, _⟩ := exists_of_run_bind h
    obtain ⟨vs, hvs, _⟩ := exists_of_run_ofExcept_bind h₄
    exact ⟨hpresent, fun _ => hfound, fun _ => ⟨vs, hvs⟩⟩
  · exact ⟨hpresent, fun h => absurd h hh, fun h => absurd h hh⟩

/-! ## Reads -/

/-- A read that returns has compared the catalog with the grant as it was last applied. -/
theorem of_run_read {s s' : Standing Resource}
    (h : (Grant.read c).run w.serve s d = ((.ok (), s'), d')) :
    (∃ g, Grant.applied s.work = .ok g ∧ w.Permits c g ∧ s'.work = w.judge c g s.work) ∧
      ∃ v, s'.session.version = some v ∧ v.supports .privileges = true := by
  obtain ⟨_, s₁, d₁, h₁, h⟩ := exists_of_run_bind h
  obtain ⟨t, hg⟩ := goes_run w.serve (c.require .privileges Grant.resourceName) s d
  rw [h₁] at hg
  have hw : s₁.work = s.work := Spares.require _ _ _ _ _ _ _ hg
  obtain ⟨v, hv, hs⟩ := version_of_goes_require hg
  obtain ⟨r, _, _, h₂, h⟩ := exists_of_run_bind h
  cases h₂
  obtain ⟨g, ha, h⟩ := exists_of_run_ofExcept_bind h
  rw [run_locked] at h
  have hp := permits_of_run_refresh h
  obtain ⟨s₂, d₂, h₂, hw₂, hv₂⟩ := hp.run_refresh s₁ d₁
  cases h.symm.trans h₂
  exact ⟨⟨g, hw ▸ ha, hp, hw ▸ hw₂⟩, v, hv₂.trans hv, hs⟩

/-- A read returns where the version is known and the catalog can be compared with the grant as it was
last applied. -/
theorem Permits.run_read {s : Standing Resource} {v : Version} (h : w.Permits c g)
    (ha : Grant.applied s.work = .ok g) (hv : s.session.version = some v)
    (hs : v.supports .privileges = true) (d : String) :
    ∃ s' d', (Grant.read c).run w.serve s d = ((.ok (), s'), d') ∧
      s'.work = w.judge c g s.work := by
  obtain ⟨s', d', hr, hw, _⟩ := h.run_refresh s d
  refine ⟨s', d', ?_, hw⟩
  refine (run_bind_ok (run_require hv hs d)).trans ((run_bind_ok (a := s.work) rfl).trans ?_)
  rw [ha]
  exact (w.run_locked .read (g.refresh c) s d).trans hr

end Snapshot

/-- Reading a grant as an operation answers nothing. -/
theorem Operation.run_readGrant_iff {w : Snapshot} {s s' : Standing Resource} {d d' : String}
    {a : Value} : (readGrant.run c).run w.serve s d = ((.ok a, s'), d') ↔
      a = .null ∧ (Grant.read c).run w.serve s d = ((.ok (), s'), d') :=
  run_quiet_iff

end DeclaredAccess
