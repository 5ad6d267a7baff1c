import DeclaredAccess.Proofs.Schema.Accepted

/-! Identifiers of schemas. A point parts the database from the schema, and an identifier is taken
apart at the first one; so it leads back to where it came from exactly if there is no point in the
name of the database. Whoever creates or updates a schema refuses such a database, but whoever reads
one by its name does not, and writes down an identifier that leads elsewhere. -/

namespace DeclaredAccess

/-- A step that is left out where its condition does not hold, as a step of its own. -/
theorem Task.goes_whenThen {σ α : Type} {s s' : Standing σ} {t : List Exchange} {p : Prop}
    [Decidable p] {x : Task σ Unit} {f : Unit → Task σ α} {o : Except Failure α}
    (h : Task.Goes (if p then x >>= f else f ()) s t o s') :
    Task.Goes ((if p then x else pure ()) >>= f) s t o s' := by
  split
  · rwa [if_pos ‹p›] at h
  · rwa [if_neg ‹¬p›] at h

open DeclaredAccess.Task (Goes goes_askOne_ok goes_bind_ok goes_changeWork goes_changeWork_bind goes_locked
  goes_ofExcept_bind_ok goes_pure goes_transaction_succeeds goes_whenThen goes_work_bind)

/-- Where something follows the first mark, a text is cut there and nowhere else. -/
theorem Text.eq_of_cut {mark : Char} {cs w r : List Char} (h : cut mark cs = (w, r)) (hr : r ≠ []) :
    cs = w ++ mark :: r ∧ mark ∉ w := by
  obtain ⟨rfl, rfl⟩ := Prod.mk.inj h
  have absent : mark ∉ cs.takeWhile (· != mark) := fun hm => by
    simpa using List.all_eq_true.mp List.all_takeWhile _ hm
  refine ⟨?_, absent⟩
  cases hd : cs.dropWhile (· != mark) with
  | nil => simp [hd] at hr
  | cons c rest =>
    have hc : c = mark := by
      have first := List.head_dropWhile_not (· != mark) (l := cs) (by simp [hd])
      simpa [hd] using first
    rw [List.drop_one, List.tail_cons, ← hc, ← hd, hc, List.takeWhile_append_dropWhile]

theorem Catalog.eq_text_of_name {v : Value} {n : String} (h : Catalog.name v = .ok n) :
    v = .text n := by
  unfold Catalog.name at h
  split at h
  · cases h
    rfl
  · cases h

namespace Schema

variable {c : Client} {id database name : String} {r : Resource} {t u : List Exchange}

/-! ## Identifiers -/

theorem ofId_eq_ok_iff : ofId id = .ok (database, name) ↔
    id = idOf database name ∧ '.' ∉ database.toList ∧ database ≠ "" ∧ name ≠ "" := by
  constructor
  · intro h
    unfold ofId at h
    split at h
    rename_i d n hcut
    split at h
    · cases h
    · rename_i hne
      cases h
      simp only [Bool.or_eq_true, List.isEmpty_iff, not_or] at hne
      obtain ⟨hid, hmark⟩ := Text.eq_of_cut hcut hne.2
      refine ⟨String.toList_inj.mp ?_, by simpa using hmark, ?_, ?_⟩
      · simp [idOf, hid]
      · simpa using hne.1
      · simpa using hne.2
  · rintro ⟨rfl, hmark, hd, hn⟩
    have hcut : Text.cut '.' (idOf database name).toList = (database.toList, name.toList) := by
      rw [idOf, String.toList_append, String.toList_append, List.append_assoc]
      exact Text.cut_append_mark hmark name.toList
    simp only [ofId, hcut]
    simp [hd, hn]

/-- Where a resource is that has nothing but an identifier. -/
theorem databaseAndName_id : databaseAndName c { id } = .ok (.text database, .text name) ↔
    ofId id = .ok (database, name) := by
  change (ofId id >>= fun p => pure (Value.text p.1, Value.text p.2)) = _ ↔ _
  cases ofId id with
  | error e => exact iff_of_false (by simp [bind, Except.bind]) (by simp)
  | ok p =>
    obtain ⟨d, n⟩ := p
    simp [bind, Except.bind, pure, Except.pure]

/-- With a point in the name of its database, a resource is found by its name only. -/
theorem ne_empty_of_databaseAndName
    (h : databaseAndName c r = .ok (.text database, .text name)) : database ≠ "" ∧ name ≠ "" ∧
      ('.' ∈ database.toList → (r.getD "name" (.text "")).truthy = true) := by
  unfold databaseAndName at h
  dsimp only at h
  split at h
  · rename_i hn
    obtain ⟨hd, hname⟩ := Prod.mk.inj (Except.ok.inj h)
    refine ⟨?_, ?_, fun _ => hn⟩
    · split at hd
      · rename_i htruthy
        rw [hd] at htruthy
        simpa [Value.truthy] using htruthy
      · cases hd
        exact c.defaultDatabase_ne_empty
    · rw [hname] at hn
      simpa [Value.truthy] using hn
  · obtain ⟨⟨d, n⟩, hid, h⟩ := exists_of_bind_eq_ok h
    cases h
    obtain ⟨-, hmark, hd, hn⟩ := ofId_eq_ok_iff.mp hid
    exact ⟨hd, hn, fun hm => absurd hm hmark⟩

/-- A declared database has a name without a point. -/
theorem database_of_ofResource {x : Schema} (h : ofResource r c.defaultDatabase = .ok x) :
    x.database ≠ "" ∧ '.' ∉ x.database.toList := by
  obtain ⟨database, hdatabase, h⟩ := exists_of_bind_eq_ok h
  obtain ⟨_, _, h⟩ := exists_of_bind_eq_ok h
  obtain ⟨_, _, h⟩ := exists_of_bind_eq_ok h
  obtain ⟨_, _, h⟩ := exists_of_bind_eq_ok h
  cases h
  obtain ⟨given, _, h⟩ := exists_of_bind_eq_ok hdatabase
  obtain ⟨hmarks, h⟩ := of_guard_eq_ok h
  cases h
  refine ⟨?_, fun hm => hmarks (List.any_eq_true.mpr ⟨'.', hm, rfl⟩)⟩
  split
  · exact c.defaultDatabase_ne_empty
  · rename_i hg
    simpa using hg

/-! ## Runs -/

/-- A question that was the first in a transaction over a connection to a database, and that was
answered. -/
def Asks (database : String) (q : Sql.Query) (t : List Exchange) : Prop :=
  ∃ u peer rows w, t = u ++ ⟨.connect database, .ok peer⟩ :: ⟨.mark .begin, .ok ()⟩ ::
    ⟨.execute (.query q), .ok rows⟩ :: w

theorem Asks.append {q : Sql.Query} (h : Asks database q t) (u w : List Exchange) :
    Asks database q (u ++ (t ++ w)) := by
  obtain ⟨v, peer, rows, x, rfl⟩ := h
  exact ⟨u ++ v, peer, rows, x ++ w, by simp⟩

variable {s s' : Standing Resource} {σ α : Type}

theorem asks_of_transaction {s s' : Standing σ} {body : Task σ α} {q : Sql.Query} {v : α}
    (first : ∀ s u s', Goes body s u (.ok v) s' →
      ∃ rows w, u = ⟨.execute (.query q), .ok rows⟩ :: w)
    (h : Goes (c.transaction database body) s t (.ok v) s') : Asks (c.databaseOr database) q t := by
  obtain ⟨t₀, s₀, peer, u, w, s₁, -, hbody, -, rfl⟩ := goes_transaction_succeeds h
  obtain ⟨rows, x, rfl⟩ := first _ _ _ hbody
  exact ⟨t₀, peer, rows, x ++ w ++ [⟨.disconnect, ()⟩], by simp⟩

theorem asks_of_askOne {s s' : Standing σ} {q : Sql.Query} {intent : String} {v : Value}
    (h : Goes (c.transaction database (Catalog.askOne q intent)) s t (.ok v) s') :
    Asks (c.databaseOr database) q t := by
  refine asks_of_transaction (fun _ _ _ hb => ?_) h
  obtain ⟨_, rows, rfl, _⟩ := goes_askOne_ok hb
  exact ⟨rows, [], rfl⟩

theorem id_of_settle {owner v : Value} {entries : List Value} {r' : Resource}
    (h : settle database v owner entries r = .ok r') : r'.id = idOf database v.plain := by
  obtain ⟨_, _, h⟩ := exists_of_bind_eq_ok h
  obtain ⟨_, _, h⟩ := exists_of_bind_eq_ok h
  obtain ⟨_, _, h⟩ := exists_of_bind_eq_ok h
  cases h
  rfl

/-- A comparison with the catalog asks for the schema, and leaves its identifier or none. -/
theorem asks_of_refresh (hd : database ≠ "")
    (h : Goes (refresh c database (.text name)) s t (.ok ()) s') :
    Asks database (.schema (.text name)) t ∧
      (s'.work.id = "" ∨ s'.work.id = idOf database name) := by
  obtain ⟨t₁, t₂, found, s₁, rfl, h₁, h₂⟩ := goes_bind_ok.mp h
  have asked : Asks (c.databaseOr database) (.schema (.text name)) t₁ :=
    asks_of_transaction (fun _ _ _ hb => by
      obtain ⟨rows, rfl, -⟩ := Catalog.goes_schema_ok hb
      exact ⟨rows, [], rfl⟩) h₁
  rw [c.databaseOr_of_ne hd] at asked
  refine ⟨by simpa using asked.append [] t₂, ?_⟩
  cases found with
  | none =>
    obtain ⟨-, -, rfl⟩ := goes_changeWork.mp h₂
    exact .inl rfl
  | some found =>
    obtain ⟨r, hr, h₃⟩ := goes_ofExcept_bind_ok.mp (goes_work_bind.mp h₂)
    obtain ⟨-, -, rfl⟩ := goes_changeWork.mp h₃
    exact .inr (id_of_settle hr)

/-- What is done to a declared schema is compared with the catalog afterwards. -/
theorem asks_of_declared {x : Schema} {write : Task Resource Unit}
    (hx : ofResource r c.defaultDatabase = .ok x)
    (h : Goes (Task.locked .write do
      write
      Task.changeWork (·.setId (idOf x.database x.name))
      refresh c x.database (.text x.name)) s t (.ok ()) s') (hid : s'.work.id ≠ "") :
    Asks x.database (.schema (.text x.name)) t ∧ s'.work.id = idOf x.database x.name := by
  obtain ⟨u, rfl, h₁⟩ := goes_locked.mp h
  obtain ⟨t₁, t₂, _, s₁, rfl, -, h₂⟩ := goes_bind_ok.mp h₁
  obtain ⟨asked, hend⟩ :=
    asks_of_refresh (database_of_ofResource hx).1 (goes_changeWork_bind.mp h₂)
  refine ⟨?_, hend.resolve_left hid⟩
  simpa using asked.append (⟨.acquire .write, ()⟩ :: t₁) [⟨.release .write, ()⟩]

theorem asks_of_create (h : Goes (create c) s t (.ok ()) s') (hid : s'.work.id ≠ "") :
    ∃ x, ofResource s.work c.defaultDatabase = .ok x ∧ Asks x.database (.schema (.text x.name)) t ∧
      s'.work.id = idOf x.database x.name := by
  obtain ⟨x, hx, h₁⟩ := goes_ofExcept_bind_ok.mp (goes_work_bind.mp h)
  exact ⟨x, hx, asks_of_declared hx h₁ hid⟩

theorem asks_of_update (h : Goes (update c) s t (.ok ()) s') (hid : s'.work.id ≠ "") :
    ∃ x, ofResource s.work c.defaultDatabase = .ok x ∧ Asks x.database (.schema (.text x.name)) t ∧
      s'.work.id = idOf x.database x.name := by
  obtain ⟨x, hx, h₁⟩ := goes_ofExcept_bind_ok.mp (goes_work_bind.mp h)
  obtain ⟨v, w, _, s₀, rfl, -, h₂⟩ := goes_bind_ok.mp (goes_whenThen h₁)
  obtain ⟨asked, he⟩ := asks_of_declared hx h₂ hid
  exact ⟨x, hx, by simpa using asked.append v [], he⟩

theorem text_of_databaseAndName (hname : ∀ v, r.get? "name" = some v → ∃ n, v = .text n)
    {d n : Value} (h : databaseAndName c r = .ok (d, n)) : ∃ name, n = .text name := by
  unfold databaseAndName at h
  dsimp only at h
  split at h
  · cases h
    cases hg : r.get? "name" with
    | none => exact ⟨"", by simp [Resource.getD, hg]⟩
    | some v =>
      obtain ⟨name, rfl⟩ := hname v hg
      exact ⟨name, Resource.getD_of_get? hg⟩
  · obtain ⟨_, _, h⟩ := exists_of_bind_eq_ok h
    cases h
    exact ⟨_, rfl⟩

theorem asks_of_read (hname : ∀ v, s.work.get? "name" = some v → ∃ n, v = .text n)
    (h : Goes (read c) s t (.ok ()) s') : ∃ database name,
      databaseAndName c s.work = .ok (.text database, .text name) ∧
      Asks database (.schema (.text name)) t ∧
      (s'.work.id = "" ∨ s'.work.id = idOf database name) := by
  obtain ⟨⟨d, n⟩, hplace, h₁⟩ := goes_ofExcept_bind_ok.mp (goes_work_bind.mp h)
  obtain ⟨u, rfl, h₂⟩ := goes_locked.mp h₁
  obtain ⟨database, hd, h₃⟩ := goes_ofExcept_bind_ok.mp h₂
  obtain ⟨name, rfl⟩ := text_of_databaseAndName hname hplace
  obtain rfl := Catalog.eq_text_of_name hd
  obtain ⟨asked, hend⟩ := asks_of_refresh (ne_empty_of_databaseAndName hplace).1 h₃
  refine ⟨database, name, hplace, ?_, hend⟩
  simpa using asked.append [⟨.acquire .read, ()⟩] [⟨.release .read, ()⟩]

/-- Of a database it is asked over the default connection whether it is there, and of a schema over
one to its database. -/
theorem asks_of_exists {v : Value} (hplace : databaseAndName c s.work = .ok (.text database, .text name))
    (h : Goes («exists» c) s t (.ok v) s') :
    Asks c.defaultDatabase (.databaseExists (.text database)) t ∧
      (v = .bool false ∨ Asks database (.schemaExists (.text name)) t) := by
  obtain ⟨d, hd, h₁⟩ := goes_ofExcept_bind_ok.mp (goes_work_bind.mp h)
  cases hplace.symm.trans hd
  obtain ⟨u, rfl, h₂⟩ := goes_locked.mp h₁
  obtain ⟨t₁, t₂, found, s₁, rfl, h₃, h₄⟩ := goes_bind_ok.mp h₂
  have first := asks_of_askOne h₃
  rw [show c.databaseOr "" = c.defaultDatabase from rfl] at first
  refine ⟨by simpa using first.append [⟨.acquire .read, ()⟩] (t₂ ++ [⟨.release .read, ()⟩]), ?_⟩
  split at h₄
  · exact .inl (Except.ok.inj (goes_pure.mp h₄).2.1)
  · obtain ⟨n, hn, h₅⟩ := goes_ofExcept_bind_ok.mp h₄
    obtain rfl : database = n := Except.ok.inj hn
    have second := asks_of_askOne h₅
    rw [c.databaseOr_of_ne (ne_empty_of_databaseAndName hplace).1] at second
    exact .inr (by simpa using second.append (⟨.acquire .read, ()⟩ :: t₁) [⟨.release .read, ()⟩])

/-- What an operation takes for its schema: what is declared, or what is read. -/
inductive Addresses (c : Client) (r : Resource) : Operation → String → String → Prop
  | created {x : Schema} (h : ofResource r c.defaultDatabase = .ok x) :
    Addresses c r .createSchema x.database x.name
  | updated {x : Schema} (h : ofResource r c.defaultDatabase = .ok x) :
    Addresses c r .updateSchema x.database x.name
  | read {database name : String} (h : databaseAndName c r = .ok (.text database, .text name)) :
    Addresses c r .readSchema database name

theorem Addresses.of_read (h : Addresses c r .readSchema database name) :
    databaseAndName c r = .ok (.text database, .text name) := by
  cases h
  assumption

/-- By its identifier alone a resource is found in this place: it is taken for that schema, a read
looks there, and there it is asked whether it exists. -/
structure Locates (c : Client) (id database name : String) : Prop where
  taken : databaseAndName c { id } = .ok (.text database, .text name)
  read : ∀ session t v s', Goes (Operation.readSchema.run c) ⟨session, { id }⟩ t (.ok v) s' →
    Asks database (.schema (.text name)) t
  asked : ∀ session t v s', Goes (Operation.schemaExists.run c) ⟨session, { id }⟩ t (.ok v) s' →
    Asks c.defaultDatabase (.databaseExists (.text database)) t ∧
      (v = .bool false ∨ Asks database (.schemaExists (.text name)) t)

/-- An identifier leads back exactly if there is no point in the name of the database. -/
theorem locates_iff (hd : database ≠ "") (hn : name ≠ "") :
    Locates c (idOf database name) database name ↔ '.' ∉ database.toList := by
  have taken : databaseAndName c { id := idOf database name } = .ok (.text database, .text name) ↔
      '.' ∉ database.toList := by
    rw [databaseAndName_id, ofId_eq_ok_iff]
    exact ⟨fun h => h.2.1, fun h => ⟨rfl, h, hd, hn⟩⟩
  refine ⟨fun h => taken.mp h.taken, fun h => ⟨taken.mpr h, fun ss t v s' hg => ?_, ?_⟩⟩
  · have unnamed : ∀ v, ({ id := idOf database name } : Resource).get? "name" = some v →
        ∃ n, v = .text n := fun v hv => nomatch (show none = some v from hv)
    obtain ⟨d, n, hplace, asked, -⟩ := asks_of_read unnamed (Operation.goes_quiet_ok hg)
    cases hplace.symm.trans (taken.mpr h)
    exact asked
  · exact fun ss t v s' hg => asks_of_exists (taken.mpr h) hg

end Schema

namespace Operation

open Schema

variable {c : Client} {s s' : Standing Resource} {t : List Exchange} {op : Operation} {v : Value}

/-- A schema that was created, read or updated is looked for in its database, and gets the identifier
that is made of the two names. This one leads back there exactly if there is no point in the name of
the database; and where there is one, the schema was read by its name. -/
theorem id_locates_iff (hop : op = createSchema ∨ op = readSchema ∨ op = updateSchema)
    (hname : ∀ v, s.work.get? "name" = some v → ∃ n, v = .text n)
    (h : Goes (op.run c) s t (.ok v) s') (hid : s'.work.id ≠ "") : ∃ database name,
      Addresses c s.work op database name ∧ Asks database (.schema (.text name)) t ∧
      s'.work.id = idOf database name ∧
      (Locates c s'.work.id database name ↔ '.' ∉ database.toList) ∧
      ('.' ∈ database.toList →
        op = readSchema ∧ (s.work.getD "name" (.text "")).truthy = true) := by
  have declared {x : Schema} (hx : ofResource s.work c.defaultDatabase = .ok x)
      (he : s'.work.id = idOf x.database x.name) :
      (Locates c s'.work.id x.database x.name ↔ '.' ∉ x.database.toList) ∧
        '.' ∉ x.database.toList := by
    obtain ⟨hd, hmark⟩ := database_of_ofResource hx
    rw [he]
    exact ⟨locates_iff hd (of_ofResource hx).1, hmark⟩
  rcases hop with rfl | rfl | rfl
  · obtain ⟨x, hx, asked, he⟩ := asks_of_create (goes_quiet_ok h) hid
    obtain ⟨hiff, hmark⟩ := declared hx he
    exact ⟨_, _, .created hx, asked, he, hiff, fun hm => absurd hm hmark⟩
  · obtain ⟨database, name, hplace, asked, he⟩ := asks_of_read hname (goes_quiet_ok h)
    obtain ⟨hd, hn, hmark⟩ := ne_empty_of_databaseAndName hplace
    replace he := he.resolve_left hid
    refine ⟨database, name, .read hplace, asked, he, ?_, fun hm => ⟨rfl, hmark hm⟩⟩
    rw [he]
    exact locates_iff hd hn
  · obtain ⟨x, hx, asked, he⟩ := asks_of_update (goes_quiet_ok h) hid
    obtain ⟨hiff, hmark⟩ := declared hx he
    exact ⟨_, _, .updated hx, asked, he, hiff, fun hm => absurd hm hmark⟩

/-- A schema without policies in some database. -/
def namedSchema (database name : String) : Standing Resource where
  session := {}
  work := { values := [("name", .text name), ("database", .text database)] }

theorem reads_named (database name : String) : ∀ v,
    (namedSchema database name).work.get? "name" = some v → ∃ n, v = .text n :=
  fun _ hv => ⟨name, (Option.some.inj hv).symm⟩

/-- A schema whose name has points and colons is found again by its identifier. -/
theorem id_locates_iff_marks : ∃ t s',
    Goes (readSchema.run .admin) (namedSchema "app" "x.y:z") t (.ok .null) s' ∧
      Locates .admin s'.work.id "app" "x.y:z" := by
  have run : Goes (readSchema.run .admin) (namedSchema "app" "x.y:z") _ (.ok .null) _ :=
    Task.goes_exchanges (schemaAnswer []) _ _
  obtain ⟨database, name, addresses, -, -, hiff, -⟩ :=
    id_locates_iff (.inr (.inl rfl)) (reads_named "app" "x.y:z") run (by decide)
  cases addresses.of_read.symm.trans rfl
  exact ⟨_, _, run, hiff.mpr (by decide)⟩

/-- A schema that is read by its name in a database with a point is not found again. -/
theorem id_leads_astray : ¬∀ (c : Client) (op : Operation) (s s' : Standing Resource)
    (t : List Exchange) (v : Value), op = createSchema ∨ op = readSchema ∨ op = updateSchema →
    (∀ key v, key = "name" ∨ key = "database" → s.work.get? key = some v → ∃ x, v = .text x) →
    Goes (op.run c) s t (.ok v) s' → s'.work.id ≠ "" → ∃ database name,
      Addresses c s.work op database name ∧
        databaseAndName c { id := s'.work.id } = .ok (.text database, .text name) := by
  intro h
  have run : Goes (readSchema.run .admin) (namedSchema "a.b" "n") _ (.ok .null) _ :=
    Task.goes_exchanges (schemaAnswer []) _ _
  have texts : ∀ key v, key = "name" ∨ key = "database" →
      (namedSchema "a.b" "n").work.get? key = some v → ∃ x, v = .text x := by
    rintro key v (rfl | rfl) hv
    · exact reads_named "a.b" "n" v hv
    · exact ⟨"a.b", (Option.some.inj hv).symm⟩
  obtain ⟨database, name, addresses, hback⟩ := h _ _ _ _ _ _ (.inr (.inl rfl)) texts run (by decide)
  cases addresses.of_read.symm.trans rfl
  exact absurd (ofId_eq_ok_iff.mp (databaseAndName_id.mp hback)).2.1 (by decide)

end Operation

end DeclaredAccess
