import DeclaredAccess.Proofs.Acl.RoundTrip
import DeclaredAccess.Proofs.Operation.Failure
import DeclaredAccess.Proofs.Schema.Settled
import DeclaredAccess.Proofs.Session.Transcript

/-! Drift of the policies on a schema. A read asks for the schema once, and compares what it is
answered with what is declared. Both are taken together by role key first, so what the read finds out
is exact for the keys: the policies stay as they are declared exactly if they say under each of them
what the entries say. For a role itself that holds where every entry with its key spells it alike. -/

namespace DeclaredAccess

open DeclaredAccess.Task (Goes Spares goes_bind_ok goes_changeWork goes_execute goes_fail goes_locked
  goes_locked_sent goes_ofExcept_bind_ok goes_pure goes_transaction_sent goes_work_bind)

open DeclaredAccess.Acl.Entry (ofHoldings)

variable {σ : Type} {c : Client} {t : List Exchange}

/-- A schema is asked for by one question. -/
theorem Catalog.goes_schema_ok {name : Value} {found : Option (Value × List Value)}
    {s s' : Standing σ} (h : Goes (Catalog.schema name) s t (.ok found) s') : ∃ rows,
      t = [⟨.execute (.query (.schema name)), .ok rows⟩] ∧
        ((rows = [] ∧ found = none) ∨ ∃ owner acl rest entries, rows = [owner, acl] :: rest ∧
          acl.items? = some entries ∧ found = some (owner, entries)) := by
  obtain ⟨t₁, t₂, rows, s₁, rfl, h₁, h₂⟩ := goes_bind_ok.mp h
  obtain ⟨_, ⟨_, _, _, he⟩ | ⟨_, a, _, rfl, ha⟩⟩ := goes_execute.mp h₁
  · cases he
  · cases a with
    | error e => cases ha
    | ok rows' =>
      cases ha
      split at h₂
      · obtain ⟨rfl, hr, _⟩ := goes_pure.mp h₂
        cases hr
        exact ⟨_, rfl, .inl ⟨rfl, rfl⟩⟩
      · split at h₂
        · rename_i hitems
          obtain ⟨rfl, hr, _⟩ := goes_pure.mp h₂
          cases hr
          exact ⟨_, rfl, .inr ⟨_, _, _, _, rfl, hitems, rfl⟩⟩
        · cases (goes_fail.mp h₂).2.1
      · cases (goes_fail.mp h₂).2.1

namespace Schema

variable {s s' : Standing Resource} {database : String} {name name' owner : Value}
  {entries : List Value} {rest : List Row}

/-- A comparison with the catalog that returns has used the one answer it got. -/
theorem settle_of_refresh (h : Goes (refresh c database name) s t (.ok ()) s')
    (hq : ⟨.execute (.query (.schema name')), .ok ([owner, .list entries] :: rest)⟩ ∈ t) :
    name' = name ∧ settle database name owner entries s.work = .ok s'.work := by
  obtain ⟨o, s₁, h₁, hend⟩ := goes_refresh h
  obtain ⟨found, rfl, hfound⟩ : ∃ found, o = .ok found ∧ ∀ v es, found = some (v, es) →
      settle database name v es s.work = .ok s'.work := by
    rcases hend rfl with rfl | ⟨v, es, rfl, hsettle⟩
    · exact ⟨none, rfl, fun _ _ hn => by cases hn⟩
    · refine ⟨_, rfl, fun _ _ hx => ?_⟩
      cases hx
      rwa [Spares.asks (.schema name) _ _ _ _ h₁] at hsettle
  obtain ⟨_, u, _, hu, hmem⟩ := goes_transaction_sent h₁ hq ⟨_, rfl⟩
  obtain ⟨rows, rfl, hrows⟩ := Catalog.goes_schema_ok hu
  cases List.mem_singleton.mp hmem
  refine ⟨rfl, ?_⟩
  rcases hrows with ⟨hn, _⟩ | ⟨o, acl, rest', es, hr, hitems, rfl⟩
  · cases hn
  · cases hr
    cases hitems
    exact hfound _ _ rfl

/-- A read that returns has used the one answer it got. -/
theorem settle_of_read {v : Value}
    (h : Goes (Operation.readSchema.run c) s t (.ok v) s')
    (hq : ⟨.execute (.query (.schema name')), .ok ([owner, .list entries] :: rest)⟩ ∈ t) :
    ∃ database, settle database name' owner entries s.work = .ok s'.work := by
  obtain ⟨⟨database, name⟩, _, h₁⟩ :=
    goes_ofExcept_bind_ok.mp (goes_work_bind.mp (Operation.goes_quiet_ok h))
  obtain ⟨u, h₂, inside⟩ := goes_locked_sent h₁ hq ⟨_, rfl⟩
  obtain ⟨database, _, h₃⟩ := goes_ofExcept_bind_ok.mp h₂
  obtain ⟨rfl, hsettle⟩ := settle_of_refresh h₃ inside
  exact ⟨database, hsettle⟩

/-- Entries that are texts are read as texts. -/
theorem mapM_ofEntry {texts : List String} {acls : List Acl}
    (h : texts.mapM Acl.Entry.read = .ok acls) :
    (texts.map Value.text).mapM Acl.ofEntry = .ok acls := by
  induction texts generalizing acls with
  | nil =>
    cases h
    rfl
  | cons x texts ih =>
    rw [List.mapM_cons] at h
    obtain ⟨a, ha, h⟩ := exists_of_bind_eq_ok h
    obtain ⟨as, has, h⟩ := exists_of_bind_eq_ok h
    cases h
    have hx : Acl.ofEntry (.text x) = .ok a := by simp only [Acl.ofEntry, ha]
    rw [List.map_cons, List.mapM_cons, hx, ih has]
    rfl

/-- Declarations that match the entries give a role what the entries give to it, unless its key is the
owner's or stands in several spellings in the entries. -/
theorem Matches.ofRole {owner role : String} {declared : List Declaration} {acls : List Acl}
    (h : Matches owner declared acls) (hd : ∀ d ∈ declared, d.OfPolicy)
    (ho : Role.key role ≠ Role.key owner)
    (ha : ∀ a ∈ acls, ∀ b ∈ acls, a.key = Role.key role → b.key = Role.key role → a.role = b.role) :
    Share.ofRole (acls.map Acl.share) role = Declaration.givenBy declared role := by
  obtain ⟨m, hm, _⟩ := Declaration.exists_byRole hd
  have alike : ∀ x ∈ acls.map Acl.share, ∀ y ∈ acls.map Acl.share,
      x.key = Role.key role → y.key = Role.key role → x.role = y.role := by
    intro x hx y hy
    obtain ⟨a, hma, rfl⟩ := List.mem_map.mp hx
    obtain ⟨b, hmb, rfl⟩ := List.mem_map.mp hy
    exact ha a hma b hmb
  rw [Share.ofRole_of_alike alike, Declaration.givenBy_eq hm fun d hmem => (hd d hmem).fits, h _ ho]

end Schema

namespace Operation

variable {s s' : Standing Resource} {v name : Value} {owner : String} {texts : List String}
  {rest : List Row} {acls : List Acl}

/-- A read keeps the declared policies exactly if they say, under each role key but the owner's, what
the entries of the schema say under it. Then every role with another key than the owner, whose key
stands in one spelling in the entries, has by the entries just what is declared for it. -/
theorem read_keeps_policy_iff (h : Goes (readSchema.run c) s t (.ok v) s')
    (hq : ⟨.execute (.query (.schema name)),
      .ok ([.text owner, .list (texts.map .text)] :: rest)⟩ ∈ t)
    (hr : texts.mapM Acl.Entry.read = .ok acls)
    (ha : ∀ a ∈ acls, a.privileges ⊆ ObjectKind.schema.allowed) : ∃ declared,
      Declaration.ofBlocks (s.work.getD "policy" (.list [])) = .ok declared ∧
        (s'.work.get? "policy" = s.work.get? "policy" ↔ ∀ k, k ≠ Role.key owner →
          Share.merged (declared.map Declaration.share) k = Share.merged (acls.map Acl.share) k) ∧
        (s'.work.get? "policy" = s.work.get? "policy" → ∀ role, Role.key role ≠ Role.key owner →
          (∀ a ∈ acls, ∀ b ∈ acls, a.key = Role.key role → b.key = Role.key role →
            a.role = b.role) →
          Share.ofRole (acls.map Acl.share) role = Declaration.givenBy declared role) := by
  obtain ⟨database, hsettle⟩ := Schema.settle_of_read h hq
  obtain ⟨declared, hd⟩ := Schema.exists_of_settle hsettle
  obtain ⟨r', hr', settled⟩ :=
    Schema.exists_settle database name owner hd (Schema.mapM_ofEntry hr) ha
  obtain rfl : s'.work = r' := Except.ok.inj (hsettle.symm.trans hr')
  refine ⟨declared, hd, settled.policy_iff, fun hkept role hrole halike => ?_⟩
  exact (settled.policy_iff.mp hkept).ofRole (Declaration.ofPolicy_of_ofBlocks hd) hrole halike

/-- A schema on which `alice` may create objects and use them. -/
def alicesSchema : Standing Resource where
  session := {}
  work := {
    id := "app.s"
    values := [("name", .text "s"), ("policy", .list [.object [("role", .text "alice"),
      ("create", .bool true), ("usage", .bool true)]])] }

/-- What `alice` shall have. -/
def aliceDeclared : List Declaration := [⟨"alice", .ofList [.create, .usage], ∅, []⟩]

/-- The catalog's rows about a schema of `owner`. -/
def schemaRows (acls : List Acl) : List Row :=
  [[.text "owner", .list ((acls.map Acl.Entry.write).map .text)]]

/-- A server on which the schema is there. -/
def schemaAnswer (acls : List Acl) : (q : Request) → q.Answer
  | .execute (.query (.schema _)) => .ok (schemaRows acls)
  | q => q.granted

/-- What is asked and answered in the transaction that looks for the schema. -/
def lookingExchanges (acls : List Acl) : List Exchange :=
  [⟨.openEngine "app" (some ⟨4, 0, 180, "sync-grants"⟩), ()⟩,
    ⟨.connect "app", .ok ⟨"postgresql", "psycopg", some [16, 2]⟩⟩, ⟨.mark .begin, .ok ()⟩,
    ⟨.execute (.query (.schema (.text "s"))), .ok (schemaRows acls)⟩,
    ⟨.mark .rollback, .ok ()⟩, ⟨.disconnect, ()⟩]

/-- What is asked and answered when the schema is read. -/
def readingExchanges (acls : List Acl) : List Exchange :=
  ⟨.acquire .read, ()⟩ :: (lookingExchanges acls ++ [⟨.release .read, ()⟩])

theorem asked_reading (acls : List Acl) :
    ⟨.execute (.query (.schema (.text "s"))), .ok (schemaRows acls)⟩ ∈ readingExchanges acls := by
  simp [readingExchanges, lookingExchanges]

variable {acls : List Acl}

/-- The schema can be read, and where its entries match what is declared, the policies are kept. -/
theorem goes_reading (ha : ∀ a ∈ acls, a.privileges ⊆ ObjectKind.schema.allowed)
    (hm : Schema.Matches "owner" aliceDeclared acls) : ∃ s',
      Goes (readSchema.run .admin) alicesSchema (readingExchanges acls) (.ok .null) s' ∧
        s'.work.get? "policy" = alicesSchema.work.get? "policy" := by
  have hd : Declaration.ofBlocks (alicesSchema.work.getD "policy" (.list [])) =
      .ok aliceDeclared := rfl
  obtain ⟨r', hsettle, settled⟩ := Schema.exists_settle "app" (.text "s") "owner" hd
    (Schema.mapM_ofEntry (Acl.Entry.mapM_read_write acls)) ha
  have looked : Goes (Client.admin.transaction "app" do Catalog.schema (.text "s")) alicesSchema
      (lookingExchanges acls) (.ok (some (.text "owner", (acls.map Acl.Entry.write).map .text)))
      { alicesSchema with session := { engines := [("app", 0)], engineCount := 1 } } :=
    Task.goes_exchanges (schemaAnswer acls) _ _
  refine ⟨⟨{ engines := [("app", 0)], engineCount := 1 }, r'⟩, goes_bind_ok.mpr
    ⟨readingExchanges acls, [], (), _, rfl, ?_, goes_pure.mpr ⟨rfl, rfl, rfl⟩⟩,
    settled.policy_iff.mpr hm⟩
  refine goes_work_bind.mpr (goes_ofExcept_bind_ok.mpr ⟨(.text "app", .text "s"), rfl, ?_⟩)
  refine goes_locked.mpr ⟨_, rfl, goes_ofExcept_bind_ok.mpr ⟨"app", rfl, ?_⟩⟩
  refine goes_bind_ok.mpr ⟨_, [], _, _, rfl, looked, goes_work_bind.mpr ?_⟩
  exact goes_ofExcept_bind_ok.mpr ⟨r', hsettle, goes_changeWork.mpr ⟨rfl, rfl, rfl⟩⟩

/-- Entries of a schema on which `alice` holds what is declared by two grants. -/
def aliceTwice : List Acl := [ofHoldings "owner" [(.usage, false), (.create, false)] "owner",
  ofHoldings "alice" [(.create, false)] "owner", ofHoldings "alice" [(.usage, false)] "bob"]

theorem read_keeps_policy_iff_twice : ∃ s' declared,
    Goes (readSchema.run .admin) alicesSchema (readingExchanges aliceTwice) (.ok .null) s' ∧
      s'.work.get? "policy" = alicesSchema.work.get? "policy" ∧
      Declaration.ofBlocks (alicesSchema.work.getD "policy" (.list [])) = .ok declared ∧
      Declaration.givenBy declared "alice" = ⟨.ofList [.create, .usage], ∅⟩ := by
  have ha : ∀ a ∈ aliceTwice, a.privileges ⊆ ObjectKind.schema.allowed := by decide
  obtain ⟨s', hgoes, hkept⟩ := goes_reading ha (by decide)
  obtain ⟨declared, hd, _, hroles⟩ := read_keeps_policy_iff hgoes (asked_reading aliceTwice)
    (Acl.Entry.mapM_read_write aliceTwice) ha
  refine ⟨s', declared, hgoes, hkept, hd, ?_⟩
  rw [← hroles hkept "alice" (by decide) (by decide)]
  decide

/-- Another spelling of `alice` holds a part of what is declared, and another spelling of the owner
holds something as well. -/
def aliceRespelt : List Acl := [ofHoldings "alice" [(.create, false)] "owner",
  ofHoldings "Alice" [(.usage, false)] "owner", ofHoldings "Owner" [(.usage, false)] "owner"]

/-- A read that keeps the policies has found that by the entries each role has what is declared for
it, if it is not the owner and meets a condition. -/
def FindsExact (P : (owner : String) → List Acl → (role : String) → Prop) : Prop :=
  ∀ (c : Client) (s s' : Standing Resource) (t : List Exchange) (v name : Value) (owner : String)
    (texts : List String) (rest : List Row) (acls : List Acl) (declared : List Declaration),
    Goes (readSchema.run c) s t (.ok v) s' →
    ⟨.execute (.query (.schema name)),
      .ok ([.text owner, .list (texts.map .text)] :: rest)⟩ ∈ t →
    texts.mapM Acl.Entry.read = .ok acls →
    (∀ a ∈ acls, a.privileges ⊆ ObjectKind.schema.allowed) →
    (acls.map fun a => (a.role, a.grantor)).Nodup →
    Declaration.ofBlocks (s.work.getD "policy" (.list [])) = .ok declared →
    s'.work.get? "policy" = s.work.get? "policy" →
    ∀ role, role ≠ owner → P owner acls role →
      Share.ofRole (acls.map Acl.share) role = Declaration.givenBy declared role

/-- Roles that are spelt in several ways are not told apart, neither from each other nor from the
owner. -/
theorem not_findsExact_respelt : ¬FindsExact (fun _ _ _ => True) ∧
    ¬FindsExact (fun owner _ role => Role.key role ≠ Role.key owner) ∧
    ¬FindsExact (fun _ acls role => ∀ a ∈ acls, ∀ b ∈ acls, a.key = Role.key role →
      b.key = Role.key role → a.role = b.role) := by
  have ha : ∀ a ∈ aliceRespelt, a.privileges ⊆ ObjectKind.schema.allowed := by decide
  obtain ⟨s', hgoes, hkept⟩ := goes_reading ha (by decide)
  have found {P : String → List Acl → String → Prop} (h : FindsExact P) (role : String)
      (hne : role ≠ "owner") (hp : P "owner" aliceRespelt role) :
      Share.ofRole (aliceRespelt.map Acl.share) role = Declaration.givenBy aliceDeclared role :=
    h _ _ _ _ _ _ _ _ _ _ _ hgoes (asked_reading aliceRespelt)
      (Acl.Entry.mapM_read_write aliceRespelt) ha (by decide) rfl hkept role hne hp
  refine ⟨fun h => ?_, fun h => ?_, fun h => ?_⟩
  · exact absurd (found h "Alice" (by decide) trivial) (by decide)
  · exact absurd (found h "Alice" (by decide) (by decide)) (by decide)
  · exact absurd (found h "Owner" (by decide) (by decide)) (by decide)

end Operation

end DeclaredAccess
