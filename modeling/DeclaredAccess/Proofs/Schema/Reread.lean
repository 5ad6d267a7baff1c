import DeclaredAccess.Proofs.Acl.Union
import DeclaredAccess.Proofs.Policy.Reordered
import DeclaredAccess.Proofs.Schema.Address
import DeclaredAccess.Proofs.Session.Snapshot

/-! Reading a schema again while the catalog stays as it is. A comparison that finds a difference puts
the policies of the entries in the place of the declared ones, and one that finds none leaves them.
Written out, policies are read back as what they were made of, so either way the next comparison finds
no difference; and it finds the resource in its place already. So what a read has repaired stays as it
is from then on. -/

namespace DeclaredAccess

open DeclaredAccess.Task (exists_of_run_bind exists_of_run_ofExcept_bind run_bind_ok)

open DeclaredAccess.Acl.Entry (ofHoldings)

variable {c : Client} {database name owner : String} {entries : List Value} {acls : List Acl}
  {m : Keyed Acl} {r r' : Resource}

namespace Schema

/-! ## Policies that are written for entries -/

/-- A declaration says of creating and using what the entries say under its role key, in the spelling
that comes first. -/
structure Echoes (acls : List Acl) (d : Declaration) : Prop where
  first : ∃ f, acls.find? (fun a => a.key = d.key) = some f ∧ d.role = f.role
  privileges : ∀ p, p ∈ d.privileges ↔
    (p = .create ∨ p = .usage) ∧ ∃ a ∈ acls, a.key = d.key ∧ p ∈ a.privileges
  grantOptions : ∀ p, p ∈ d.grantOptions ↔
    (p = .create ∨ p = .usage) ∧ ∃ a ∈ acls, a.key = d.key ∧ p ∈ a.grantOptions
  objects : d.objects = []

/-- Blocks that say what the entries say: one for each role key but the owner's, in the order of the
keys, and each of them is read back. -/
structure Restates (owner : String) (acls : List Acl) (bs : List PolicyBlock) : Prop where
  ordered : (bs.map fun b => Role.key b.role).Pairwise (· < ·)
  keys : ∀ k, k ∈ bs.map (fun b => Role.key b.role) ↔
    k ≠ Role.key owner ∧ ∃ a ∈ acls, a.key = k
  echoed : ∀ b ∈ bs, ∃ d, Declaration.ofBlock b.toValue = .ok d ∧ d.role = b.role ∧ Echoes acls d

theorem echoes_ofAcl {a : Acl} (h : Acl.Unites acls a.key a) :
    Echoes acls (PolicyBlock.ofAcl a).declaration where
  first := by
    obtain ⟨f, hf, hrole, _⟩ := h.first
    exact ⟨f, hf, hrole⟩
  privileges p := by
    rw [PolicyBlock.mem_privileges_ofAcl, h.privileges]
    rfl
  grantOptions p := by
    rw [PolicyBlock.mem_grantOptions_ofAcl, h.grantOptions]
    rfl
  objects := rfl

theorem keys_holders (hm : Acl.byRole acls = .ok m) :
    (holders owner m).map Acl.key = m.sorted.keys.filter (· != Role.key owner) := by
  rw [holders, List.map_map, Keyed.keys, List.filter_map]
  exact List.map_congr_left fun e he => key_of_mem_sorted hm (List.mem_filter.mp he).1

theorem key_of_mem_holders (hm : Acl.byRole acls = .ok m) {a : Acl} (ha : a ∈ holders owner m) :
    a.key ≠ Role.key owner := by
  have hk : a.key ∈ (holders owner m).map Acl.key := List.mem_map_of_mem ha
  rw [keys_holders hm] at hk
  simpa using (List.mem_filter.mp hk).2

theorem unites_of_mem_holders (hm : Acl.byRole acls = .ok m) {a : Acl} (ha : a ∈ holders owner m) :
    Acl.Unites acls a.key a := by
  obtain ⟨e, he, rfl⟩ := List.mem_map.mp ha
  have hs : e ∈ m.sorted := (List.mem_filter.mp he).1
  rw [key_of_mem_sorted hm hs]
  refine Acl.unites_byRole hm ?_
  exact Keyed.get?_of_mem (Acl.keyed_byRole hm).nodup ((Keyed.sorted_perm m).mem_iff.mp hs)

theorem restates_holders (hm : Acl.byRole acls = .ok m) :
    Restates owner acls ((holders owner m).map .ofAcl) := by
  have keys : ((holders owner m).map PolicyBlock.ofAcl).map (fun b => Role.key b.role) =
      m.sorted.keys.filter (· != Role.key owner) := by
    rw [List.map_map]
    exact keys_holders hm
  refine ⟨?_, fun k => ?_, fun b hb => ?_⟩
  · have ordered : m.sorted.keys.Pairwise (· ≤ ·) :=
      List.pairwise_map.mpr (Keyed.pairwise_sorted m)
    have once : m.sorted.keys.Nodup := Keyed.nodup_sorted (Acl.keyed_byRole hm).nodup
    rw [keys]
    exact ((ordered.and once).imp fun h =>
      String.not_le.mp fun hle => h.2 (String.le_antisymm h.1 hle)).filter _
  · rw [keys, List.mem_filter, and_comm]
    refine and_congr bne_iff_ne ?_
    exact ((Keyed.sorted_perm m).map _).mem_iff.trans (Keyed.mem_keys_gather hm)
  · obtain ⟨a, ha, rfl⟩ := List.mem_map.mp hb
    exact ⟨_, PolicyBlock.ofBlock_ofAcl a, rfl, echoes_ofAcl (unites_of_mem_holders hm ha)⟩

/-! ## What the next comparison finds -/

/-- Only the policies of a resource can differ. -/
theorem drift_congr (h : r'.get? "policy" = r.get? "policy") :
    drift owner entries r' = drift owner entries r := by
  unfold drift declaredBeside
  rw [Resource.getD_congr h]

/-- Policies that were written for the entries do not differ from them. -/
theorem drift_of_holders (he : entries.mapM Acl.ofEntry = .ok acls) (hm : Acl.byRole acls = .ok m)
    (hr : r.get? "policy" =
      some (.list (((holders owner m).map .ofAcl).map PolicyBlock.toValue))) :
    ∃ diff, drift owner entries r = .ok diff ∧ diff.hasChanges = false := by
  let found : List Declaration := ((holders owner m).map .ofAcl).map PolicyBlock.declaration
  have beside : (found.filter fun d => d.key != Role.key owner) = found := by
    refine List.filter_eq_self.mpr fun d hd => ?_
    obtain ⟨b, hb, rfl⟩ := List.mem_map.mp hd
    obtain ⟨a, ha, rfl⟩ := List.mem_map.mp hb
    exact bne_iff_ne.mpr (key_of_mem_holders hm ha)
  have declared : declaredBeside (.text owner) r = .ok found := by
    rw [declaredBeside_eq ((congrArg _ (Resource.getD_of_get? hr)).trans
      (Declaration.ofBlocks_ofAcls _)), beside]
  have ofPolicy : ∀ d ∈ found, d.OfPolicy := by
    intro d hd
    obtain ⟨b, _, rfl⟩ := List.mem_map.mp hd
    exact Declaration.ofPolicy_block b
  obtain ⟨diff, hdiff, hiff⟩ := PolicyDiff.exists_of ofPolicy ofPolicy
  exact ⟨diff, bind_eq_ok (policyBeside_eq he hm) (bind_eq_ok declared hdiff),
    hiff.mpr fun _ => rfl⟩

theorem located_eq_self (hid : r.id = idOf database name) (hn : r.get? "name" = some (.text name))
    (ho : r.get? "owner" = some (.text owner)) (hd : r.get? "database" = some (.text database)) :
    located database (.text name) owner r = r := by
  rw [located, Resource.put_of_get? hn, Resource.put_of_get? ho, Resource.put_of_get? hd]
  show r.setId (idOf database name) = r
  rw [← hid]
  rfl

/-- What a comparison with the catalog makes of a resource: it is in its place with its owner, the
policies are those of the entries if they differed from them, and they differ no more. -/
structure Repairs (database name owner : String) (entries : List Value) (acls : List Acl)
    (r r' : Resource) : Prop where
  id_eq : r'.id = idOf database name
  name_eq : r'.get? "name" = some (.text name)
  owner_eq : r'.get? "owner" = some (.text owner)
  database_eq : r'.get? "database" = some (.text database)
  policy : ∃ diff, drift owner entries r = .ok diff ∧
    (diff.hasChanges = false → r'.get? "policy" = r.get? "policy") ∧
    (diff.hasChanges = true → ∃ bs, Restates owner acls bs ∧
      r'.get? "policy" = some (.list (bs.map PolicyBlock.toValue)))
  steady : ∃ diff, drift owner entries r' = .ok diff ∧ diff.hasChanges = false

theorem repairs_of_settle (h : settle database (.text name) (.text owner) entries r = .ok r') :
    ∃ acls, entries.mapM Acl.ofEntry = .ok acls ∧
      Repairs database name owner entries acls r r' := by
  obtain ⟨acls, m, diff, he, hm, hdiff, rfl⟩ := settle_eq_ok_iff.mp h
  refine ⟨acls, he, rfl, name_located Value.noConfusion, owner_located, database_located,
    ⟨diff, hdiff, ?_, ?_⟩, ?_⟩
  · intro hc
    rw [policy_located, replaced, hc]
    rfl
  · intro hc
    rw [policy_located, replaced, if_pos hc, Resource.get?_put Value.noConfusion]
    exact ⟨_, restates_holders hm, rfl⟩
  · rw [drift_congr policy_located]
    cases hc : diff.hasChanges with
    | false =>
      rw [replaced, hc]
      exact ⟨diff, hdiff, hc⟩
    | true =>
      rw [replaced, if_pos hc]
      exact drift_of_holders he hm (Resource.get?_put Value.noConfusion)

/-- What a comparison leaves is left as it is by the next one. -/
theorem Repairs.settle_again (h : Repairs database name owner entries acls r r')
    (he : entries.mapM Acl.ofEntry = .ok acls) :
    settle database (.text name) (.text owner) entries r' = .ok r' := by
  obtain ⟨m, hm⟩ := Acl.exists_byRole acls
  obtain ⟨diff, hdiff, hc⟩ := h.steady
  refine settle_eq_ok_iff.mpr ⟨acls, m, diff, he, hm, hdiff, ?_⟩
  rw [replaced, hc, if_neg Bool.false_ne_true]
  exact (located_eq_self h.id_eq h.name_eq h.owner_eq h.database_eq).symm

end Schema

/-! ## Reads -/

namespace Snapshot

variable {w : Snapshot} {σ : Type} {d d' : String} {acl : Value} {rest : List Row}
  {s s' : Standing Resource}

theorem tells_schema (w : Snapshot) (name : Value) (d : String) :
    w.Tells (Catalog.schema name : Task σ _) d fun found => ∃ rows,
      w.answer d (.execute (.query (.schema name))) = .ok rows ∧
        ∀ owner acl rest, rows = [owner, acl] :: rest →
          ∃ entries, acl.items? = some entries ∧ found = some (owner, entries) := by
  refine (w.tells_execute _ _ d).bind fun rows hr => ?_
  split
  · refine .pure ⟨[], hr, fun _ _ _ h => ?_⟩
    cases h
  · rename_i owner acl rest
    cases hi : acl.items? with
    | none => exact .fail _
    | some entries =>
      refine .pure ⟨_, hr, fun _ _ _ h => ?_⟩
      cases h
      exact ⟨entries, hi, rfl⟩
  · exact .fail _

/-- A read that returns has compared the resource with what the catalog tells of the schema, and the
catalog tells it again. -/
theorem settle_of_run_read
    (hplace : Schema.databaseAndName c s.work = .ok (.text database, .text name))
    (hanswer : w.answer database (.execute (.query (.schema (.text name)))) =
      .ok ([.text owner, acl] :: rest))
    (h : (Schema.read c).run w.serve s d = ((.ok (), s'), d')) : ∃ entries,
      acl.items? = some entries ∧
      Schema.settle database (.text name) (.text owner) entries s.work = .ok s'.work ∧
      w.Looks (c.transaction database (Catalog.schema (.text name)) : Task Resource _)
        (.ok (some (.text owner, entries))) := by
  obtain ⟨r, _, _, h₁, h⟩ := exists_of_run_bind h
  cases h₁
  obtain ⟨_, hd, h⟩ := exists_of_run_ofExcept_bind h
  cases hplace.symm.trans hd
  rw [run_locked] at h
  obtain ⟨_, hd, h⟩ := exists_of_run_ofExcept_bind h
  cases hd
  obtain ⟨found, s₁, d₁, h₁, h⟩ := exists_of_run_bind h
  obtain ⟨looks, rows, hrows, hfound⟩ :=
    (tells_schema w (.text name) (c.databaseOr database)).transaction.of_run h₁
  rw [c.databaseOr_of_ne (Schema.ne_empty_of_databaseAndName hplace).1] at hrows
  cases hanswer.symm.trans hrows
  obtain ⟨entries, hentries, rfl⟩ := hfound _ _ _ rfl
  obtain ⟨_, _, h₂, hwork, _⟩ := looks s d
  cases h₁.symm.trans h₂
  obtain ⟨r, _, _, h₃, h⟩ := exists_of_run_bind h
  cases h₃
  obtain ⟨r', hsettle, h⟩ := exists_of_run_ofExcept_bind h
  cases h
  rw [hwork] at hsettle
  exact ⟨entries, hentries, hsettle, looks⟩

/-- A read returns where the catalog tells of the schema and the comparison goes through. -/
theorem Looks.run_read
    (hlooks : w.Looks (c.transaction database (Catalog.schema (.text name)) : Task Resource _)
      (.ok (some (.text owner, entries))))
    (hplace : Schema.databaseAndName c s.work = .ok (.text database, .text name))
    (h : Schema.settle database (.text name) (.text owner) entries s.work = .ok r) (d : String) :
    ∃ s' d', (Schema.read c).run w.serve s d = ((.ok (), s'), d') ∧ s'.work = r := by
  obtain ⟨s₁, d₁, h₁, hwork, _⟩ := hlooks s d
  rw [← hwork] at h
  refine ⟨{ s₁ with work := r }, d₁, ?_, rfl⟩
  refine (run_bind_ok (a := s.work) rfl).trans ?_
  rw [hplace]
  refine (w.run_locked .read _ s d).trans ?_
  refine (run_bind_ok h₁).trans ((run_bind_ok (a := s₁.work) rfl).trans ?_)
  rw [h]
  rfl

end Snapshot

namespace Operation

/-- A read that returns repairs the resource, and from then on every read, in whichever session,
returns and leaves it as it is. -/
theorem readSchema_repairs_once {w : Snapshot} {s s₁ : Standing Resource} {d d₁ : String}
    {a acl : Value} {rest : List Row}
    (hplace : Schema.databaseAndName c s.work = .ok (.text database, .text name))
    (hanswer : w.answer database (.execute (.query (.schema (.text name)))) =
      .ok ([.text owner, acl] :: rest))
    (h : (readSchema.run c).run w.serve s d = ((.ok a, s₁), d₁)) : ∃ entries acls,
      acl.items? = some entries ∧ entries.mapM Acl.ofEntry = .ok acls ∧
      Schema.Repairs database name owner entries acls s.work s₁.work ∧
      ∀ s₂ d₂, s₂.work = s₁.work → ∃ s₃ d₃,
        (readSchema.run c).run w.serve s₂ d₂ = ((.ok a, s₃), d₃) ∧ s₃.work = s₁.work := by
  obtain ⟨rfl, hread⟩ := run_quiet_iff.mp h
  obtain ⟨entries, hentries, hsettle, looks⟩ := Snapshot.settle_of_run_read hplace hanswer hread
  obtain ⟨acls, he, repairs⟩ := Schema.repairs_of_settle hsettle
  refine ⟨entries, acls, hentries, he, repairs, fun s₂ d₂ hwork => ?_⟩
  obtain ⟨hd, hn, _⟩ := Schema.ne_empty_of_databaseAndName hplace
  have place : Schema.databaseAndName c s₂.work = .ok (.text database, .text name) := by
    rw [hwork, Schema.databaseAndName_of_get? repairs.name_eq repairs.database_eq hn,
      c.databaseOr_of_ne hd]
  have again : Schema.settle database (.text name) (.text owner) entries s₂.work = .ok s₁.work := by
    rw [hwork]
    exact repairs.settle_again he
  obtain ⟨s₃, d₃, h₃, hwork₃⟩ := looks.run_read place again d₂
  exact ⟨s₃, d₃, run_quiet_iff.mpr ⟨rfl, h₃⟩, hwork₃⟩

/-- Entries of a schema on which `alice` holds nothing, and `bob` something in two spellings. -/
def bobRespelt : List Acl := [ofHoldings "owner" [(.usage, false), (.create, false)] "owner",
  ofHoldings "Bob" [(.usage, false)] "owner", ofHoldings "bob" [(.create, true)] "owner",
  ofHoldings "" [(.usage, false)] "owner"]

/-- A server on which the schema is there with these entries. -/
def respeltSchema : Snapshot where
  answer _ := schemaAnswer bobRespelt

theorem returned_respelt : ∃ s₁ d₁, (readSchema.run .admin).run respeltSchema.serve alicesSchema "" =
    ((.ok .null, s₁), d₁) ∧ s₁.work.get? "policy" ≠ alicesSchema.work.get? "policy" := by
  have hd : Declaration.ofBlocks (alicesSchema.work.getD "policy" (.list [])) =
      .ok aliceDeclared := rfl
  obtain ⟨r, hsettle, settled⟩ := Schema.exists_settle "app" (.text "s") "owner" hd
    (Schema.mapM_ofEntry (Acl.Entry.mapM_read_write bobRespelt)) (by decide)
  have asked : (Client.admin.transaction "app" (Catalog.schema (.text "s"))).run respeltSchema.serve
      alicesSchema "" = ((.ok (some (.text "owner", (bobRespelt.map Acl.Entry.write).map .text)),
        { alicesSchema with session := { engines := [("app", 0)], engineCount := 1 } }), "app") := rfl
  obtain ⟨looks, _⟩ := (respeltSchema.tells_schema (.text "s") _).transaction.of_run asked
  obtain ⟨s₁, d₁, h, rfl⟩ := looks.run_read rfl hsettle ""
  refine ⟨s₁, d₁, run_quiet_iff.mpr ⟨rfl, h⟩, fun hp => ?_⟩
  exact absurd (settled.policy_iff.mp hp) (by decide)

/-- What is found takes the place of what was declared, and is found again. -/
theorem readSchema_repairs_once_respelt : ∃ (s₁ : Standing Resource) (d₁ : String)
    (bs : List PolicyBlock),
    (readSchema.run .admin).run respeltSchema.serve alicesSchema "" = ((.ok .null, s₁), d₁) ∧
    s₁.work.get? "policy" = some (.list (bs.map PolicyBlock.toValue)) ∧
    (∃ b ∈ bs, b.role = "Bob" ∧ ∃ d, Declaration.ofBlock b.toValue = .ok d ∧
      d.privileges = .ofList [.create, .usage] ∧ d.grantOptions = .ofList [.create]) ∧
    ∃ s₂ d₂, (readSchema.run .admin).run respeltSchema.serve s₁ d₁ = ((.ok .null, s₂), d₂) ∧
      s₂.work = s₁.work := by
  obtain ⟨s₁, d₁, returned, hp⟩ := returned_respelt
  have hplace : Schema.databaseAndName .admin alicesSchema.work = .ok (.text "app", .text "s") := rfl
  obtain ⟨entries, acls, hentries, he, repairs, again⟩ := readSchema_repairs_once hplace rfl returned
  cases hentries
  cases he.symm.trans (Schema.mapM_ofEntry (Acl.Entry.mapM_read_write bobRespelt))
  obtain ⟨diff, _, hkept, hreplaced⟩ := repairs.policy
  have changed : diff.hasChanges = true := by
    rw [← Bool.not_eq_false]
    exact fun hc => hp (hkept hc)
  obtain ⟨bs, restates, hpolicy⟩ := hreplaced changed
  obtain ⟨b, hb, hk⟩ := List.mem_map.mp ((restates.keys "bob").mpr (by decide))
  obtain ⟨d, hd, hrole, echoes⟩ := restates.echoed b hb
  have key : d.key = "bob" := (congrArg Role.key hrole).trans hk
  refine ⟨s₁, d₁, bs, returned, hpolicy, ⟨b, hb, ?_, d, hd, ?_, ?_⟩, again s₁ d₁ rfl⟩
  · obtain ⟨f, hf, hfirst⟩ := echoes.first
    rw [key] at hf
    cases hf
    exact hrole.symm.trans hfirst
  · refine PrivilegeSet.ext_mem fun p => ?_
    rw [echoes.privileges, key]
    cases p <;> decide
  · refine PrivilegeSet.ext_mem fun p => ?_
    rw [echoes.grantOptions, key]
    cases p <;> decide

end Operation

end DeclaredAccess
