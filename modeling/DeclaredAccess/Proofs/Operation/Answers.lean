import DeclaredAccess.Membership.Reconcile
import DeclaredAccess.Proofs.Operation.Inputs
import DeclaredAccess.Proofs.Policy.Block
import DeclaredAccess.Schema.Reconcile

/-! What policies, sets of names and answers of the catalog may fail with. Declarations of policies
are never in conflict: what a policy says can be held on a schema, two of one role can be merged,
and so can the entries that are found there. Where the catalog answers what it is asked for, only
findings about entries and privileges are left. -/

namespace DeclaredAccess

open Sql (Writable writable_cons writable_append writable_nil)

variable {k : Prop} {r : Resource} {v : Value} {vs : List Value} {rows : List Row}

/-! ## Sets and orders -/

theorem exists_names (h : ∀ v ∈ vs, v.IsWritable) :
    ∃ names : List String, vs = names.map .text ∧ Writable names :=
  exists_map_of_forall fun v hv => by
    obtain ⟨s, rfl, hs⟩ := h v hv
    exact ⟨s, hs, rfl⟩

theorem fine_distinct (hv : k → ∀ v ∈ vs, v.IsWritable) : Fine k (Value.distinct vs) := by
  refine .of_exists ?_ fun hk => ?_
  · unfold Value.distinct
    split
    · exact .of_not rfl id
    · exact .ok _
  · obtain ⟨names, rfl, _⟩ := exists_names (hv hk)
    exact ⟨_, Value.distinct_texts names⟩

theorem fine_inOrder (hv : k → ∀ v ∈ vs, ∃ s, v = .text s) : Fine k (Value.inOrder vs) := by
  refine .of_exists ?_ fun hk => ?_
  · unfold Value.inOrder
    split
    · exact .ok _
    · exact .of_not rfl id
  · obtain ⟨names, rfl, _⟩ := exists_map_of_forall (p := fun _ : String => True) fun v hm =>
      (hv hk v hm).imp fun _ hs => ⟨trivial, hs⟩
    exact ⟨_, Value.inOrder_texts names⟩

theorem writable_distinct {ws : List Value} (hv : ∀ v ∈ vs, v.IsWritable)
    (h : Value.distinct vs = .ok ws) : ∀ w ∈ ws, w.IsWritable := by
  obtain ⟨names, rfl, hnames⟩ := exists_names hv
  cases (Value.distinct_texts names).symm.trans h
  intro w hw
  obtain ⟨n, hn, rfl⟩ := List.mem_map.mp hw
  exact ⟨n, rfl, hnames n (List.mem_eraseDups.mp hn)⟩

theorem writable_inOrder {ws : List Value} (hv : ∀ v ∈ vs, v.IsWritable)
    (h : Value.inOrder vs = .ok ws) : ∀ w ∈ ws, w.IsWritable := by
  obtain ⟨names, rfl, hnames⟩ := exists_names hv
  cases (Value.inOrder_texts names).symm.trans h
  intro w hw
  obtain ⟨n, hn, rfl⟩ := List.mem_map.mp hw
  exact ⟨n, rfl, hnames n (mem_sortNames.mp hn)⟩

/-! ## Policies -/

theorem Resource.isPolicies_getD (hr : r.Typed) : (r.getD "policy" (.list [])).IsPolicies := by
  unfold getD
  cases h : r.get? "policy" with
  | none => exact ⟨[], rfl, fun _ hw => nomatch hw⟩
  | some v =>
    obtain ⟨hv, hn⟩ := get?_eq_some h
    exact (hv ▸ hr.values.policies).resolve_left hn

theorem fine_ofBlock (hv : k → ∃ fields, v = .object fields) : Fine k (Declaration.ofBlock v) := by
  unfold Declaration.ofBlock
  refine .map ?_
  unfold PolicyBlock.ofValue
  split
  · dsimp only
    split
    · exact .own rfl
    · split
      · exact .own rfl
      · split
        · exact .ok _
        · split
          · exact .own rfl
          · exact .ok _
  · rename_i hn
    refine .of_not rfl fun hk => ?_
    obtain ⟨fields, hf⟩ := hv hk
    exact hn fields hf

theorem fine_ofBlocks (hv : k → v.IsPolicies) : Fine k (Declaration.ofBlocks v) := by
  unfold Declaration.ofBlocks
  split
  · rename_i hn
    refine .of_not rfl fun hk => ?_
    obtain ⟨items, rfl, _⟩ := hv hk
    cases hn
  · rename_i items hi
    refine .mapM fun w hw => fine_ofBlock fun hk => ?_
    obtain ⟨items', rfl, hall⟩ := hv hk
    cases hi
    exact (hall w hw).imp fun _ h => h.1

/-- A declaration of a policy, whose role can be written where `k` holds. -/
structure Declaration.Usable (k : Prop) (d : Declaration) : Prop where
  ofPolicy : d.OfPolicy
  writable : k → '\x00' ∉ d.role.toList

theorem Declaration.keeps_usable : Keyed.Keeps key merge (Usable k) := by
  intro a b c ha hb h
  obtain ⟨hpolicy, hkey⟩ := keeps_ofPolicy a b c ha.ofPolicy hb.ofPolicy h
  refine ⟨⟨hpolicy, ?_⟩, hkey⟩
  unfold merge at h
  split at h
  · cases h
  · split at h
    · cases h
    · cases h
      exact ha.writable

theorem Declaration.writable_of_ofBlock {fields : Fields} {d : Declaration}
    (hr : (Fields.value fields "role").GivesText) (h : ofBlock (.object fields) = .ok d) :
    '\x00' ∉ d.role.toList := by
  unfold ofBlock at h
  cases hb : PolicyBlock.ofValue (.object fields) with
  | error e => rw [hb] at h; cases h
  | ok b =>
    rw [hb] at h
    cases h
    unfold PolicyBlock.ofValue at hb
    dsimp only at hb
    split at hb
    · cases hb
    · split at hb
      · cases hb
      · split at hb
        · rename_i role hrole
          cases hb
          rw [hrole] at hr
          obtain ht | ⟨_, ht, hs⟩ := hr
          · cases ht
          · cases ht
            exact hs
        · split at hb
          · cases hb
          · cases hb
            exact (by decide : '\x00' ∉ "".toList)

theorem Declaration.usable_of_ofBlocks {ds : List Declaration} (hv : k → v.IsPolicies)
    (h : ofBlocks v = .ok ds) : ∀ d ∈ ds, d.Usable k := by
  intro d hd
  refine ⟨ofPolicy_of_ofBlocks h d hd, fun hk => ?_⟩
  obtain ⟨items, rfl, hall⟩ := hv hk
  change items.mapM ofBlock = .ok ds at h
  obtain ⟨w, hw, hwd⟩ := exists_of_mem_mapM_ok h hd
  obtain ⟨fields, rfl, hr⟩ := hall w hw
  exact writable_of_ofBlock hr hwd

/-- Two lists of policies can be compared, and what differs can be moved to. -/
theorem PolicyDiff.exists_usable {old new : List Declaration} (ho : ∀ d ∈ old, d.Usable k)
    (hn : ∀ d ∈ new, d.OfPolicy) : ∃ diff, PolicyDiff.of old new = .ok diff ∧
      diff.Fits .schema ∧ ∀ e ∈ diff.dropped, e.2.Usable k := by
  obtain ⟨n, hbyn, hni⟩ := Declaration.exists_byRole hn
  obtain ⟨o, hbyo, hoi⟩ := Declaration.exists_byRole fun d hd => (ho d hd).ofPolicy
  have hou : o.Indexed Declaration.key (Declaration.Usable k) :=
    Keyed.indexed_gather Declaration.keeps_usable ho hbyo
  refine ⟨between o n, ?_, fits_between (hoi.mono fun _ h => h.fits) (hni.mono fun _ h => h.fits),
    fun e he => (hou.entry e (List.mem_filter.mp he).1).2⟩
  simp only [PolicyDiff.of, ofLists, hbyo, hbyn]
  rfl

/-! ## Entries -/

namespace Acl

namespace Items

theorem fine_name {entry : Value} {stop : Char} {items : List Value} :
    Fine False (name entry stop items) := by
  have bare (items : List Value) : Fine False (bareName stop items) := by
    unfold bareName
    dsimp only
    split
    · exact .ok _
    · exact .ok _
    · exact .of_not rfl id
  unfold name
  split
  · split
    · unfold quotedName
      split
      · exact .own rfl
      · split
        · exact .ok _
        · exact .of_not rfl id
    · exact bare _
  · exact bare _

theorem fine_holdings {entry : Value} {starred : Bool} {items : List Value} :
    Fine False (holdings entry starred items) := by
  induction items generalizing starred with
  | nil => exact .ok []
  | cons v items ih =>
    unfold holdings
    split
    · split
      · exact ih
      · exact .own rfl
    · refine .bind ?_ fun p _ => .bind ih fun _ _ => .ok _
      unfold letter
      split
      · exact .of_not rfl id
      · split
        · exact .ok _
        · exact .own rfl

theorem fine_read {entry : Value} {items : List Value} : Fine False (read entry items) := by
  unfold read
  refine .bind fine_name fun named _ => .guard rfl fun _ => .bind fine_holdings fun held _ => ?_
  refine .bind ?_ fun granter _ => ?_
  · unfold grantor
    split
    · exact .ok _
    · refine .bind fine_name fun g _ => ?_
      dsimp only
      split
      · exact .ok _
      · exact .own rfl
  · split
    · exact .ok _
    · exact .of_not rfl id

end Items

theorem fine_ofEntry (hv : k → ∃ s, v = .text s) : Fine k (ofEntry v) := by
  unfold ofEntry
  split
  · split
    · exact .ok _
    · exact .own rfl
  all_goals
    refine .of_exists ?_ fun hk => ?_
  · exact Items.fine_read
  · obtain ⟨s, hs⟩ := hv hk
    cases hs
  · exact .of_not rfl id
  · obtain ⟨s, hs⟩ := hv hk
    cases hs
  · exact .of_not rfl id
  · obtain ⟨s, rfl⟩ := hv hk
    simp_all

end Acl

/-! ## Schemas -/

namespace Schema

/-- Whether all that a schema names can be written. -/
def Writable (s : Schema) : Prop := Sql.Writable [s.database, s.name, s.owner]

theorem fine_ofResource {default : String} (hr : k → r.Typed) : Fine k (ofResource r default) := by
  unfold ofResource
  refine .bind fine_database fun _ _ => .bind (fine_required _ _) fun _ _ => ?_
  refine .bind (fine_optional _) fun _ _ => .bind (fine_ofBlocks fun hk => ?_) fun _ _ => .ok _
  exact Resource.isPolicies_getD (hr hk)

theorem spec_ofResource {default : String} {s : Schema} (h : ofResource r default = .ok s) :
    (∀ d ∈ s.policies, d.OfPolicy) ∧ (r.Typed → '\x00' ∉ default.toList → s.Writable) := by
  unfold ofResource at h
  obtain ⟨database, hd, h⟩ := exists_of_bind_eq_ok h
  obtain ⟨name, hn, h⟩ := exists_of_bind_eq_ok h
  obtain ⟨owner, ho, h⟩ := exists_of_bind_eq_ok h
  obtain ⟨policies, hp, h⟩ := exists_of_bind_eq_ok h
  cases h
  refine ⟨Declaration.ofPolicy_of_ofBlocks hp, fun hr hdefault => ?_⟩
  exact writable_cons.mpr ⟨writable_database hr hdefault hd,
    writable_cons.mpr ⟨writable_required hr (by decide) hn,
      writable_cons.mpr ⟨writable_optional hr (by decide) ho, writable_nil⟩⟩⟩

theorem fine_ofId {id : String} : Fine k (ofId id) := by
  unfold ofId
  dsimp only
  split
  · exact .own rfl
  · exact .ok _

theorem writable_ofId {id : String} {d : String × String} (h : ofId id = .ok d)
    (hi : '\x00' ∉ id.toList) : '\x00' ∉ d.1.toList ∧ '\x00' ∉ d.2.toList := by
  unfold ofId at h
  dsimp only at h
  split at h
  · cases h
  · cases h
    simp only [String.toList_ofList]
    exact ⟨fun hm => hi (Text.mem_of_mem_cut.1 hm), fun hm => hi (Text.mem_of_mem_cut.2 hm)⟩

theorem fine_databaseAndName {c : Client} : Fine k (databaseAndName c r) := by
  unfold databaseAndName
  dsimp only
  split
  · exact .ok _
  · exact .bind fine_ofId fun _ _ => .ok _

/-- A text that counts can be written. -/
theorem isWritable_getD {key : String} (hr : r.Typed) (hk : key ∈ textKeys)
    (h : (r.getD key (.text "")).truthy = true) : (r.getD key (.text "")).IsWritable := by
  unfold Resource.getD at h ⊢
  cases hg : r.get? key with
  | none =>
    rw [hg] at h
    cases h
  | some v => exact Resource.isWritable_of_get? hr hk hg

theorem isWritable_databaseAndName {c : Client} {d : Value × Value} (hr : r.Typed)
    (hc : '\x00' ∉ c.defaultDatabase.toList) (h : databaseAndName c r = .ok d) :
    d.1.IsWritable ∧ d.2.IsWritable := by
  unfold databaseAndName at h
  dsimp only at h
  split at h
  · cases h
    refine ⟨?_, isWritable_getD hr (by decide) ‹_›⟩
    dsimp only
    split
    · exact isWritable_getD hr (by decide) ‹_›
    · exact ⟨_, rfl, hc⟩
  · obtain ⟨⟨database, name⟩, hi, h⟩ := exists_of_bind_eq_ok h
    cases h
    obtain ⟨hd, hn⟩ := writable_ofId hi hr.id
    exact ⟨⟨database, rfl, hd⟩, ⟨name, rfl, hn⟩⟩

theorem fine_changedPolicies (hv : k → v = .null ∨ v.IsPolicies) : Fine k (changedPolicies v) := by
  unfold changedPolicies
  split
  · rename_i ht
    refine fine_ofBlocks fun hk => (hv hk).resolve_left fun hn => ?_
    rw [hn] at ht
    cases ht
  · exact .ok _

theorem usable_changedPolicies {ds : List Declaration} (hv : k → v = .null ∨ v.IsPolicies)
    (h : changedPolicies v = .ok ds) : ∀ d ∈ ds, d.Usable k := by
  unfold changedPolicies at h
  split at h
  · rename_i ht
    refine Declaration.usable_of_ofBlocks (fun hk => (hv hk).resolve_left fun hn => ?_) h
    rw [hn] at ht
    cases ht
  · cases h
    exact fun _ hd => nomatch hd

variable {owner : Value} {entries : List Value}

theorem fine_policyBeside (ho : k → owner.IsWritable) (he : k → ∀ v ∈ entries, ∃ s, v = .text s) :
    Fine k (policyBeside owner entries) := by
  unfold policyBeside
  refine .bind (.mapM fun v hv => Acl.fine_ofEntry fun hk => he hk v hv) fun acls _ => ?_
  obtain ⟨m, hm⟩ := Acl.exists_byRole acls
  rw [hm]
  cases m with
  | nil => exact .ok _
  | cons e m =>
    refine .bind ?_ fun _ _ => .ok _
    unfold ownerKey
    split
    · exact .ok _
    · rename_i hn
      refine .of_not rfl fun hk => ?_
      obtain ⟨s, hs, _⟩ := ho hk
      exact hn s hs

theorem fine_declaredBeside (ho : k → owner.IsWritable)
    (hr : k → (r.getD "policy" (.list [])).IsPolicies) : Fine k (declaredBeside owner r) := by
  unfold declaredBeside
  dsimp only
  split
  · exact .bind (fine_ofBlocks hr) fun _ _ => .ok _
  · rename_i hn
    refine .of_exists ?_ fun hk => ?_
    · split
      · exact .of_not rfl id
      · exact .ok _
      · exact .bind (.map (fine_ofBlock fun hk => hk.elim)) fun _ _ => .of_not rfl id
    · obtain ⟨s, hs, _⟩ := ho hk
      exact absurd hs (hn s)

theorem ofPolicy_declaredBeside {ds : List Declaration} (h : declaredBeside owner r = .ok ds) :
    ∀ d ∈ ds, d.OfPolicy := by
  unfold declaredBeside at h
  dsimp only at h
  split at h
  · obtain ⟨all, hall, h⟩ := exists_of_bind_eq_ok h
    cases h
    exact fun d hd => Declaration.ofPolicy_of_ofBlocks hall d (List.mem_filter.mp hd).1
  · split at h
    · cases h
    · cases h
      exact fun _ hd => nomatch hd
    · obtain ⟨_, _, h⟩ := exists_of_bind_eq_ok h
      cases h

/-- What was found and what is declared can be compared, whatever they are. -/
theorem fine_settle {database : String} {name : Value} (ho : k → owner.IsWritable)
    (he : k → ∀ v ∈ entries, ∃ s, v = .text s) (hr : k → (r.getD "policy" (.list [])).IsPolicies) :
    Fine k (settle database name owner entries r) := by
  unfold settle
  refine .bind (fine_policyBeside ho he) fun found _ => ?_
  refine .bind (fine_declaredBeside ho hr) fun declared hd => ?_
  have hfound : ∀ d ∈ found.map PolicyBlock.declaration, d.OfPolicy :=
    List.forall_mem_map.mpr fun b _ => Declaration.ofPolicy_block b
  obtain ⟨diff, hdiff, _⟩ := PolicyDiff.exists_of (ofPolicy_declaredBeside hd) hfound
  exact .bind (.of_ok hdiff) fun _ _ => .ok _

end Schema

/-! ## Rows -/

theorem column_map : Catalog.column (vs.map ([·])) = .ok vs := by
  have h : Catalog.column (vs.map ([·])) = .ok (vs.map id) := mapM_map_ok fun _ _ => rfl
  rwa [List.map_id] at h

theorem fine_column (hv : k → ∃ vs : List Value, rows = vs.map ([·])) :
    Fine k (Catalog.column rows) := by
  refine .of_exists (.mapM fun row _ => ?_) fun hk => ?_
  · split
    · exact .ok _
    · exact .of_not rfl id
  · obtain ⟨vs, rfl⟩ := hv hk
    exact ⟨vs, column_map⟩

theorem fine_ofRows {role : String} {target : Target}
    (hr : k → (Sql.Query.objectPrivileges role target).Takes rows) :
    Fine k (Holdings.ofRows role rows) := by
  refine .bind (.mapM fun row hrow => ?_) fun _ _ => .ok _
  unfold Holdings.ofRow
  split
  · rename_i object privilege option
    have given (hk : k) : ∃ o, object = .text o ∧
        (privilege = .null ∨ ∃ name, privilege = .text name) := by
      obtain ⟨o, p, g, he, hp⟩ := hr hk _ hrow
      cases he
      exact ⟨o, rfl, hp⟩
    split
    · rename_i hc
      refine .of_not rfl fun hk => ?_
      obtain ⟨o, rfl, _⟩ := given hk
      cases hc
    · split
      · exact .ok _
      · refine .map ?_
        unfold Privilege.named
        split
        · exact .ok _
        · exact .own rfl
      · rename_i hnull htext
        refine .of_not rfl fun hk => ?_
        obtain ⟨_, _, h | ⟨name, h⟩⟩ := given hk
        · exact hnull h
        · exact htext name h
  · rename_i hwidth
    refine .of_not rfl fun hk => ?_
    obtain ⟨o, p, g, he, _⟩ := hr hk _ hrow
    exact hwidth _ _ _ he

theorem fst_ofRow {object privilege option : Value} {e : Value × Option (Privilege × Bool)}
    (h : Holdings.ofRow [object, privilege, option] = .ok e) : e.1 = object := by
  unfold Holdings.ofRow at h
  dsimp only at h
  split at h
  · cases h
  · split at h
    · cases h
      rfl
    · rename_i name
      cases hp : Privilege.named name with
      | error e => rw [hp] at h; cases h
      | ok p => rw [hp] at h; cases h; rfl
    · cases h

/-- The objects that are found are named by texts. -/
theorem texts_ofRows {role role' : String} {target : Target} {found : Holdings}
    (hr : (Sql.Query.objectPrivileges role' target).Takes rows)
    (h : Holdings.ofRows role rows = .ok found) : ∀ v ∈ found.names, ∃ s, v = .text s := by
  unfold Holdings.ofRows at h
  obtain ⟨held, hh, h⟩ := exists_of_bind_eq_ok h
  cases h
  obtain ⟨names, hnames, _⟩ := exists_map_of_forall (p := fun _ : String => True)
    (f := Value.text) (l := held.map (·.1)) fun v hv => by
      obtain ⟨e, he, rfl⟩ := List.mem_map.mp hv
      obtain ⟨row, hrow, hrow'⟩ := exists_of_mem_mapM_ok hh he
      obtain ⟨o, p, g, rfl, _⟩ := hr row hrow
      exact ⟨o, trivial, fst_ofRow hrow'⟩
  intro v hv
  obtain ⟨e, he, rfl⟩ := List.mem_map.mp hv
  obtain ⟨object, ho, rfl⟩ := List.mem_map.mp he
  rw [hnames, Value.eraseDups_texts] at ho
  obtain ⟨name, _, rfl⟩ := List.mem_map.mp ho
  exact ⟨name, rfl⟩

/-! ## Memberships -/

namespace Membership

theorem fine_ofResource (hr : k → r.Typed) : Fine k (ofResource r) := by
  unfold ofResource
  refine .bind (fine_texts hr (by decide)) fun _ _ => .guard rfl fun _ => ?_
  exact .bind (fine_required _ _) fun _ _ => .bind (fine_required _ _) fun _ _ => .ok _

theorem writable_ofResource {m : Membership} (hr : r.Typed) (h : ofResource r = .ok m) :
    '\x00' ∉ m.role.toList := by
  unfold ofResource at h
  obtain ⟨members, _, h⟩ := exists_of_bind_eq_ok h
  obtain ⟨_, h⟩ := of_guard_eq_ok h
  obtain ⟨name, _, h⟩ := exists_of_bind_eq_ok h
  obtain ⟨role, hrole, h⟩ := exists_of_bind_eq_ok h
  cases h
  exact writable_required hr (by decide) hrole

theorem fine_memberSet (hv : k → v.GivesTexts) : Fine k (memberSet v) := by
  unfold memberSet
  split
  · exact .ok _
  · rename_i ht
    refine .of_exists ?_ fun hk => ?_
    · split
      · exact .of_not rfl id
      · exact fine_distinct fun hk => hk.elim
    · rcases hv hk with rfl | ⟨items, rfl, hw⟩
      · exact absurd rfl ht
      · obtain ⟨names, rfl, _⟩ := exists_names hw
        exact ⟨_, Value.distinct_texts names⟩

theorem writable_memberSet (hv : v.GivesTexts) (h : memberSet v = .ok vs) :
    ∀ w ∈ vs, w.IsWritable := by
  unfold memberSet at h
  split at h
  · cases h
    exact fun _ hw => nomatch hw
  · rename_i ht
    rcases hv with rfl | ⟨items, rfl, hw⟩
    · exact absurd rfl ht
    · exact writable_distinct hw h

theorem fine_memberNames (hv : k → ∀ v ∈ vs, v.IsWritable) : Fine k (memberNames vs) :=
  .mapM fun v hm => fine_name fun hk => hv hk v hm

end Membership

/-! ## Extensions -/

namespace Extension

/-- Whether all that an extension names can be written. -/
def Writable (e : Extension) : Prop := Sql.Writable [e.database, e.name, e.schema, e.version]

theorem fine_ofResource {default : String} : Fine k (ofResource r default) :=
  .bind fine_database fun _ _ => .bind (fine_required _ _) fun _ _ =>
    .bind (fine_optional _) fun _ _ => .bind (fine_optional _) fun _ _ => .ok _

theorem writable_ofResource {default : String} {e : Extension} (hr : r.Typed)
    (hd : '\x00' ∉ default.toList) (h : ofResource r default = .ok e) : e.Writable := by
  unfold ofResource at h
  obtain ⟨database, hdatabase, h⟩ := exists_of_bind_eq_ok h
  obtain ⟨name, hn, h⟩ := exists_of_bind_eq_ok h
  obtain ⟨schema, hs, h⟩ := exists_of_bind_eq_ok h
  obtain ⟨version, hv, h⟩ := exists_of_bind_eq_ok h
  cases h
  exact writable_cons.mpr ⟨writable_database hr hd hdatabase,
    writable_cons.mpr ⟨writable_required hr (by decide) hn,
      writable_cons.mpr ⟨writable_optional hr (by decide) hs,
        writable_cons.mpr ⟨writable_optional hr (by decide) hv, writable_nil⟩⟩⟩⟩

end Extension

end DeclaredAccess
