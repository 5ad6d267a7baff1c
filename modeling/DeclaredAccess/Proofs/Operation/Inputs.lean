import DeclaredAccess.Proofs.Grant.Granted
import DeclaredAccess.Proofs.Policy.Merge
import DeclaredAccess.Proofs.Session.Surfacing
import DeclaredAccess.Schema.Found

/-! What reading resources and answers may fail with. A resource is typed if its fields hold texts
and lists where they are asked for; then all that can be wrong with it are findings about the
declaration. Nothing that is read leads to a conflict, whatever it is. -/

namespace DeclaredAccess

open Sql (Writable writable_cons writable_nil)

variable {k : Prop} {r : Resource} {v : Value} {vs : List Value}

/-! ## Typed resources -/

/-- A text that can be written, or nothing. -/
def Value.GivesText (v : Value) : Prop := v = .null ∨ v.IsWritable

/-- A list of texts that can be written, or nothing. -/
def Value.GivesTexts (v : Value) : Prop :=
  v = .null ∨ ∃ items, v = .list items ∧ ∀ w ∈ items, w.IsWritable

/-- A list of objects whose role is a text that can be written, or nothing. -/
def Value.IsPolicies (v : Value) : Prop := ∃ items, v = .list items ∧
  ∀ w ∈ items, ∃ fields, w = .object fields ∧ (Fields.value fields "role").GivesText

/-- The fields that hold texts. -/
def textKeys : List String :=
  ["role", "database", "schema", "object_type", "name", "owner", "version"]

/-- The fields that hold lists of texts. -/
def listKeys : List String := ["objects", "privileges", "members"]

structure Fields.Typed (f : Fields) : Prop where
  text : ∀ key ∈ textKeys, (Fields.value f key).GivesText
  texts : ∀ key ∈ listKeys, (Fields.value f key).GivesTexts
  policies : Fields.value f "policy" = .null ∨ (Fields.value f "policy").IsPolicies

/-- A resource whose fields, and those from before a change, hold texts and lists where these are
asked for. What has a name had one before the change. -/
structure Resource.Typed (r : Resource) : Prop where
  id : '\x00' ∉ r.id.toList
  values : Fields.Typed r.values
  previous : ∀ p, r.previous = some p → Fields.Typed p ∧
    (Fields.value r.values "name" ≠ .null → (Fields.value p "name").IsWritable)

/-- Texts alone, in fields that hold texts. -/
theorem Fields.typed_of_texts {f : Fields} (h : ∀ e ∈ f, e.1 ∈ textKeys ∧ e.2.IsWritable) :
    f.Typed := by
  have given (key : String) : f.value key = .null ∨ key ∈ textKeys ∧ (f.value key).IsWritable := by
    unfold value
    cases hv : Keyed.get? f key with
    | none => exact .inl rfl
    | some v => exact .inr (h _ (Keyed.mem_of_get? hv))
  have other {key : String} (hk : key ∉ textKeys) : f.value key = .null :=
    (given key).resolve_right fun hg => hk hg.1
  have listed : ∀ key ∈ listKeys, key ∉ textKeys := by decide
  exact ⟨fun key _ => (given key).imp_right And.right, fun key hk => .inl (other (listed key hk)),
    .inl (other (by decide))⟩

theorem Resource.get?_eq_some {key : String} (h : r.get? key = some v) :
    Fields.value r.values key = v ∧ v ≠ .null := by
  unfold get? at h
  split at h
  · cases h
  · rename_i hn
    cases h
    exact ⟨rfl, hn⟩

theorem Resource.writable_of_get? {key s : String} (hr : r.Typed) (hk : key ∈ textKeys)
    (h : r.get? key = some (.text s)) : '\x00' ∉ s.toList := by
  have ht := hr.values.text key hk
  rw [(get?_eq_some h).1] at ht
  obtain ht | ⟨_, ht, hs⟩ := ht
  · cases ht
  · cases ht
    exact hs

theorem Resource.isWritable_of_get? {key : String} (hr : r.Typed) (hk : key ∈ textKeys)
    (h : r.get? key = some v) : v.IsWritable := by
  obtain ⟨hv, hn⟩ := get?_eq_some h
  exact (hv ▸ hr.values.text key hk).resolve_left hn

namespace Fine

/-- What is never a conflict, and succeeds where `k` holds. -/
theorem of_exists {α : Type} {x : Except Error α} (h : Fine False x) (hk : k → ∃ a, x = .ok a) :
    Fine k x := by
  intro e he
  refine ⟨(h e he).1, fun hp => ?_⟩
  obtain ⟨a, ha⟩ := hk hp
  cases ha.symm.trans he

theorem guards {β : Type} {p q₁ q₂ : Prop} [Decidable p] [Decidable q₁] [Decidable q₂]
    {e₁ e₂ : Error} {f : Unit → Except Error β} (h₁ : e₁.isOwn = true) (h₂ : e₂.isOwn = true)
    (hf : Fine k (f ())) : Fine k (if p then if q₁ then throw e₁ >>= f else f ()
      else if q₂ then throw e₂ >>= f else f ()) := by
  split
  · exact .guard h₁ fun _ => hf
  · exact .guard h₂ fun _ => hf

end Fine

theorem fine_required (kind : ResourceKind) (key : String) : Fine k (r.required kind key) := by
  unfold Resource.required
  split
  · split
    · exact .own rfl
    · exact .ok _
  · exact .own rfl

theorem fine_optional (key : String) : Fine k (r.optional key) := by
  unfold Resource.optional
  split
  · exact .ok _
  · exact .ok _
  · exact .own rfl

theorem writable_required {kind : ResourceKind} {key s : String} (hr : r.Typed)
    (hk : key ∈ textKeys) (h : r.required kind key = .ok s) : '\x00' ∉ s.toList := by
  unfold Resource.required at h
  split at h
  · split at h
    · cases h
    · cases h
      exact Resource.writable_of_get? hr hk ‹_›
  · cases h

theorem writable_optional {key s : String} (hr : r.Typed) (hk : key ∈ textKeys)
    (h : r.optional key = .ok s) : '\x00' ∉ s.toList := by
  unfold Resource.optional at h
  split at h
  · cases h
    decide
  · cases h
    exact Resource.writable_of_get? hr hk ‹_›
  · cases h

/-- A list of texts, or the empty one in its place. -/
theorem gives_getD {key : String} (hr : r.Typed) (hk : key ∈ listKeys) :
    ∃ items, r.getD key (.list []) = .list items ∧ ∀ w ∈ items, w.IsWritable := by
  unfold Resource.getD
  cases h : r.get? key with
  | none => exact ⟨[], rfl, fun _ hw => nomatch hw⟩
  | some v =>
    obtain ⟨hv, hn⟩ := Resource.get?_eq_some h
    exact (hv ▸ hr.values.texts key hk).resolve_left hn

theorem mapM_text? {items : List Value} (h : ∀ w ∈ items, w.IsWritable) :
    ∃ ts, items.mapM Value.text? = some ts ∧ Writable ts := by
  induction items with
  | nil => exact ⟨[], rfl, writable_nil⟩
  | cons w items ih =>
    obtain ⟨t, rfl, ht⟩ := h w List.mem_cons_self
    obtain ⟨ts, hts, hw⟩ := ih fun v hv => h v (List.mem_cons_of_mem _ hv)
    exact ⟨t :: ts, by rw [List.mapM_cons, hts]; rfl, writable_cons.mpr ⟨ht, hw⟩⟩

theorem exists_texts {key : String} (hr : r.Typed) (hk : key ∈ listKeys) :
    ∃ names, r.texts key = .ok names ∧ Writable names := by
  obtain ⟨items, hi, hw⟩ := gives_getD hr hk
  obtain ⟨ts, hts, hwritable⟩ := mapM_text? hw
  unfold Resource.texts
  rw [hi]
  cases items with
  | nil => exact ⟨[], rfl, writable_nil⟩
  | cons w items => exact ⟨ts, by simp [Value.truthy, Value.items?, hts, pure, Except.pure], hwritable⟩

theorem fine_texts {key : String} (hr : k → r.Typed) (hk : key ∈ listKeys) :
    Fine k (r.texts key) := by
  refine .of_exists ?_ fun h => ?_
  · unfold Resource.texts
    dsimp only
    split
    · exact .ok _
    · split
      · exact .of_not rfl id
      · split
        · exact .ok _
        · exact .own rfl
  · obtain ⟨names, hn, _⟩ := exists_texts (hr h) hk
    exact ⟨names, hn⟩

theorem fine_database {kind : ResourceKind} {default : String} :
    Fine k (r.database kind default) :=
  .bind (fine_optional _) fun _ _ => .guard rfl fun _ => .ok _

theorem writable_database {kind : ResourceKind} {default database : String} (hr : r.Typed)
    (hd : '\x00' ∉ default.toList) (h : r.database kind default = .ok database) :
    '\x00' ∉ database.toList := by
  obtain ⟨given, hg, h⟩ := exists_of_bind_eq_ok h
  obtain ⟨_, h⟩ := of_guard_eq_ok h
  cases h
  split
  · exact hd
  · exact writable_optional hr (by decide) hg

/-! ## Grants -/

/-- Whether all that a grant names can be written. -/
def Grant.Writable (g : Grant) : Prop := Sql.Writable (g.role :: g.database :: g.schema :: g.objects)

theorem fine_addNamed {kind : ObjectKind} {s : PrivilegeSet} {name : String} :
    Fine k (PrivilegeSet.addNamed kind s name) := by
  unfold PrivilegeSet.addNamed
  split
  · exact .ok _
  · refine .bind ?_ fun p _ => ?_
    · unfold Privilege.named
      split
      · exact .ok _
      · exact .own rfl
    · split
      · exact .ok _
      · exact .own rfl

theorem fine_ofNames {kind : ObjectKind} {names : List String} :
    Fine k (PrivilegeSet.ofNames kind names) := by
  unfold PrivilegeSet.ofNames
  generalize (∅ : PrivilegeSet) = s
  induction names generalizing s with
  | nil => exact .ok s
  | cons n names ih =>
    rw [List.foldlM_cons]
    exact fine_addNamed.bind fun s' _ => ih s'

namespace Grant

theorem fine_kindOf {name : String} : Fine k (kindOf name) := by
  unfold kindOf
  split
  · split
    · exact .ok _
    · exact .own rfl
  · exact .own rfl

theorem fine_checkMarks {key : String} {items : List String} : Fine k (checkMarks key items) := by
  unfold checkMarks
  split
  · exact .own rfl
  · exact .ok _

theorem fine_ofResource {b : Bool} (hr : k → r.Typed) : Fine k (ofResource r b) := by
  unfold ofResource
  refine .bind (fine_required _ _) fun named _ => .bind (fine_required _ _) fun database _ => ?_
  refine .bind (fine_optional _) fun schema _ => .bind (fine_required _ _) fun name _ => ?_
  refine .bind fine_kindOf fun kind _ => .bind (fine_texts hr (by decide)) fun objects _ => ?_
  refine .guards rfl rfl (.bind (fine_texts hr (by decide)) fun names _ => ?_)
  refine .guard rfl fun _ => .bind fine_ofNames fun privileges _ => .guard rfl fun _ => ?_
  refine .bind fine_checkMarks fun _ _ => .bind fine_checkMarks fun _ _ => ?_
  exact .bind fine_checkMarks fun _ _ => .bind fine_checkMarks fun _ _ => .ok _

theorem writable_ofResource {b : Bool} {g : Grant} (hr : r.Typed) (h : ofResource r b = .ok g) :
    g.Writable := by
  obtain ⟨named, _, items, _, h⟩ := ofResource_eq_ok_iff.mp h
  have role : '\x00' ∉ g.role.toList := by
    rw [h.role]
    split
    · exact (by decide : '\x00' ∉ "".toList)
    · exact writable_required hr (by decide) h.given
  have objects : Sql.Writable g.objects := by
    have written : ∃ names, r.texts "objects" = .ok names ∧ Sql.Writable names :=
      exists_texts hr (by decide)
    obtain ⟨_, listed, hw⟩ := written
    cases h.listed.symm.trans listed
    rw [h.objects]
    exact fun o ho => hw o (mem_sortNames.mp ho)
  exact writable_cons.mpr ⟨role, writable_cons.mpr ⟨writable_required hr (by decide) h.database,
    writable_cons.mpr ⟨writable_optional hr (by decide) h.schema, objects⟩⟩⟩

end Grant

theorem Text.mem_of_mem_split {mark c : Char} {cs w : List Char} (hw : w ∈ split mark cs)
    (hc : c ∈ w) : c ∈ cs := by
  have hall : ∀ ws : List (List Char), w ∈ ws → c ∈ join mark ws := by
    intro ws
    induction ws with
    | nil => exact fun h => nomatch h
    | cons v ws ih =>
      intro h
      cases ws with
      | nil => exact List.mem_singleton.mp h ▸ hc
      | cons u ws =>
        show c ∈ v ++ mark :: join mark (u :: ws)
        rcases List.mem_cons.mp h with rfl | h
        · exact List.mem_append_left _ hc
        · exact List.mem_append_right _ (List.mem_cons_of_mem _ (ih h))
  rw [← join_split mark cs]
  exact hall _ hw

theorem Text.mem_of_mem_cut {mark c : Char} {cs : List Char} :
    (c ∈ (cut mark cs).1 → c ∈ cs) ∧ (c ∈ (cut mark cs).2 → c ∈ cs) :=
  ⟨fun h => List.takeWhile_subset _ h,
    fun h => List.dropWhile_subset _ (List.drop_subset _ _ h)⟩

/-- The objects of an identifier are parts of it. -/
theorem GrantId.writable_objects {id : String} {a : GrantId} (h : read id = .ok a)
    (hi : '\x00' ∉ id.toList) : Writable a.objects := by
  unfold read at h
  cases hc : readChars? id.toList with
  | none => rw [hc] at h; cases h
  | some b =>
    rw [hc] at h
    cases h
    unfold readChars? at hc
    dsimp only at hc
    split at hc
    · cases hc
    · split at hc
      · rename_i hs
        cases hc
        intro o ho hn
        dsimp only at ho
        unfold commaSplit at ho
        split at ho
        · cases ho
        · obtain ⟨w, hw, rfl⟩ := List.mem_map.mp ho
          rw [String.toList_ofList] at hn
          have hin : '\x00' ∈ (Text.cut '.' id.toList).2 := by
            rw [← Text.join_split ':' (Text.cut '.' id.toList).2, hs]
            have := Text.mem_of_mem_split hw hn
            simp [Text.join, this]
          exact hi (Text.mem_of_mem_cut.2 hin)
      · cases hc

namespace Grant

theorem fine_applied (hr : k → r.Typed) : Fine k (applied r) := by
  unfold applied
  refine .bind (fine_ofResource hr) fun g _ => ?_
  split
  · exact .ok _
  · refine .bind ?_ fun a _ => .bind fine_ofNames fun _ _ => .ok _
    unfold GrantId.read
    split
    · exact .ok _
    · exact .own rfl

/-- What was applied can be written, and its privileges are those of its kind. -/
theorem placed_of_applied {g : Grant} (h : applied r = .ok g) :
    g.privileges ⊆ g.kind.allowed ∧ (r.Typed → g.Writable) := by
  unfold applied at h
  obtain ⟨g₀, h₀, h⟩ := exists_of_bind_eq_ok h
  split at h
  · cases h
    exact ⟨(placed_of_declared h₀).1, fun hr => writable_ofResource hr h₀⟩
  · obtain ⟨a, ha, h⟩ := exists_of_bind_eq_ok h
    obtain ⟨privileges, hp, h⟩ := exists_of_bind_eq_ok h
    cases h
    refine ⟨PrivilegeSet.ofNames_subset hp, fun hr => ?_⟩
    obtain ⟨hrole, hrest⟩ := writable_cons.mp (writable_ofResource hr h₀)
    obtain ⟨hdatabase, hrest⟩ := writable_cons.mp hrest
    exact writable_cons.mpr ⟨hrole, writable_cons.mpr ⟨hdatabase,
      writable_cons.mpr ⟨(writable_cons.mp hrest).1, GrantId.writable_objects ha hr.id⟩⟩⟩

end Grant

end DeclaredAccess
