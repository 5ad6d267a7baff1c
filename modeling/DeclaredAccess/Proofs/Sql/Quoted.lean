import DeclaredAccess.Proofs.Sql.Joint

/-! What each statement has in quotes. Beside the strings that it is given these are constants of
its own, such as the letters for kinds of relation, which stand in the list as they are. Every
statement whose values are texts is written, and read it has just these strings in quotes, in
order. -/

namespace DeclaredAccess.Sql

open Reader (Edge Joins)

def textOf (v : Value) : List String := v.text?.toList

def unlessEmpty (s : String) : List String := if s.isEmpty then [] else [s]

/-- The names of a target in a privilege statement. -/
def targetQuoted (t : Target) : List String :=
  if !t.kind.inSchema then [t.name]
  else if t.objects.isEmpty then [t.schema]
  else t.objects.flatMap fun o => [t.schema, o]

def listedQuoted (column : String) (objects : List String) : List String :=
  if objects.isEmpty then [] else column :: objects

/-- The strings in a question about the objects of a target. -/
def objectsQuoted (t : Target) : List String := match t.kind with
  | .database => [t.name]
  | .function => t.schema :: listedQuoted "proname" t.objects
  | .sequence => t.schema :: sequenceKinds ++ listedQuoted "relname" t.objects
  | .table | .schema => t.schema :: tableKinds ++ listedQuoted "relname" t.objects

def Query.quoted : Query → List String
  | currentUser => []
  | roleExists r | roleMembers r => [r]
  | databaseExists v | schemaExists v => textOf v
  | hasRole member r => textOf member ++ textOf r ++ ["USAGE"]
  | revocableMembership member r => textOf r ++ textOf member ++ ["server_version_num"]
  | schema s => "\x7b\x7d" :: textOf s
  | relationOwners s => s :: (tableKinds ++ sequenceKinds)
  | objectPrivileges r t => objectsQuoted t ++ defaultsLetter t.kind :: unlessEmpty r
  | extension name => [name]

def Change.quoted : Change → List String
  | grant _ t r _ | revokeAll t r => targetQuoted t ++ unlessEmpty r
  | grantMembership roles member | revokeMembership roles member => roles ++ [member]
  | createSchema name owner _ => name :: unlessEmpty owner
  | renameSchema name other | setSchemaOwner name other | setExtensionSchema name other =>
    [name, other]
  | dropSchema name _ | dropExtension name => [name]
  | createExtension name schema version => name :: (unlessEmpty schema ++ unlessEmpty version)
  | updateExtension name version => name :: unlessEmpty version

def Statement.quoted : Statement → List String
  | query q => q.quoted
  | change c => c.quoted
  | raw _ => []

/-- The values that a question is given. -/
def Query.values : Query → List Value
  | databaseExists v | schemaExists v | schema v => [v]
  | hasRole v w | revocableMembership v w => [v, w]
  | _ => []

/-- Whether a statement is one of the library's own and is given texts only. -/
def Statement.isOfTexts : Statement → Bool
  | query q => q.values.all fun v => v.text?.isSome
  | change _ => true
  | raw _ => false

/-! ## Characters in a row -/

namespace Reader

variable {e e' : Edge} {cs ds : List Char}

/-- Where the reader gets from between two tokens decides what the tokens are. -/
theorem over_of_reads {n : Mode} {ts : List Token} (hn : n.edge? = some e)
    (h : Reads (.gap false) cs n ts) :
    (Edge.gap false).over cs = some e ∧ tokensOf cs = ts := by
  refine ⟨?_, by rw [tokensOf, read_of_reads h]; rfl⟩
  obtain ⟨us, p, q, hs, hp, hq, he⟩ := h
  cases cs with
  | nil =>
    cases hs
    exact hn
  | cons c r =>
    simp only [Edge.over, Edge.mode, Mode.continues, Mode.afterText]
    simpa [hs] using hn

theorem over_append (h : (Edge.gap false).over cs = some e) (h' : e.over ds = some e') :
    (Edge.gap false).over (cs ++ ds) = some e' ∧
      tokensOf (cs ++ ds) = tokensOf cs ++ tokensOf ds := by
  obtain ⟨n, hn, hr⟩ := reads_over (m := .gap false) rfl h
  obtain ⟨o, ho, hr'⟩ := reads_over hn h'
  exact over_of_reads ho (hr.append hr')

theorem over_keyword (p : Privilege) :
    (Edge.gap false).over p.keyword.toList = some .word := by
  cases p <;> decide

theorem tokensOf_comma : tokensOf [','] = [.mark ','] := by decide

end Reader

/-- The tokens for privileges with commas between them. -/
def keywordTokens : List Privilege → List Token
  | [] => []
  | [p] => tokensOf p.keyword.toList
  | p :: q :: ps => tokensOf p.keyword.toList ++ .mark ',' :: keywordTokens (q :: ps)

theorem over_keywords (p : Privilege) (ps : List Privilege) :
    (Edge.gap false).over (",".intercalate ((p :: ps).map Privilege.keyword)).toList = some .word ∧
      tokensOf (",".intercalate ((p :: ps).map Privilege.keyword)).toList =
        keywordTokens (p :: ps) := by
  induction ps generalizing p with
  | nil =>
    simpa [String.toList_intercalate, List.intercalate, keywordTokens] using Reader.over_keyword p
  | cons q qs ih =>
    obtain ⟨hrest, htok⟩ := ih q
    have hcut : (",".intercalate ((p :: q :: qs).map Privilege.keyword)).toList =
        (p.keyword.toList ++ [',']) ++ (",".intercalate ((q :: qs).map Privilege.keyword)).toList := by
      simp [String.toList_intercalate, List.intercalate]
    have hcomma : Edge.over .word [','] = some (.gap false) := by decide
    obtain ⟨hp, hpt⟩ := Reader.over_append (Reader.over_keyword p) hcomma
    obtain ⟨hall, halltok⟩ := Reader.over_append hp hrest
    rw [hcut]
    refine ⟨hall, ?_⟩
    rw [halltok, hpt, htok, Reader.tokensOf_comma, List.append_assoc]
    rfl

theorem mem_keywordTokens {ps : List Privilege} {t : Token} (h : t ∈ keywordTokens ps) :
    t = .mark ',' ∨ ∃ p : Privilege, t ∈ tokensOf p.keyword.toList := by
  induction ps with
  | nil => cases h
  | cons p ps ih =>
    cases ps with
    | nil => exact .inr ⟨p, h⟩
    | cons q qs =>
      rcases List.mem_append.mp h with h | h
      · exact .inr ⟨p, h⟩
      · rcases List.mem_cons.mp h with h | h
        · exact .inl h
        · exact ih h

/-- The keywords of a grant before its target. -/
def grantTokens (s : PrivilegeSet) : List Token :=
  .word ['G', 'R', 'A', 'N', 'T'] :: keywordTokens s.toList ++ [.word ['O', 'N']]

theorem over_grant (s : PrivilegeSet) :
    (Edge.gap false).over ("GRANT " ++ ",".intercalate s.keywords ++ " ON ").toList =
        some (.gap false) ∧
      tokensOf ("GRANT " ++ ",".intercalate s.keywords ++ " ON ").toList = grantTokens s := by
  have hverb : (Edge.gap false).over "GRANT ".toList = some (.gap false) ∧
      tokensOf "GRANT ".toList = [.word ['G', 'R', 'A', 'N', 'T']] := by decide
  have hon (e : Edge) (he : e = .word ∨ e = .gap false) :
      e.over " ON ".toList = some (.gap false) := by
    rcases he with rfl | rfl <;> decide
  have hont : tokensOf " ON ".toList = [.word ['O', 'N']] := by decide
  rw [String.toList_append, String.toList_append]
  unfold grantTokens PrivilegeSet.keywords
  cases s.toList with
  | nil =>
    have hnone : (",".intercalate (List.map Privilege.keyword [])).toList = [] := rfl
    obtain ⟨hall, htok⟩ := Reader.over_append hverb.1 (hon _ (.inr rfl))
    rw [hnone, List.append_nil]
    refine ⟨hall, ?_⟩
    rw [htok, hverb.2, hont]
    rfl
  | cons p ps =>
    obtain ⟨hkeys, hkeyt⟩ := over_keywords p ps
    obtain ⟨hfront, hfrontt⟩ := Reader.over_append hverb.1 hkeys
    obtain ⟨hall, htok⟩ := Reader.over_append hfront (hon _ (.inl rfl))
    refine ⟨hall, ?_⟩
    rw [htok, hfrontt, hkeyt, hverb.2, hont]
    rfl

theorem quoted_keywordTokens (ps : List Privilege) :
    (keywordTokens ps).filterMap Token.quoted? = [] := by
  refine List.filterMap_eq_nil_iff.mpr fun t ht => ?_
  rcases mem_keywordTokens ht with rfl | ⟨p, hp⟩
  · rfl
  · have hall : (tokensOf p.keyword.toList).all (fun t => t.quoted?.isNone) = true := by
      cases p <;> decide
    exact Option.isNone_iff_eq_none.mp (List.all_eq_true.mp hall t hp)

theorem leads_grant (s : PrivilegeSet) :
    (Edge.gap false).leads ("GRANT " ++ ",".intercalate s.keywords ++ " ON ").toList (.gap false)
      [] = true := by
  obtain ⟨hover, htok⟩ := over_grant s
  have hnone : (grantTokens s).filterMap Token.quoted? = [] := by
    rw [grantTokens, List.cons_append, List.filterMap_cons_none rfl, List.filterMap_append,
      quoted_keywordTokens]
    rfl
  rw [Edge.leads, hover, htok, hnone]
  rfl

/-! ## Changes -/

/-- No string has a NUL character. -/
def Writable (ss : List String) : Prop := ∀ s ∈ ss, '\x00' ∉ s.toList

instance (ss : List String) : Decidable (Writable ss) :=
  inferInstanceAs (Decidable (∀ s ∈ ss, '\x00' ∉ s.toList))

theorem writable_cons {s : String} {ss : List String} :
    Writable (s :: ss) ↔ '\x00' ∉ s.toList ∧ Writable ss := by
  simp [Writable]

theorem writable_nil : Writable [] := fun _ hs => by cases hs

theorem writable_append {ss ss' : List String} :
    Writable (ss ++ ss') ↔ Writable ss ∧ Writable ss' := by
  simp only [Writable, List.mem_append]
  exact ⟨fun h => ⟨fun s hs => h s (.inl hs), fun s hs => h s (.inr hs)⟩,
    fun h s hs => hs.elim (h.1 s) (h.2 s)⟩

theorem joins_target {t : Target} (h : Writable (targetQuoted t)) :
    Joins (.gap false) (target t) .name (targetQuoted t) := by
  unfold target
  unfold targetQuoted at h ⊢
  split
  · rename_i hk
    simp only [hk, if_true, writable_cons] at h
    refine .fixed ?_ (.name h.1 .nil)
    cases t.kind <;> decide
  · rename_i hk
    simp only [hk, Bool.false_eq_true, if_false] at h
    split
    · rename_i ho
      simp only [ho, if_true, writable_cons] at h
      refine .fixed ?_ (.name h.1 .nil)
      cases t.kind <;> decide
    · rename_i ho
      simp only [ho, Bool.false_eq_true, if_false] at h
      have hne : t.objects ≠ [] := by simpa using ho
      have hobj : ∀ o ∈ t.objects, '\x00' ∉ t.schema.toList ∧ '\x00' ∉ o.toList := fun o hm =>
        ⟨h _ (List.mem_flatMap.mpr ⟨o, hm, by simp⟩), h _ (List.mem_flatMap.mpr ⟨o, hm, by simp⟩)⟩
      obtain ⟨o, hm⟩ := List.exists_mem_of_ne_nil _ hne
      refine .fixed ?_ (.objects (hobj o hm).1 (fun x hx => (hobj x hx).2) hne)
      cases t.kind <;> decide

/-- Behind a role the reader is at a name, or at the keyword `PUBLIC`. -/
theorem joins_role {r : String} (h : Writable (unlessEmpty r)) :
    ∃ e, (e = .name ∨ e = .word) ∧ Joins (.gap false) [role r] e (unlessEmpty r) := by
  unfold role
  unfold unlessEmpty at h ⊢
  split
  · exact ⟨.word, .inr rfl, .fixed (by decide) .nil⟩
  · rename_i hr
    simp only [hr, Bool.false_eq_true, if_false] at h
    exact ⟨.name, .inl rfl, .name (h r (by simp)) .nil⟩

/-- A clause that is left out where its text is empty. -/
theorem joins_clause {keyword text : String} (piece : String → Piece) {e e' : Edge}
    (hkey : e.leads keyword.toList (.gap false) [] = true)
    (h : '\x00' ∉ text.toList → Joins (.gap false) [piece text] e' [text])
    (hw : Writable (unlessEmpty text)) :
    ∃ e'', (e'' = e' ∨ e'' = e) ∧ Joins e (clause keyword piece text) e'' (unlessEmpty text) := by
  unfold clause
  unfold unlessEmpty at hw ⊢
  split
  · exact ⟨e, .inr rfl, .nil⟩
  · rename_i ht
    simp only [ht, Bool.false_eq_true, if_false, writable_cons] at hw
    exact ⟨e', .inl rfl, .fixed hkey (h hw.1)⟩

theorem Change.joins {c : Change} (h : Writable c.quoted) :
    ∃ e, Joins (.gap false) c.pieces e c.quoted := by
  cases c with
  | grant privileges t r option =>
    obtain ⟨ht, hr⟩ := writable_append.mp h
    obtain ⟨e, he, hrole⟩ := joins_role hr
    have hfront := (Joins.own_one (leads_grant privileges)).append (joins_target ht)
    have hto : Joins .name [.fixed " TO "] (.gap false) [] := .fixed (by decide) .nil
    have hall := hfront.append (hto.append hrole)
    cases option with
    | false => exact ⟨e, by simpa [pieces, quoted] using hall⟩
    | true =>
      have hoption : Joins e [.fixed " WITH GRANT OPTION"] .word [] := by
        rcases he with rfl | rfl <;> exact .fixed (by decide) .nil
      exact ⟨.word, by simpa [pieces, quoted] using hall.append hoption⟩
  | revokeAll t r =>
    obtain ⟨ht, hr⟩ := writable_append.mp h
    obtain ⟨e, _, hrole⟩ := joins_role hr
    have hverb : Joins (.gap false) [.fixed "REVOKE ALL PRIVILEGES ON "] (.gap false) [] :=
      .fixed (by decide) .nil
    have hfrom : Joins .name [.fixed " FROM "] (.gap false) [] := .fixed (by decide) .nil
    exact ⟨e, by simpa [pieces, quoted] using
      (hverb.append (joins_target ht)).append (hfrom.append hrole)⟩
  | grantMembership roles member =>
    obtain ⟨hroles, hmember⟩ := writable_append.mp h
    obtain ⟨e, he, hnames⟩ := Joins.names hroles
    have hto : e.leads " TO ".toList (.gap false) [] = true := by
      rcases he with rfl | rfl <;> decide
    exact ⟨_, .fixed (by decide)
      (hnames.append (.fixed hto (.name (writable_cons.mp hmember).1 .nil)))⟩
  | revokeMembership roles member =>
    obtain ⟨hroles, hmember⟩ := writable_append.mp h
    obtain ⟨e, he, hnames⟩ := Joins.names hroles
    have hfrom : e.leads " FROM ".toList (.gap false) [] = true := by
      rcases he with rfl | rfl <;> decide
    exact ⟨_, .fixed (by decide)
      (hnames.append (.fixed hfrom (.name (writable_cons.mp hmember).1 .nil)))⟩
  | createSchema name owner ifNotExists =>
    obtain ⟨hname, howner⟩ := writable_cons.mp h
    have hkey : Edge.leads .name " AUTHORIZATION ".toList (.gap false) [] = true := by
      decide
    obtain ⟨e, _, hclause⟩ := joins_clause .name hkey Joins.name_one howner
    refine ⟨e, .fixed ?_ (.name hname hclause)⟩
    cases ifNotExists <;> decide
  | createExtension name schema version =>
    obtain ⟨hname, hrest⟩ := writable_cons.mp h
    obtain ⟨hschema, hversion⟩ := writable_append.mp hrest
    have hkey : Edge.leads .name " SCHEMA ".toList (.gap false) [] = true := by decide
    obtain ⟨e, he, hin⟩ := joins_clause .name hkey Joins.name_one hschema
    have hkey : e.leads " VERSION ".toList (.gap false) [] = true := by
      rcases he with rfl | rfl <;> decide
    obtain ⟨e', _, hof⟩ := joins_clause (fun v => .constant (.text v)) hkey Joins.text_one hversion
    have hverb : Edge.leads (.gap false) "CREATE EXTENSION IF NOT EXISTS ".toList (.gap false) [] =
        true := by decide
    have hall := Joins.fixed hverb (.name hname (hin.append hof))
    exact ⟨e', by simpa [pieces, quoted] using hall⟩
  | updateExtension name version =>
    obtain ⟨hname, hversion⟩ := writable_cons.mp h
    have hkey : Edge.leads .word " TO ".toList (.gap false) [] = true := by decide
    obtain ⟨e, _, hto⟩ := joins_clause (fun v => .constant (.text v)) hkey Joins.text_one hversion
    exact ⟨e, .fixed (by decide) (.name hname (.fixed (by decide) hto))⟩
  | dropSchema name cascade =>
    have hname := (writable_cons.mp h).1
    refine ⟨.word, .fixed (by decide) (.name hname (.fixed ?_ .nil))⟩
    cases cascade <;> decide
  | renameSchema a b | setSchemaOwner a b | setExtensionSchema a b =>
    obtain ⟨ha, hb⟩ := writable_cons.mp h
    exact ⟨.name, .fixed (by decide) (.name ha (.fixed (by decide)
      (.name (writable_cons.mp hb).1 .nil)))⟩
  | dropExtension name =>
    exact ⟨.name, .fixed (by decide) (.name (writable_cons.mp h).1 .nil)⟩

/-! ## Questions

The fixed parts of a question are long. Each is opened to the list of its characters before it is
read, since a literal is made of a list and need not be decoded then. -/

theorem eq_text_of_isSome {v : Value} (h : v.text?.isSome = true) : ∃ s, v = .text s := by
  cases v with
  | text s => exact ⟨s, rfl⟩
  | _ => cases h

set_option maxRecDepth 2000 in
theorem joins_relations {schema : String} {kinds : List String} (hs : '\x00' ∉ schema.toList)
    (hk : Writable kinds) (hne : kinds ≠ []) :
    Joins (.gap false) (relations schema kinds) (.gap false) (schema :: kinds) := by
  have hclose : Edge.leads .text ")\n            ".toList (.gap false) [] = true := by
    decide
  have hkinds := (Joins.constants hk hne).append (.fixed hclose .nil)
  rw [List.append_nil] at hkinds
  unfold relations
  rw [List.append_assoc]
  refine .fixed ?_ (.text hs (.fixed ?_ hkinds))
  all_goals
    repeat rw [String.toList_append]
    repeat rw [String.toList_ofList]
    decide

set_option maxRecDepth 2000 in
theorem joins_functions {schema : String} (hs : '\x00' ∉ schema.toList) :
    Joins (.gap false) (functions schema) (.gap true) [schema] := by
  refine .fixed ?_ (.text hs (.fixed ?_ .nil))
  all_goals
    repeat rw [String.toList_append]
    repeat rw [String.toList_ofList]
    decide

theorem joins_listed {column : String} {xs : List String} {e : Edge} (hc : '\x00' ∉ column.toList)
    (he : e = .gap true ∨ e = .gap false) (h : Writable (listedQuoted column xs)) :
    ∃ e', (e' = .gap true ∨ e' = .gap false) ∧
      Joins e (listed column xs) e' (listedQuoted column xs) := by
  unfold listed
  unfold listedQuoted at h ⊢
  split
  · exact ⟨e, he, .nil⟩
  · rename_i hx
    simp only [hx, Bool.false_eq_true, if_false, writable_cons] at h
    have hand : e.leads " AND ".toList (.gap false) [] = true := by
      rcases he with rfl | rfl <;> decide
    have hclose : Edge.leads .text ")".toList (.gap false) [] = true := by decide
    have hitems := (Joins.constants h.2 (by simpa using hx)).append (.fixed hclose .nil)
    rw [List.append_nil] at hitems
    rw [List.append_assoc]
    exact ⟨_, .inr rfl, .fixed hand (.name hc (.fixed (by decide) hitems))⟩

theorem writable_kinds : Writable tableKinds ∧ Writable sequenceKinds := by
  unfold Writable
  decide

set_option maxRecDepth 2000 in
theorem joins_objects {t : Target} (h : Writable (objectsQuoted t)) :
    ∃ e, (e = .text ∨ e = .gap true ∨ e = .gap false) ∧
      Joins (.gap false) (objects t) e (objectsQuoted t) := by
  have hproname : '\x00' ∉ "proname".toList := by decide
  have hrelname : '\x00' ∉ "relname".toList := by decide
  unfold objects
  unfold objectsQuoted at h ⊢
  cases hk : t.kind with
  | database =>
    simp only [hk, writable_cons] at h
    refine ⟨.text, .inl rfl, .fixed ?_ (.text h.1 .nil)⟩
    repeat rw [String.toList_append]
    repeat rw [String.toList_ofList]
    decide
  | function =>
    simp only [hk, writable_cons] at h
    obtain ⟨e, he, hl⟩ := joins_listed hproname (.inl rfl) h.2
    exact ⟨e, .inr he, (joins_functions h.1).append hl⟩
  | sequence =>
    simp only [hk, List.cons_append, writable_cons, writable_append] at h
    obtain ⟨e, he, hl⟩ := joins_listed hrelname (.inr rfl) h.2.2
    exact ⟨e, .inr he, (joins_relations h.1 h.2.1 (by decide)).append hl⟩
  | table | schema =>
    simp only [hk, List.cons_append, writable_cons, writable_append] at h
    obtain ⟨e, he, hl⟩ := joins_listed hrelname (.inr rfl) h.2.2
    exact ⟨e, .inr he, (joins_relations h.1 h.2.1 (by decide)).append hl⟩

theorem joins_grantee {r : String} (h : Writable (unlessEmpty r)) :
    ∃ e, (e = .word ∨ e = .gap false) ∧ Joins (.gap false) (grantee r) e (unlessEmpty r) := by
  unfold grantee
  unfold unlessEmpty at h ⊢
  split
  · exact ⟨.word, .inl rfl, .fixed (by decide) .nil⟩
  · rename_i hr
    simp only [hr, Bool.false_eq_true, if_false, writable_cons] at h
    refine ⟨.gap false, .inr rfl, .fixed ?_ (.text h.1 (.fixed (by decide) .nil))⟩
    repeat rw [String.toList_ofList]
    decide

set_option maxRecDepth 2000 in
theorem Query.joins {q : Query} (hv : (q.values.all fun v => v.text?.isSome) = true)
    (h : Writable q.quoted) : ∃ e, Joins (.gap false) q.pieces e q.quoted := by
  cases q with
  | currentUser =>
    refine ⟨.word, .fixed ?_ .nil⟩
    decide
  | roleExists r =>
    refine ⟨.gap false, .fixed ?_ (.text (writable_cons.mp h).1 (.fixed ?_ .nil))⟩
    all_goals
      repeat rw [String.toList_ofList]
      decide
  | databaseExists v | schemaExists v =>
    obtain ⟨s, rfl⟩ := eq_text_of_isSome (by simpa [values] using hv)
    refine ⟨.gap false, .fixed ?_ (.text (writable_cons.mp h).1 (.fixed ?_ .nil))⟩
    all_goals
      repeat rw [String.toList_ofList]
      decide
  | hasRole v w =>
    have hvw : v.text?.isSome = true ∧ w.text?.isSome = true := by simpa [values] using hv
    obtain ⟨member, rfl⟩ := eq_text_of_isSome hvw.1
    obtain ⟨r, rfl⟩ := eq_text_of_isSome hvw.2
    obtain ⟨hm, hr⟩ := writable_cons.mp h
    refine ⟨.gap false, .fixed ?_ (.text hm (.fixed ?_ (.text (writable_cons.mp hr).1
      (.own ["USAGE"] ?_ .nil))))⟩
    all_goals
      repeat rw [String.toList_ofList]
      decide
  | revocableMembership v w =>
    have hvw : v.text?.isSome = true ∧ w.text?.isSome = true := by simpa [values] using hv
    obtain ⟨member, rfl⟩ := eq_text_of_isSome hvw.1
    obtain ⟨r, rfl⟩ := eq_text_of_isSome hvw.2
    obtain ⟨hr, hm⟩ := writable_cons.mp h
    refine ⟨.gap false, .fixed ?_ (.text hr (.fixed ?_ (.text (writable_cons.mp hm).1
      (.own ["server_version_num"] ?_ .nil))))⟩
    all_goals
      repeat rw [String.toList_append]
      repeat rw [String.toList_ofList]
      decide
  | schema v =>
    obtain ⟨s, rfl⟩ := eq_text_of_isSome (by simpa [values] using hv)
    have hs := (writable_cons.mp (writable_cons.mp h).2).1
    refine ⟨.gap true, .own ["\x7b\x7d"] ?_ (.text hs (.fixed ?_ .nil))⟩
    all_goals
      repeat rw [String.toList_append]
      repeat rw [String.toList_ofList]
      decide
  | relationOwners s =>
    obtain ⟨hs, hk⟩ := writable_cons.mp h
    have hclose : Edge.leads .text ")\n            ORDER BY 1\n        ".toList (.gap false) [] =
        true := by decide
    have hkinds := (Joins.constants hk (by decide)).append (.fixed hclose .nil)
    rw [List.append_nil] at hkinds
    refine ⟨.gap false, .fixed ?_ (.text hs (.fixed ?_ hkinds))⟩
    all_goals
      repeat rw [String.toList_append]
      repeat rw [String.toList_ofList]
      decide
  | objectPrivileges r t =>
    obtain ⟨ho, hrest⟩ := writable_append.mp h
    obtain ⟨hl, hr⟩ := writable_cons.mp hrest
    obtain ⟨e, he, hobjects⟩ := joins_objects ho
    obtain ⟨e', he', hgrantee⟩ := joins_grantee hr
    obtain ⟨e'', hend⟩ : ∃ e'', Joins e' [.fixed ("\n) acl ON true" ++ "\nORDER BY o.name" ++ "\n")]
        e'' [] := by
      refine ⟨.gap false, .fixed ?_ .nil⟩
      repeat rw [String.toList_append]
      repeat rw [String.toList_ofList]
      rcases he' with rfl | rfl <;> decide
    have htail := hgrantee.append hend
    rw [List.append_nil] at htail
    refine ⟨e'', ?_⟩
    simp only [pieces, List.append_assoc]
    refine .fixed ?_ (hobjects.append (.fixed ?_ (.text hl (.fixed ?_ htail))))
    · repeat rw [String.toList_append]
      repeat rw [String.toList_ofList]
      decide
    · repeat rw [String.toList_append]
      repeat rw [String.toList_ofList]
      rcases he with rfl | rfl | rfl <;> decide
    · repeat rw [String.toList_append]
      repeat rw [String.toList_ofList]
      decide
  | extension r =>
    refine ⟨.gap true, .fixed ?_ (.text (writable_cons.mp h).1 (.fixed ?_ .nil))⟩
    all_goals
      repeat rw [String.toList_append]
      repeat rw [String.toList_ofList]
      decide
  | roleMembers r =>
    refine ⟨.gap false, .fixed ?_ (.text (writable_cons.mp h).1 (.fixed ?_ .nil))⟩
    all_goals
      repeat rw [String.toList_append]
      repeat rw [String.toList_ofList]
      decide

/-! ## Statements -/

theorem exists_read_of_joins {st : Statement} {e : Edge} {qs : List String}
    (h : Joins (.gap false) st.pieces e qs) :
    ∃ text, st.text = .ok text ∧
      Reader.read text.toList = some (st.pieces.flatMap Piece.tokens) := by
  obtain ⟨cs, n, hw, _, hr⟩ := h.reads (.gap false) rfl
  refine ⟨String.ofList cs, ?_, ?_⟩
  · rw [Statement.text, hw]
    rfl
  · rw [String.toList_ofList]
    exact Reader.read_of_reads hr

/-- A question about names that can be written can be sent. -/
theorem Query.exists_text {q : Query} (hv : (q.values.all fun v => v.text?.isSome) = true)
    (h : Writable q.quoted) : ∃ text, Statement.text (.query q) = .ok text := by
  obtain ⟨e, hj⟩ := Query.joins hv h
  have joins : Joins (.gap false) (Statement.query q).pieces e q.quoted := hj
  obtain ⟨text, ht, _⟩ := exists_read_of_joins joins
  exact ⟨text, ht⟩

theorem Change.exists_read {c : Change} {e : Edge} {qs : List String}
    (h : Joins (.gap false) c.pieces e qs) :
    ∃ text, Statement.text c = .ok text ∧
      Reader.read text.toList = some (c.pieces.flatMap Piece.tokens) := by
  have hs : Joins (.gap false) (Statement.change c).pieces e qs := h
  exact exists_read_of_joins hs

theorem Statement.joins {st : Statement} (hv : st.isOfTexts = true) (h : Writable st.quoted) :
    ∃ e, Joins (.gap false) st.pieces e st.quoted := by
  cases st with
  | query q => exact Query.joins hv h
  | change c => exact Change.joins h
  | raw text => cases hv

end DeclaredAccess.Sql
