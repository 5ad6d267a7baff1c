import DeclaredAccess.Proofs.Sql.Masked

/-! The text of a statement says what the statement does. The reader finds the keywords and marks of
the statement's form and, in quotes, its strings. From the tokens of a privilege statement one gets
back what it grants or takes, on what, and for whom: its privileges end at the word `ON` and its
target at `TO` or `FROM`, and these are not among the words before them. -/

namespace DeclaredAccess.Sql

open Reader (Edge Joins)

/-! ## From tokens back to a privilege statement -/

theorem split_unique {α : Type} {a b x y : List α} {k : α} (ha : k ∉ a) (hb : k ∉ b)
    (h : a ++ k :: x = b ++ k :: y) : a = b ∧ x = y := by
  induction a generalizing b with
  | nil =>
    cases b with
    | nil => exact ⟨rfl, (List.cons.inj h).2⟩
    | cons c b => exact absurd ((List.cons.inj h).1 ▸ List.mem_cons_self) hb
  | cons c a ih =>
    cases b with
    | nil => exact absurd ((List.cons.inj h).1 ▸ List.mem_cons_self) ha
    | cons d b =>
      obtain ⟨rfl, htail⟩ := List.cons.inj h
      obtain ⟨rfl, hxy⟩ := ih (fun hm => ha (List.mem_cons_of_mem c hm))
        (fun hm => hb (List.mem_cons_of_mem c hm)) htail
      exact ⟨rfl, hxy⟩

/-- No keyword of a privilege begins with the word another one begins with. -/
theorem keyword_head : ∀ p ∈ Privilege.all, ∀ q ∈ Privilege.all,
    (tokensOf p.keyword.toList).head? = (tokensOf q.keyword.toList).head? → p = q := by
  decide

theorem exists_tokensOf_keyword (p : Privilege) :
    ∃ t ts, tokensOf p.keyword.toList = t :: ts := by
  have hne : (tokensOf p.keyword.toList).isEmpty = false := by cases p <;> decide
  cases h : tokensOf p.keyword.toList with
  | nil => simp [h] at hne
  | cons t ts => exact ⟨t, ts, rfl⟩

theorem tokensOf_keyword_append {p q : Privilege} {x y : List Token}
    (h : tokensOf p.keyword.toList ++ x = tokensOf q.keyword.toList ++ y) : p = q ∧ x = y := by
  obtain ⟨t, ts, hp⟩ := exists_tokensOf_keyword p
  obtain ⟨u, us, hq⟩ := exists_tokensOf_keyword q
  have hhead : (tokensOf p.keyword.toList).head? = (tokensOf q.keyword.toList).head? := by
    rw [hp, hq] at h ⊢
    exact congrArg some (List.cons.inj h).1
  obtain rfl : p = q := keyword_head p (Privilege.mem_all p) q (Privilege.mem_all q) hhead
  exact ⟨rfl, List.append_cancel_left h⟩

theorem keywordTokens_injective {ps qs : List Privilege} (h : keywordTokens ps = keywordTokens qs) :
    ps = qs := by
  have hcons : ∀ (p : Privilege) (ps : List Privilege), ∃ x, keywordTokens (p :: ps) =
      tokensOf p.keyword.toList ++ x ∧ (x = [] ∧ ps = [] ∨ x = .mark ',' :: keywordTokens ps ∧ ps ≠ []) := by
    intro p ps
    cases ps with
    | nil => exact ⟨[], by simp [keywordTokens], .inl ⟨rfl, rfl⟩⟩
    | cons q qs => exact ⟨_, rfl, .inr ⟨rfl, by simp⟩⟩
  induction ps generalizing qs with
  | nil =>
    cases qs with
    | nil => rfl
    | cons q qs =>
      obtain ⟨x, hx, _⟩ := hcons q qs
      obtain ⟨t, ts, hq⟩ := exists_tokensOf_keyword q
      rw [hx, hq] at h
      cases h
  | cons p ps ih =>
    obtain ⟨x, hx, hxs⟩ := hcons p ps
    cases qs with
    | nil =>
      obtain ⟨t, ts, hp⟩ := exists_tokensOf_keyword p
      rw [hx, hp] at h
      cases h
    | cons q qs =>
      obtain ⟨y, hy, hys⟩ := hcons q qs
      rw [hx, hy] at h
      obtain ⟨rfl, rfl⟩ := tokensOf_keyword_append h
      rcases hxs with ⟨rfl, rfl⟩ | ⟨rfl, _⟩
      · rcases hys with ⟨_, rfl⟩ | ⟨hy, _⟩
        · rfl
        · cases hy
      · rcases hys with ⟨hy, _⟩ | ⟨hy, _⟩
        · cases hy
        · rw [ih (List.cons.inj hy).2]

theorem toList_injective {s s' : PrivilegeSet} (h : s.toList = s'.toList) : s = s' :=
  PrivilegeSet.ext_mem fun p => by rw [← PrivilegeSet.mem_toList, h, PrivilegeSet.mem_toList]

/-! ### Targets -/

def objectTokens (schema : String) : List String → List Token
  | [] => []
  | [o] => [.name schema.toList, .mark '.', .name o.toList]
  | o :: p :: os =>
    .name schema.toList :: .mark '.' :: .name o.toList :: .mark ',' :: objectTokens schema (p :: os)

/-- The tokens of a target in a privilege statement. -/
def targetTokens (t : Target) : List Token :=
  if !t.kind.inSchema then [.word t.kind.keyword.toList, .name t.name.toList]
  else if t.objects.isEmpty then
    [.word "ALL".toList, .word t.kind.plural.toList, .word "IN".toList, .word "SCHEMA".toList,
      .name t.schema.toList]
  else .word t.kind.keyword.toList :: objectTokens t.schema t.objects

theorem tokens_objects (schema : String) (xs : List String) :
    ((xs.map (qualified schema)).intersperse [.fixed ","]).flatten.flatMap Piece.tokens =
      objectTokens schema xs := by
  have hone (o : String) : (qualified schema o).flatMap Piece.tokens =
      [.name schema.toList, .mark '.', .name o.toList] := by
    have hdot : tokensOf ".".toList = [.mark '.'] := by decide
    simp only [qualified, List.flatMap_cons, List.flatMap_nil, Piece.tokens, hdot]
    rfl
  have hcomma : tokensOf ",".toList = [.mark ','] := by decide
  induction xs with
  | nil => rfl
  | cons o os ih =>
    cases os with
    | nil => simpa [objectTokens] using hone o
    | cons p os =>
      simp only [List.map_cons, List.intersperse_cons_cons, List.flatten_cons,
        List.flatMap_append] at ih ⊢
      rw [ih, hone o]
      simp only [List.flatMap_cons, List.flatMap_nil, Piece.tokens, hcomma]
      rfl

theorem tokens_target (t : Target) : (target t).flatMap Piece.tokens = targetTokens t := by
  have hkind : ∀ k : ObjectKind, tokensOf (k.keyword ++ " ").toList = [.word k.keyword.toList] := by
    intro k
    cases k <;> decide
  have hall : ∀ k : ObjectKind, tokensOf ("ALL " ++ k.plural ++ " IN SCHEMA ").toList =
      [.word "ALL".toList, .word k.plural.toList, .word "IN".toList, .word "SCHEMA".toList] := by
    intro k
    cases k <;> decide
  unfold target targetTokens
  split
  · simp only [List.flatMap_cons, List.flatMap_nil, Piece.tokens, hkind]
    rfl
  · split
    · simp only [List.flatMap_cons, List.flatMap_nil, Piece.tokens, hall]
      rfl
    · simp only [List.flatMap_cons, Piece.tokens, hkind, tokens_objects]
      rfl

/-- The words `TO` and `FROM` end a target: it has no such word itself. -/
theorem not_mem_targetTokens (t : Target) {w : List Char} (hw : w = "TO".toList ∨ w = "FROM".toList) :
    .word w ∉ targetTokens t := by
  have hobjects : ∀ xs, .word w ∉ objectTokens t.schema xs := by
    intro xs
    induction xs with
    | nil => simp [objectTokens]
    | cons o os ih =>
      cases os with
      | nil => simp [objectTokens]
      | cons p os => simpa [objectTokens] using ih
  have hkind : ∀ k ∈ ObjectKind.all, k.keyword.toList ≠ "TO".toList ∧ k.keyword.toList ≠ "FROM".toList ∧
      k.plural.toList ≠ "TO".toList ∧ k.plural.toList ≠ "FROM".toList := by decide
  have hk := hkind t.kind (by cases t.kind <;> decide)
  unfold targetTokens
  rcases hw with rfl | rfl
  · split
    · simpa using hk.1.symm
    · split
      · simpa using hk.2.2.1.symm
      · simpa using And.intro hk.1.symm (hobjects _)
  · split
    · simpa using hk.2.1.symm
    · split
      · simpa using hk.2.2.2.symm
      · simpa using And.intro hk.2.1.symm (hobjects _)

/-- A target without the fields that its kind does not use. -/
def namedTarget (t : Target) : Target :=
  if !t.kind.inSchema then { kind := t.kind, name := t.name }
  else { kind := t.kind, schema := t.schema, objects := t.objects }

/-- The objects that stand behind the names of a schema, with commas between them. -/
def objectsOf? : List Token → Option (List String)
  | [.name _, .mark _, .name o] => some [String.ofList o]
  | .name _ :: .mark _ :: .name o :: .mark _ :: ts =>
    (objectsOf? ts).map (String.ofList o :: ·)
  | _ => none

def kindOf? (w : List Char) : Option ObjectKind :=
  ObjectKind.all.find? fun k => k.keyword.toList == w

/-- The target that tokens stand for: one name, all objects in a schema, or listed ones. -/
def targetOf? : List Token → Option Target
  | [.word w, .name n] => (kindOf? w).map fun k => { kind := k, name := String.ofList n }
  | [.word _, .word w, .word _, .word _, .name s] =>
    (ObjectKind.all.find? fun k => k.plural.toList == w).map fun k =>
      { kind := k, schema := String.ofList s }
  | .word w :: .name s :: ts =>
    (kindOf? w).bind fun k => (objectsOf? (.name s :: ts)).map fun os =>
      { kind := k, schema := String.ofList s, objects := os }
  | _ => none

theorem objectsOf?_objectTokens (schema : String) (xs : List String) (h : xs ≠ []) :
    objectsOf? (objectTokens schema xs) = some xs := by
  induction xs with
  | nil => exact absurd rfl h
  | cons o os ih =>
    cases os with
    | nil => simp [objectTokens, objectsOf?]
    | cons p os =>
      have hrest := ih (List.cons_ne_nil p os)
      simp [objectTokens, objectsOf?, hrest]

theorem kindOf?_keyword (k : ObjectKind) : kindOf? k.keyword.toList = some k := by
  cases k <;> decide

/-- The tokens of a target are those of no other one. -/
theorem targetOf?_targetTokens (t : Target) : targetOf? (targetTokens t) = some (namedTarget t) := by
  have hplural : (ObjectKind.all.find? fun k => k.plural.toList == t.kind.plural.toList) =
      some t.kind := by
    cases t.kind <;> decide
  unfold targetTokens namedTarget
  split
  · simp [targetOf?, kindOf?_keyword]
  · split
    · rename_i ho
      have hnil : t.objects = [] := by simpa using ho
      simp [targetOf?, hplural, hnil]
    · rename_i ho
      have hne : t.objects ≠ [] := by simpa using ho
      have hobjects := objectsOf?_objectTokens t.schema t.objects hne
      obtain ⟨m, ts, hts⟩ : ∃ m ts, objectTokens t.schema t.objects =
          .name t.schema.toList :: .mark m :: ts := by
        match t.objects, hne with
        | [o], _ => exact ⟨_, _, rfl⟩
        | o :: p :: os, _ => exact ⟨_, _, rfl⟩
      rw [hts] at hobjects ⊢
      simp [targetOf?, kindOf?_keyword, hobjects]

/-! ## Privilege statements -/

/-- Whether a change grants or takes privileges. -/
def Change.isPrivilege : Change → Bool
  | grant .. | revokeAll .. => true
  | _ => false

/-- A privilege statement without the fields of its target that are not used. -/
def Change.named : Change → Change
  | grant privileges t r option => grant privileges (namedTarget t) r option
  | revokeAll t r => revokeAll (namedTarget t) r
  | c => c

def roleTokens (r : String) : List Token :=
  if r.isEmpty then [.word "PUBLIC".toList] else [.name r.toList]

def optionTokens (option : Bool) : List Token :=
  if option then [.word "WITH".toList, .word "GRANT".toList, .word "OPTION".toList] else []

theorem tokens_role (r : String) : (role r).tokens = roleTokens r := by
  unfold role roleTokens
  split
  · have hpublic : tokensOf "PUBLIC".toList = [.word "PUBLIC".toList] := by decide
    exact hpublic
  · rfl

theorem tokens_grant (privileges : PrivilegeSet) (t : Target) (r : String) (option : Bool) :
    (Change.grant privileges t r option).pieces.flatMap Piece.tokens =
      .word ['G', 'R', 'A', 'N', 'T'] :: (keywordTokens privileges.toList ++ .word ['O', 'N'] ::
        (targetTokens t ++ .word "TO".toList :: (roleTokens r ++ optionTokens option))) := by
  have hto : tokensOf " TO ".toList = [.word "TO".toList] := by decide
  have hoption : (if option then [Piece.fixed " WITH GRANT OPTION"] else []).flatMap Piece.tokens =
      optionTokens option := by
    cases option <;> decide
  simp only [Change.pieces, List.flatMap_append, List.flatMap_cons, List.flatMap_nil, tokens_target,
    tokens_role, hoption, Piece.tokens_fixed, (over_grant privileges).2, hto, grantTokens]
  simp

theorem tokens_revokeAll (t : Target) (r : String) :
    (Change.revokeAll t r).pieces.flatMap Piece.tokens =
      [.word "REVOKE".toList, .word "ALL".toList, .word "PRIVILEGES".toList, .word "ON".toList] ++
        (targetTokens t ++ .word "FROM".toList :: roleTokens r) := by
  have hverb : tokensOf "REVOKE ALL PRIVILEGES ON ".toList = [.word "REVOKE".toList,
      .word "ALL".toList, .word "PRIVILEGES".toList, .word "ON".toList] := by decide
  have hfrom : tokensOf " FROM ".toList = [.word "FROM".toList] := by decide
  simp only [Change.pieces, List.flatMap_append, List.flatMap_cons, List.flatMap_nil, tokens_target,
    tokens_role, Piece.tokens_fixed, hverb, hfrom]
  simp

theorem on_not_mem_keywordTokens (ps : List Privilege) :
    .word ['O', 'N'] ∉ keywordTokens ps := by
  intro h
  rcases mem_keywordTokens h with h | ⟨p, hp⟩
  · cases h
  · revert hp
    cases p <;> decide

theorem roleTokens_append {r r' : String} {option option' : Bool}
    (h : roleTokens r ++ optionTokens option = roleTokens r' ++ optionTokens option') :
    r = r' ∧ option = option' := by
  have hlength : ∀ r, (roleTokens r).length = 1 := by
    intro r
    unfold roleTokens
    split <;> rfl
  obtain ⟨hrole, hoption⟩ := List.append_inj h ((hlength r).trans (hlength r').symm)
  refine ⟨?_, ?_⟩
  · unfold roleTokens at hrole
    split at hrole
    · split at hrole
      · simp_all
      · cases hrole
    · split at hrole
      · cases hrole
      · exact String.toList_inj.mp (Token.name.inj (List.cons.inj hrole).1)
  · cases option <;> cases option' <;> first | rfl | cases hoption

/-- The tokens of a privilege statement are those of no other one. -/
theorem named_eq_of_tokens {c c' : Change} (hc : c.isPrivilege = true) (hc' : c'.isPrivilege = true)
    (h : c.pieces.flatMap Piece.tokens = c'.pieces.flatMap Piece.tokens) : c.named = c'.named := by
  have htarget : ∀ {t t' : Target}, targetTokens t = targetTokens t' →
      namedTarget t = namedTarget t' := fun {t t'} ht => by
    have hsome := (targetOf?_targetTokens t).symm.trans (ht ▸ targetOf?_targetTokens t')
    exact Option.some.inj hsome
  cases c with
  | grant ps t r option =>
    cases c' with
    | grant ps' t' r' option' =>
      rw [tokens_grant, tokens_grant] at h
      obtain ⟨hps, hrest⟩ := split_unique (on_not_mem_keywordTokens _) (on_not_mem_keywordTokens _)
        (List.cons.inj h).2
      obtain ⟨ht, hrest⟩ := split_unique (not_mem_targetTokens t (.inl rfl))
        (not_mem_targetTokens t' (.inl rfl)) hrest
      obtain ⟨rfl, rfl⟩ := roleTokens_append hrest
      obtain rfl := toList_injective (keywordTokens_injective hps)
      exact congrArg (fun t => Change.grant ps t r option) (htarget ht)
    | revokeAll t' r' =>
      rw [tokens_grant, tokens_revokeAll] at h
      have hverb : ['G', 'R', 'A', 'N', 'T'] = "REVOKE".toList :=
        Token.word.inj (List.cons.inj h).1
      exact absurd hverb (by decide)
    | _ => cases hc'
  | revokeAll t r =>
    cases c' with
    | grant ps' t' r' option' =>
      rw [tokens_grant, tokens_revokeAll] at h
      have hverb : "REVOKE".toList = ['G', 'R', 'A', 'N', 'T'] :=
        Token.word.inj (List.cons.inj h).1
      exact absurd hverb (by decide)
    | revokeAll t' r' =>
      rw [tokens_revokeAll, tokens_revokeAll] at h
      obtain ⟨ht, hrest⟩ := split_unique (not_mem_targetTokens t (.inr rfl))
        (not_mem_targetTokens t' (.inr rfl)) (List.append_cancel_left h)
      have hrole : roleTokens r ++ optionTokens false = roleTokens r' ++ optionTokens false := by
        rw [hrest]
      obtain ⟨rfl, _⟩ := roleTokens_append hrole
      exact congrArg (fun t => Change.revokeAll t r) (htarget ht)
    | _ => cases hc'
  | _ => cases hc

/-- A statement of the library that is given texts without NUL characters has a text. What the
server reads in it are the keywords and marks of the statement's form, with the statement's strings
in quotes, in order. Two privilege statements with one text are one statement. -/
theorem text_unambiguous :
    (∀ st : Statement, st.isOfTexts = true → Writable st.quoted →
      ∃ text masked ts ms, st.text = .ok text ∧ st.masked.text = .ok masked ∧
        Reader.read text.toList = some ts ∧ Reader.read masked.toList = some ms ∧
        ts.map Token.erase = ms.map Token.erase ∧ ts.filterMap Token.quoted? = st.quoted) ∧
    ∀ c c' : Change, c.isPrivilege = true → c'.isPrivilege = true → Writable c.quoted →
      Writable c'.quoted → Statement.text c = Statement.text c' → c.named = c'.named := by
  refine ⟨fun st hv hw => ?_, fun c c' hc hc' hw hw' h => ?_⟩
  · obtain ⟨e, hj⟩ := Statement.joins hv hw
    obtain ⟨text, htext, hread⟩ := exists_read_of_joins hj
    obtain ⟨e', hj'⟩ := Statement.joins (isOfTexts_masked st ▸ hv) (writable_masked st)
    obtain ⟨masked, hmasked, hread'⟩ := exists_read_of_joins hj'
    exact ⟨text, masked, _, _, htext, hmasked, hread, hread',
      map_erase_flatMap st.outline_masked.symm, hj.quoted⟩
  · obtain ⟨e, hj⟩ := Change.joins hw
    obtain ⟨e', hj'⟩ := Change.joins hw'
    obtain ⟨text, htext, hread⟩ := Change.exists_read hj
    obtain ⟨text', htext', hread'⟩ := Change.exists_read hj'
    obtain rfl : text = text' := Except.ok.inj (htext.symm.trans (h.trans htext'))
    exact named_eq_of_tokens hc hc' (Option.some.inj (hread.symm.trans hread'))

/-- Strings that end the quotes they stand in, were these not doubled. -/
def hostileExtension : Change := .createExtension "x\"; DROP" "" "1\\'; DROP"

def hostileTarget : Target := { kind := .table, schema := "s", objects := ["a\",\"s\".\"b"] }

theorem text_unambiguous_hostile :
    (∃ text ts, Statement.text hostileExtension = .ok text ∧ Reader.read text.toList = some ts ∧
      ts.filterMap Token.quoted? = ["x\"; DROP", "1\\'; DROP"]) ∧
    Statement.text (Change.revokeAll { hostileTarget with name := "unused" } "r") =
      Statement.text (Change.revokeAll hostileTarget "r") ∧
    (Change.revokeAll { hostileTarget with name := "unused" } "r").named =
      (Change.revokeAll hostileTarget "r").named := by
  have hwritable : Writable hostileExtension.quoted := by
    unfold Writable
    decide
  obtain ⟨text, masked, ts, ms, htext, _, hread, _, _, hquoted⟩ :=
    text_unambiguous.1 hostileExtension rfl hwritable
  have hnames : Writable (Change.revokeAll hostileTarget "r").quoted := by
    unfold Writable
    decide
  exact ⟨⟨text, ts, htext, hread, hquoted⟩, rfl,
    text_unambiguous.2 (.revokeAll { hostileTarget with name := "unused" } "r")
      (.revokeAll hostileTarget "r") rfl rfl hnames hnames rfl⟩

end DeclaredAccess.Sql
