import DeclaredAccess.Proofs.Sql.Quoted

/-! Statements that differ in nothing but their strings. Masked, a string tells only whether it is
empty; what is left of a statement then is its form: the kind of object, the privileges, the flags,
how many names there are and which of them are empty. The form decides every piece but what stands
in the quotes, and so every keyword and mark. -/

namespace DeclaredAccess.Sql

/-- A string of which nothing is left but whether it is empty. -/
def mask (s : String) : String := if s.isEmpty then "" else "x"

def maskValue : Value → Value
  | .text s => .text (mask s)
  | v => v

def maskTarget (t : Target) : Target :=
  { t with name := mask t.name, schema := mask t.schema, objects := t.objects.map mask }

def Query.masked : Query → Query
  | currentUser => currentUser
  | roleExists r => roleExists (mask r)
  | databaseExists v => databaseExists (maskValue v)
  | schemaExists v => schemaExists (maskValue v)
  | hasRole v w => hasRole (maskValue v) (maskValue w)
  | revocableMembership v w => revocableMembership (maskValue v) (maskValue w)
  | schema v => schema (maskValue v)
  | relationOwners s => relationOwners (mask s)
  | objectPrivileges r t => objectPrivileges (mask r) (maskTarget t)
  | roleMembers r => roleMembers (mask r)
  | extension name => extension (mask name)

def Change.masked : Change → Change
  | grant privileges t r option => grant privileges (maskTarget t) (mask r) option
  | revokeAll t r => revokeAll (maskTarget t) (mask r)
  | grantMembership roles member => grantMembership (roles.map mask) (mask member)
  | revokeMembership roles member => revokeMembership (roles.map mask) (mask member)
  | createSchema name owner ifNotExists => createSchema (mask name) (mask owner) ifNotExists
  | renameSchema name newName => renameSchema (mask name) (mask newName)
  | setSchemaOwner name owner => setSchemaOwner (mask name) (mask owner)
  | dropSchema name cascade => dropSchema (mask name) cascade
  | createExtension name schema version => createExtension (mask name) (mask schema) (mask version)
  | setExtensionSchema name schema => setExtensionSchema (mask name) (mask schema)
  | updateExtension name version => updateExtension (mask name) (mask version)
  | dropExtension name => dropExtension (mask name)

/-- The statement with all its strings masked. -/
def Statement.masked : Statement → Statement
  | query q => query q.masked
  | change c => change c.masked
  | raw text => raw text

/-- A piece without the string in it. -/
def Piece.outline : Piece → Piece
  | fixed s => fixed s
  | name _ => name ""
  | constant (.text _) => constant (.text "")
  | constant v => constant v

@[simp] theorem Piece.outline_fixed (s : String) : (fixed s).outline = fixed s := rfl

@[simp] theorem Piece.outline_name (s : String) : (name s).outline = name "" := rfl

@[simp] theorem Piece.outline_text (s : String) :
    (constant (.text s)).outline = constant (.text "") := rfl

@[simp] theorem outline_maskValue (v : Value) :
    (Piece.constant (maskValue v)).outline = (Piece.constant v).outline := by
  cases v <;> rfl

@[simp] theorem isEmpty_mask (s : String) : (mask s).isEmpty = s.isEmpty := by
  unfold mask
  cases h : s.isEmpty
  · rfl
  · simp

theorem map_erase_tokens (p : Piece) : p.outline.tokens.map Token.erase = p.tokens.map Token.erase := by
  cases p with
  | fixed s => rfl
  | name s => rfl
  | constant v => cases v <;> rfl

/-- Pieces with one outline read as tokens that differ in quoted strings only. -/
theorem map_erase_flatMap {ps ps' : List Piece} (h : ps.map Piece.outline = ps'.map Piece.outline) :
    (ps.flatMap Piece.tokens).map Token.erase = (ps'.flatMap Piece.tokens).map Token.erase := by
  have hout : ∀ qs : List Piece, (qs.flatMap Piece.tokens).map Token.erase =
      ((qs.map Piece.outline).flatMap fun p => p.tokens.map Token.erase) := by
    intro qs
    simp only [List.map_flatMap, List.flatMap_map, map_erase_tokens]
  rw [hout, hout, h]

theorem map_intersperse {α β : Type} (f : α → β) (sep : α) (xs : List α) :
    (xs.intersperse sep).map f = (xs.map f).intersperse (f sep) := by
  induction xs with
  | nil => rfl
  | cons x xs ih =>
    cases xs with
    | nil => rfl
    | cons y ys => simpa using ih

@[simp] theorem outline_names_mask (xs : List String) :
    (names (xs.map mask)).map Piece.outline = (names xs).map Piece.outline := by
  simp [names, commaSeparated, map_intersperse, Function.comp_def]

@[simp] theorem outline_constants_mask (xs : List String) :
    (constants (xs.map mask)).map Piece.outline = (constants xs).map Piece.outline := by
  simp [constants, commaSeparated, map_intersperse, Function.comp_def]

@[simp] theorem outline_role_mask (r : String) : (role (mask r)).outline = (role r).outline := by
  unfold role
  rw [isEmpty_mask]
  split <;> rfl

@[simp] theorem outline_target_mask (t : Target) :
    (target (maskTarget t)).map Piece.outline = (target t).map Piece.outline := by
  unfold target maskTarget
  simp only [List.isEmpty_map]
  split
  · rfl
  · split
    · rfl
    · simp [map_intersperse, Function.comp_def, qualified]

theorem outline_clause_mask (keyword text : String) (piece : String → Piece)
    (h : ∀ s, (piece s).outline = (piece "").outline) :
    (clause keyword piece (mask text)).map Piece.outline =
      (clause keyword piece text).map Piece.outline := by
  unfold clause
  rw [isEmpty_mask]
  split
  · rfl
  · simp only [List.map_cons, h (mask text), h text]

@[simp] theorem outline_listed_mask (column : String) (xs : List String) :
    (listed column (xs.map mask)).map Piece.outline = (listed column xs).map Piece.outline := by
  unfold listed
  rw [List.isEmpty_map]
  split
  · rfl
  · simp

@[simp] theorem outline_objects_mask (t : Target) :
    (objects (maskTarget t)).map Piece.outline = (objects t).map Piece.outline := by
  unfold objects maskTarget
  cases t.kind with
  | database => rfl
  | function => simp only [functions, List.map_append, outline_listed_mask]; rfl
  | sequence | table | schema =>
    simp only [relations, List.map_append, outline_listed_mask]
    rfl

@[simp] theorem outline_grantee_mask (r : String) :
    (grantee (mask r)).map Piece.outline = (grantee r).map Piece.outline := by
  unfold grantee
  rw [isEmpty_mask]
  split <;> rfl

theorem Query.outline_masked (q : Query) :
    q.masked.pieces.map Piece.outline = q.pieces.map Piece.outline := by
  cases q with
  | currentUser | roleExists | roleMembers | extension => rfl
  | databaseExists | schemaExists | schema | hasRole | revocableMembership =>
    simp only [masked, pieces, List.map_cons, outline_maskValue]
  | relationOwners s =>
    simp only [masked, pieces, List.map_append, List.map_cons, Piece.outline_text]
  | objectPrivileges r t =>
    have hletter : (maskTarget t).kind = t.kind := rfl
    simp only [masked, pieces, List.map_append, outline_objects_mask, outline_grantee_mask, hletter]

theorem Change.outline_masked (c : Change) :
    c.masked.pieces.map Piece.outline = c.pieces.map Piece.outline := by
  cases c with
  | grant privileges t r option =>
    simp only [masked, pieces, List.map_append, List.map_cons, outline_target_mask,
      outline_role_mask]
  | revokeAll t r =>
    simp only [masked, pieces, List.map_append, List.map_cons, outline_target_mask,
      outline_role_mask]
  | grantMembership roles member | revokeMembership roles member =>
    simp only [masked, pieces, List.map_append, List.map_cons, outline_names_mask,
      Piece.outline_name]
  | createSchema name owner ifNotExists =>
    have hclause := outline_clause_mask " AUTHORIZATION " owner .name fun _ => rfl
    simp only [masked, pieces, List.map_append, List.map_cons, Piece.outline_name, hclause]
  | createExtension name schema version =>
    have hin := outline_clause_mask " SCHEMA " schema .name fun _ => rfl
    have hof := outline_clause_mask " VERSION " version (fun v => .constant (.text v)) fun _ => rfl
    simp only [masked, pieces, List.map_append, List.map_cons, Piece.outline_name, hin, hof]
  | updateExtension name version =>
    have hto := outline_clause_mask " TO " version (fun v => .constant (.text v)) fun _ => rfl
    simp only [masked, pieces, List.map_append, List.map_cons, Piece.outline_name, hto]
  | renameSchema | setSchemaOwner | setExtensionSchema | dropSchema | dropExtension => rfl

theorem Statement.outline_masked (st : Statement) :
    st.masked.pieces.map Piece.outline = st.pieces.map Piece.outline := by
  cases st with
  | query q => exact q.outline_masked
  | change c => exact c.outline_masked
  | raw text => rfl

/-! ## Masked strings can be written -/

theorem isOfTexts_masked (st : Statement) : st.masked.isOfTexts = st.isOfTexts := by
  have hvalue : ∀ v : Value, (maskValue v).text?.isSome = v.text?.isSome := by
    intro v
    cases v <;> rfl
  cases st with
  | query q =>
    cases q <;> simp [Statement.masked, Statement.isOfTexts, Query.masked, Query.values, hvalue]
  | change c => rfl
  | raw text => rfl

theorem writable_mask (s : String) : '\x00' ∉ (mask s).toList := by
  unfold mask
  split <;> decide

theorem writable_unlessEmpty_mask (s : String) : Writable (unlessEmpty (mask s)) := by
  unfold unlessEmpty
  split
  · exact writable_nil
  · exact writable_cons.mpr ⟨writable_mask s, writable_nil⟩

theorem writable_textOf_mask (v : Value) : Writable (textOf (maskValue v)) := by
  cases v with
  | text s => exact writable_cons.mpr ⟨writable_mask s, writable_nil⟩
  | _ => exact writable_nil

theorem writable_map_mask (xs : List String) : Writable (xs.map mask) := by
  intro s hs
  obtain ⟨x, _, rfl⟩ := List.mem_map.mp hs
  exact writable_mask x

theorem writable_targetQuoted_mask (t : Target) : Writable (targetQuoted (maskTarget t)) := by
  unfold targetQuoted maskTarget
  split
  · exact writable_cons.mpr ⟨writable_mask _, writable_nil⟩
  · split
    · exact writable_cons.mpr ⟨writable_mask _, writable_nil⟩
    · intro s hs
      obtain ⟨o, ho, hs⟩ := List.mem_flatMap.mp hs
      obtain ⟨x, _, rfl⟩ := List.mem_map.mp ho
      have hor : s = mask t.schema ∨ s = mask x := by simpa using hs
      rcases hor with rfl | rfl <;> exact writable_mask _

theorem writable_objectsQuoted_mask (t : Target) : Writable (objectsQuoted (maskTarget t)) := by
  have hlisted : ∀ column, '\x00' ∉ column.toList →
      Writable (listedQuoted column (t.objects.map mask)) := by
    intro column hc
    unfold listedQuoted
    split
    · exact writable_nil
    · exact writable_cons.mpr ⟨hc, writable_map_mask _⟩
  have hrelname := hlisted "relname" (by decide)
  unfold objectsQuoted
  simp only [maskTarget]
  cases t.kind with
  | database => exact writable_cons.mpr ⟨writable_mask _, writable_nil⟩
  | function => exact writable_cons.mpr ⟨writable_mask _, hlisted "proname" (by decide)⟩
  | sequence =>
    exact writable_cons.mpr ⟨writable_mask _, writable_append.mpr ⟨writable_kinds.2, hrelname⟩⟩
  | table | schema =>
    exact writable_cons.mpr ⟨writable_mask _, writable_append.mpr ⟨writable_kinds.1, hrelname⟩⟩

theorem writable_masked (st : Statement) : Writable st.masked.quoted := by
  cases st with
  | raw text => exact writable_nil
  | query q =>
    cases q with
    | currentUser => exact writable_nil
    | roleExists r | roleMembers r | extension r =>
      exact writable_cons.mpr ⟨writable_mask r, writable_nil⟩
    | databaseExists v | schemaExists v => exact writable_textOf_mask v
    | hasRole v w =>
      have husage : Writable ["USAGE"] := by unfold Writable; decide
      exact writable_append.mpr ⟨writable_append.mpr
        ⟨writable_textOf_mask v, writable_textOf_mask w⟩, husage⟩
    | revocableMembership v w =>
      have hversion : Writable ["server_version_num"] := by unfold Writable; decide
      exact writable_append.mpr ⟨writable_append.mpr
        ⟨writable_textOf_mask w, writable_textOf_mask v⟩, hversion⟩
    | schema v => exact writable_cons.mpr ⟨by decide, writable_textOf_mask v⟩
    | relationOwners s =>
      exact writable_cons.mpr ⟨writable_mask s, writable_append.mpr writable_kinds⟩
    | objectPrivileges r t =>
      have hletter : '\x00' ∉ (defaultsLetter t.kind).toList := by cases t.kind <;> decide
      exact writable_append.mpr ⟨writable_objectsQuoted_mask t,
        writable_cons.mpr ⟨hletter, writable_unlessEmpty_mask r⟩⟩
  | change c =>
    cases c with
    | grant privileges t r option =>
      exact writable_append.mpr ⟨writable_targetQuoted_mask t, writable_unlessEmpty_mask r⟩
    | revokeAll t r =>
      exact writable_append.mpr ⟨writable_targetQuoted_mask t, writable_unlessEmpty_mask r⟩
    | grantMembership roles member | revokeMembership roles member =>
      exact writable_append.mpr ⟨writable_map_mask roles,
        writable_cons.mpr ⟨writable_mask member, writable_nil⟩⟩
    | createSchema name owner | updateExtension name owner =>
      exact writable_cons.mpr ⟨writable_mask name, writable_unlessEmpty_mask owner⟩
    | renameSchema a b | setSchemaOwner a b | setExtensionSchema a b =>
      exact writable_cons.mpr ⟨writable_mask a, writable_cons.mpr ⟨writable_mask b, writable_nil⟩⟩
    | dropSchema name | dropExtension name =>
      exact writable_cons.mpr ⟨writable_mask name, writable_nil⟩
    | createExtension name schema version =>
      exact writable_cons.mpr ⟨writable_mask name, writable_append.mpr
        ⟨writable_unlessEmpty_mask schema, writable_unlessEmpty_mask version⟩⟩

end DeclaredAccess.Sql
