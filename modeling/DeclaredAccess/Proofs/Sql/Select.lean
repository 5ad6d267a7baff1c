import DeclaredAccess.Sql.Text
import DeclaredAccess.Text.Blank

/-! Statements that select. The text of a statement tells: its first keyword is `SELECT`. Every
question about the catalog is such a statement. -/

namespace DeclaredAccess.Sql

/-- Whether a text begins with the keyword, white space aside. -/
def selects (cs : List Char) : Bool := "SELECT".toList.isPrefixOf (cs.dropWhile Text.isBlank)

/-- Whether the statement can be written and selects. -/
def Statement.isSelect (st : Statement) : Bool := match st.text with
  | .ok text => selects text.toList
  | .error _ => false

theorem selects_append {cs : List Char} (h : selects cs = true) (ds : List Char) :
    selects (cs ++ ds) = true := by
  unfold selects at h ⊢
  rw [List.isPrefixOf_iff_prefix] at h ⊢
  rw [List.dropWhile_append]
  obtain ⟨rest, hrest⟩ := h
  rw [← hrest]
  exact ⟨rest ++ ds, by simp⟩

theorem Query.exists_pieces (q : Query) :
    ∃ keywords rest, q.pieces = .fixed keywords :: rest ∧ selects keywords.toList = true := by
  cases q with
  | currentUser | roleExists _ | databaseExists _ | schemaExists _ | hasRole _ _ =>
    exact ⟨_, _, rfl, by decide +kernel⟩
  | _ =>
    refine ⟨_, _, rfl, ?_⟩
    -- only the first line of the keywords has to be looked at
    simp only [String.toList_append, List.append_assoc]
    exact selects_append (by decide +kernel) _

theorem toList_of_pieces {s : Statement} {keywords text : String} {rest : List Piece}
    (hp : s.pieces = .fixed keywords :: rest) (h : s.text = .ok text) :
    ∃ cs, text.toList = keywords.toList ++ cs := by
  unfold Statement.text write at h
  rw [hp, List.mapM_cons] at h
  cases hw : rest.mapM Piece.write with
  | error e => rw [hw] at h; cases h
  | ok cs =>
    rw [hw] at h
    cases h
    exact ⟨cs.flatten, String.toList_ofList⟩

theorem isSelect_query {q : Query} {text : String} (h : Statement.text (.query q) = .ok text) :
    Statement.isSelect (.query q) = true := by
  obtain ⟨keywords, rest, hp, hs⟩ := q.exists_pieces
  obtain ⟨cs, hcs⟩ := toList_of_pieces (s := .query q) hp h
  unfold Statement.isSelect
  rw [h]
  show selects text.toList = true
  rw [hcs]
  exact selects_append hs cs

/-- The first keyword of a change is another one. -/
theorem Change.exists_pieces (c : Change) : ∃ keywords rest, c.pieces = .fixed keywords :: rest ∧
    ∃ first, keywords.toList.head? = some first ∧ first ≠ 'S' ∧ Text.isBlank first = false := by
  cases c with
  | createSchema name owner ifNotExists =>
    cases ifNotExists with
    | _ => exact ⟨_, _, rfl, 'C', rfl, by decide, by decide⟩
  | grant privileges target role withGrantOption =>
    refine ⟨_, _, rfl, 'G', ?_, by decide, by decide⟩
    simp only [String.toList_append]
    rfl
  | _ => exact ⟨_, _, rfl, _, rfl, by decide, by decide⟩

theorem isSelect_change (c : Change) : Statement.isSelect (.change c) = false := by
  unfold Statement.isSelect
  cases h : Statement.text (.change c) with
  | error e => rfl
  | ok text =>
    obtain ⟨keywords, rest, hp, first, hk, hne, hb⟩ := c.exists_pieces
    obtain ⟨more, hk⟩ := List.head?_eq_some_iff.mp hk
    obtain ⟨cs, hcs⟩ := toList_of_pieces (s := .change c) hp h
    show selects text.toList = false
    unfold selects
    rw [hcs, hk, List.cons_append, List.dropWhile_cons_of_neg (by simp [hb])]
    simpa [List.isPrefixOf] using fun h => absurd h.symm hne

end DeclaredAccess.Sql
