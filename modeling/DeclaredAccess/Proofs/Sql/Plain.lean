import DeclaredAccess.Sql.Text

/-! Statements without constants. Only a constant can fail to be written, so a statement of
keywords and names alone always has a text. -/

namespace DeclaredAccess.Sql

/-- Whether a piece is a keyword or a name. -/
def Piece.isPlain : Piece → Bool
  | fixed _ | name _ => true
  | constant _ => false

@[simp] theorem Piece.isPlain_fixed (s : String) : (fixed s).isPlain = true := rfl

@[simp] theorem Piece.isPlain_name (s : String) : (name s).isPlain = true := rfl

theorem Piece.write_of_isPlain {p : Piece} (h : p.isPlain = true) : ∃ cs, p.write = .ok cs := by
  cases p with
  | fixed s => exact ⟨_, rfl⟩
  | name s => exact ⟨_, rfl⟩
  | constant v => cases h

theorem mapM_write_of_isPlain {ps : List Piece} (h : ps.all Piece.isPlain = true) :
    ∃ cs, ps.mapM Piece.write = .ok cs := by
  induction ps with
  | nil => exact ⟨[], rfl⟩
  | cons p ps ih =>
    obtain ⟨hp, hps⟩ := Bool.and_eq_true_iff.mp (List.all_cons ▸ h)
    obtain ⟨a, ha⟩ := Piece.write_of_isPlain hp
    obtain ⟨b, hb⟩ := ih hps
    exact ⟨a :: b, by rw [List.mapM_cons, ha, hb]; rfl⟩

theorem exists_text_of_isPlain {st : Statement} (h : st.pieces.all Piece.isPlain = true) :
    ∃ text, st.text = .ok text := by
  obtain ⟨cs, hcs⟩ := mapM_write_of_isPlain h
  exact ⟨String.ofList cs.flatten, by simp [Statement.text, write, hcs, bind, Except.bind, pure,
    Except.pure]⟩

theorem all_intersperse {α : Type} {p : α → Bool} {sep : α} {l : List α} (hs : p sep = true)
    (h : l.all p = true) : (l.intersperse sep).all p = true := by
  induction l with
  | nil => rfl
  | cons a l ih =>
    cases l with
    | nil => exact h
    | cons b l =>
      obtain ⟨ha, hl⟩ := Bool.and_eq_true_iff.mp (List.all_cons ▸ h)
      rw [List.intersperse_cons_cons, List.all_cons, List.all_cons, ha, hs, ih hl]
      rfl

@[simp] theorem all_isPlain_names (xs : List String) : (names xs).all Piece.isPlain = true :=
  all_intersperse rfl (by simp)

@[simp] theorem isPlain_role (r : String) : (role r).isPlain = true := by
  unfold role
  split <;> rfl

@[simp] theorem all_isPlain_target (t : Target) : (target t).all Piece.isPlain = true := by
  unfold target
  split
  · rfl
  · split
    · rfl
    · have h : ((t.objects.map (qualified t.schema)).intersperse [.fixed ","]).all
          (·.all Piece.isPlain) = true :=
        all_intersperse rfl (by simp [qualified])
      rw [List.all_cons, List.all_flatten, h]
      rfl

/-- The changes whose text may hold a constant, the version of an extension. -/
def Change.isVersioned : Change → Bool
  | createExtension .. | updateExtension .. => true
  | _ => false

theorem Change.all_isPlain_pieces {c : Change} (hc : c.isVersioned = false) :
    c.pieces.all Piece.isPlain = true := by
  cases c with
  | createExtension | updateExtension => cases hc
  | grant privileges t r option => cases option <;> simp [pieces]
  | createSchema name owner ifNotExists => by_cases h : owner = "" <;> simp [pieces, clause, h]
  | _ => simp [pieces]

/-- Such a change can be sent whatever the names in it are. -/
theorem Change.exists_text {c : Change} (hc : c.isVersioned = false) :
    ∃ text, Statement.text (.change c) = .ok text :=
  exists_text_of_isPlain (Change.all_isPlain_pieces hc)

end DeclaredAccess.Sql
