import DeclaredAccess.Proofs.Sql.Reader
import DeclaredAccess.Sql.Text

/-! The pieces of a statement's text as the reader finds them. No token goes over from one piece to
the next: a name or constant comes where the reader is between tokens, and what follows ends it. So
the tokens of a text are those of its pieces one after the other, and a name or constant is one
token with the given characters. -/

namespace DeclaredAccess.Sql

/-- What a token has in quotes. -/
def Token.quoted? : Token → Option String
  | .name cs | .text cs => some (String.ofList cs)
  | .word _ | .mark _ => none

/-- A token without what it has in quotes. -/
def Token.erase : Token → Token
  | .name _ => .name []
  | .text _ => .text []
  | t => t

/-- The tokens of characters that the reader takes; none where it does not. -/
def tokensOf (cs : List Char) : List Token := (Reader.read cs).getD []

/-- The tokens of a piece. -/
def Piece.tokens : Piece → List Token
  | .fixed s => tokensOf s.toList
  | .name s => [.name s.toList]
  | .constant (.text s) => [.text s.toList]
  | .constant _ => []

@[simp] theorem Piece.tokens_fixed (s : String) : (fixed s).tokens = tokensOf s.toList := rfl

@[simp] theorem Piece.tokens_name (s : String) : (name s).tokens = [.name s.toList] := rfl

namespace Reader

/-- A place outside of quotes, without the token that ends there. -/
inductive Edge
  | gap (afterText : Bool)
  | word
  | name
  | text
  deriving DecidableEq

def Mode.edge? : Mode → Option Edge
  | .gap b => some (.gap b)
  | .word _ => some .word
  | .nameEnd _ => some .name
  | .textEnd _ _ => some .text
  | .name _ | .text _ _ | .backslash _ => none

/-- A mode at the edge. -/
def Edge.mode : Edge → Mode
  | .gap b => .gap b
  | .word => .word []
  | .name => .nameEnd []
  | .text => .textEnd false []

/-- Where fixed characters lead to from an edge. -/
def Edge.over (e : Edge) (cs : List Char) : Option Edge := match cs with
  | [] => some e
  | c :: r =>
    if e.mode.continues c then none
    else (scan (.gap e.mode.afterText) (c :: r)).bind fun x => x.1.edge?

/-- Fixed characters lead from one edge to another and have `own` in quotes. -/
def Edge.leads (e : Edge) (cs : List Char) (e' : Edge) (own : List String) : Bool :=
  e.over cs == some e' && (tokensOf cs).filterMap Token.quoted? == own

variable {m : Mode} {e e' e'' : Edge} {cs : List Char}

theorem continues_of_edge (h : m.edge? = some e) (c : Char) :
    m.continues c = e.mode.continues c ∧ m.afterText = e.mode.afterText := by
  cases m <;> cases h <;> exact ⟨rfl, rfl⟩

theorem finish_of_edge (h : m.edge? = some e) : ∃ p, m.finish = some p := by
  cases m with
  | gap | word | nameEnd | textEnd => exact ⟨_, rfl⟩
  | name | text | backslash => cases h

theorem reads_over (hm : m.edge? = some e) (h : e.over cs = some e') :
    ∃ n, n.edge? = some e' ∧ Reads m cs n (tokensOf cs) := by
  cases cs with
  | nil =>
    cases h
    obtain ⟨p, hp⟩ := finish_of_edge hm
    exact ⟨m, hm, reads_nil hp⟩
  | cons c r =>
    simp only [Edge.over] at h
    split at h
    · cases h
    · rename_i hc
      obtain ⟨hcont, haft⟩ := continues_of_edge hm c
      obtain ⟨⟨n, us⟩, hs, hn⟩ := Option.bind_eq_some_iff.mp h
      obtain ⟨q, hq⟩ := finish_of_edge hn
      have hgap : Reads (.gap m.afterText) (c :: r) n (us ++ q) :=
        ⟨us, [], q, haft ▸ hs, rfl, hq, rfl⟩
      have htok : tokensOf (c :: r) = us ++ q := by
        cases hb : m.afterText with
        | false => rw [tokensOf, read_of_reads (hb ▸ hgap)]; rfl
        | true =>
          rw [← haft, hb] at hs
          obtain ⟨n', hs', hq'⟩ := scan_of_afterText hs
          have hread := read_of_reads ⟨us, [], q, hs', rfl, hq'.trans hq, rfl⟩
          rw [tokensOf, hread]
          rfl
      rw [htok]
      exact ⟨n, hn, reads_of_not_continues (hcont.trans (by simpa using hc)) hgap⟩

/-- From one edge to another the pieces are written, read as their tokens, and have `qs` in
quotes. -/
structure Joins (e : Edge) (ps : List Piece) (e' : Edge) (qs : List String) : Prop where
  reads : ∀ m, m.edge? = some e → ∃ cs n, write ps = .ok cs ∧ n.edge? = some e' ∧
    Reads m cs n (ps.flatMap Piece.tokens)
  quoted : (ps.flatMap Piece.tokens).filterMap Token.quoted? = qs

variable {ps ps' : List Piece} {qs qs' : List String}

theorem write_append {cs ds : List Char} (h : write ps = .ok cs) (h' : write ps' = .ok ds) :
    write (ps ++ ps') = .ok (cs ++ ds) := by
  unfold write at h h' ⊢
  rw [List.mapM_append]
  cases hp : ps.mapM Piece.write with
  | error x => rw [hp] at h; cases h
  | ok a =>
    cases hp' : ps'.mapM Piece.write with
    | error x => rw [hp'] at h'; cases h'
    | ok b =>
      rw [hp] at h
      rw [hp'] at h'
      cases h
      cases h'
      exact congrArg Except.ok List.flatten_append

theorem write_singleton {p : Piece} {cs : List Char} (h : p.write = .ok cs) :
    write [p] = .ok cs := by
  unfold write
  rw [List.mapM_cons, h]
  exact congrArg Except.ok (List.append_nil cs)

namespace Joins

theorem nil : Joins e [] e [] where
  reads m hm := by
    obtain ⟨p, hp⟩ := finish_of_edge hm
    exact ⟨[], m, rfl, hm, reads_nil hp⟩
  quoted := rfl

theorem append (h : Joins e ps e' qs) (h' : Joins e' ps' e'' qs') :
    Joins e (ps ++ ps') e'' (qs ++ qs') where
  reads m hm := by
    obtain ⟨cs, n, hw, hn, hr⟩ := h.reads m hm
    obtain ⟨ds, o, hw', ho, hr'⟩ := h'.reads n hn
    exact ⟨cs ++ ds, o, write_append hw hw', ho, List.flatMap_append ▸ hr.append hr'⟩
  quoted := by rw [List.flatMap_append, List.filterMap_append, h.quoted, h'.quoted]

theorem own_one {s : String} {own : List String} (h : e.leads s.toList e' own = true) :
    Joins e [.fixed s] e' own := by
  obtain ⟨hover, hown⟩ := Bool.and_eq_true_iff.mp h
  refine ⟨fun m hm => ?_, by simpa [Piece.tokens] using hown⟩
  obtain ⟨n, hn, hr⟩ := reads_over hm (beq_iff_eq.mp hover)
  exact ⟨s.toList, n, write_singleton rfl, hn, by simpa [Piece.tokens] using hr⟩

theorem name_one {s : String} (h : '\x00' ∉ s.toList) : Joins (.gap false) [.name s] .name [s] where
  reads m hm := by
    obtain rfl : m = .gap false := by
      cases m <;> cases hm
      rfl
    exact ⟨_, _, write_singleton rfl, rfl, reads_writeName h⟩
  quoted := by simp [Piece.tokens, Token.quoted?]

theorem text_one {s : String} (h : '\x00' ∉ s.toList) :
    Joins (.gap false) [.constant (.text s)] .text [s] where
  reads m hm := by
    obtain rfl : m = .gap false := by
      cases m <;> cases hm
      rfl
    have hwrite : Piece.write (.constant (.text s)) = .ok (writeText s.toList) := by
      have hnul : Constant.hasNul (.text s) = false := by simpa [Constant.hasNul] using h
      simp [Piece.write, Constant.write, hnul]
    obtain ⟨escapes, hr⟩ := reads_writeText h
    exact ⟨_, _, write_singleton hwrite, rfl, hr⟩
  quoted := by simp [Piece.tokens, Token.quoted?]

theorem own {s : String} (xs : List String) (h : e.leads s.toList e' xs = true)
    (hps : Joins e' ps e'' qs) : Joins e (.fixed s :: ps) e'' (xs ++ qs) :=
  (own_one h).append hps

/-- Fixed characters with nothing in quotes. -/
theorem fixed {s : String} (h : e.leads s.toList e' [] = true) (hps : Joins e' ps e'' qs) :
    Joins e (.fixed s :: ps) e'' qs := own [] h hps

theorem name {s : String} (h : '\x00' ∉ s.toList) (hps : Joins .name ps e'' qs) :
    Joins (.gap false) (.name s :: ps) e'' (s :: qs) := (name_one h).append hps

theorem text {s : String} (h : '\x00' ∉ s.toList) (hps : Joins .text ps e'' qs) :
    Joins (.gap false) (.constant (.text s) :: ps) e'' (s :: qs) := (text_one h).append hps

/-! ## Lists with commas -/

theorem comma_name : Edge.leads .name ",".toList (.gap false) [] = true := by decide

theorem comma_text : Edge.leads .text ",".toList (.gap false) [] = true := by decide

theorem commaSeparated {f : String → Piece} {xs : List String}
    (hcomma : e.leads ",".toList (.gap false) [] = true)
    (h : ∀ x ∈ xs, Joins (.gap false) [f x] e [x]) (hne : xs ≠ []) :
    Joins (.gap false) (commaSeparated (xs.map f)) e xs := by
  induction xs with
  | nil => exact absurd rfl hne
  | cons x xs ih =>
    have hx : Joins (.gap false) [f x] e [x] := h x List.mem_cons_self
    cases xs with
    | nil => exact hx
    | cons y ys =>
      have hrest := ih (fun z hz => h z (List.mem_cons_of_mem x hz)) (List.cons_ne_nil y ys)
      exact hx.append (fixed hcomma hrest)

theorem constants {xs : List String} (h : ∀ x ∈ xs, '\x00' ∉ x.toList) (hne : xs ≠ []) :
    Joins (.gap false) (constants xs) .text xs :=
  commaSeparated comma_text (fun x hx => text_one (h x hx)) hne

/-- Without a name the reader stays between the tokens. -/
theorem names {xs : List String} (h : ∀ x ∈ xs, '\x00' ∉ x.toList) :
    ∃ e, (e = .name ∨ e = .gap false) ∧ Joins (.gap false) (names xs) e xs := by
  cases xs with
  | nil => exact ⟨_, .inr rfl, nil⟩
  | cons x xs =>
    exact ⟨_, .inl rfl, commaSeparated comma_name (fun y hy => name_one (h y hy))
      (List.cons_ne_nil x xs)⟩

theorem qualified {schema o : String} (hs : '\x00' ∉ schema.toList) (ho : '\x00' ∉ o.toList) :
    Joins (.gap false) (qualified schema o) .name [schema, o] :=
  name hs (fixed (by decide) (name ho nil))

theorem objects {schema : String} {xs : List String} (hs : '\x00' ∉ schema.toList)
    (h : ∀ x ∈ xs, '\x00' ∉ x.toList) (hne : xs ≠ []) :
    Joins (.gap false) ((xs.map (Sql.qualified schema)).intersperse [.fixed ","]).flatten .name
      (xs.flatMap fun o => [schema, o]) := by
  induction xs with
  | nil => exact absurd rfl hne
  | cons x xs ih =>
    have hx := qualified hs (h x List.mem_cons_self)
    cases xs with
    | nil => exact hx.append nil
    | cons y ys =>
      have hrest := ih (fun z hz => h z (List.mem_cons_of_mem x hz)) (List.cons_ne_nil y ys)
      exact hx.append (fixed comma_name hrest)

end Joins

end Reader

end DeclaredAccess.Sql
