import DeclaredAccess.Sql.Quoting

/-! How the server reads the text of a statement, character by character. A word goes as far as its
letters do. Between double quotes stands a name and between single quotes a text, where a doubled
quote is one quote; after an `E` a backslash in a text is doubled too.

The reader is stricter than the server and refuses what the server could take in several ways or
what opens a comment or ends a statement: any other character between the tokens, a backslash in a
text without `E`, another escape than a doubled backslash, other letters in front of a text, and two
texts with nothing but white space between them. Where it reads something, the server reads the
same tokens. The limits that the server then sets to names are left out: it refuses a name between
double quotes that has no characters, and cuts off what goes beyond 63 bytes of any name. -/

namespace DeclaredAccess.Sql

/-- A part of a text: a keyword, plain name or number, a punctuation mark, or what stands in
quotes. -/
inductive Token
  | word (cs : List Char)
  | mark (c : Char)
  | name (cs : List Char)
  | text (cs : List Char)
  deriving DecidableEq, Repr

namespace Reader

/-- Where the reader is: between tokens, in a word, in quotes, or behind a quote that may turn out
to be the first of two. -/
inductive Mode
  | gap (afterText : Bool)
  | word (cs : List Char)
  | name (cs : List Char)
  | nameEnd (cs : List Char)
  | text (escapes : Bool) (cs : List Char)
  | textEnd (escapes : Bool) (cs : List Char)
  | backslash (cs : List Char)
  deriving DecidableEq

def isSpace (c : Char) : Bool := c == ' ' || c == '\n' || c == '\t' || c == '\r' || c == '\x0c'

def isWord (c : Char) : Bool := c.isAlphanum || c == '_'

def isMark (c : Char) : Bool := ['(', ')', '[', ']', '.', ',', ':', '<', '='].contains c

/-- The first character of a token, or a blank in front of it. -/
def start (afterText : Bool) (c : Char) : Option (Mode × List Token) :=
  if isSpace c then some (.gap afterText, [])
  else if isWord c then some (.word [c], [])
  else if isMark c then some (.gap false, [.mark c])
  else if c = '"' then some (.name [], [])
  else if c = '\'' && !afterText then some (.text false [], [])
  else none

/-- A token that has ended, in front of what comes next. -/
def after (t : Token) (next : Option (Mode × List Token)) : Option (Mode × List Token) :=
  next.map fun r => (r.1, t :: r.2)

def step (m : Mode) (c : Char) : Option (Mode × List Token) := match m with
  | .gap afterText => start afterText c
  | .word cs =>
    if isWord c then some (.word (cs ++ [c]), [])
    else if c = '\'' then if cs = ['E'] then some (.text true [], []) else none
    else after (.word cs) (start false c)
  | .name cs =>
    if c = '"' then some (.nameEnd cs, [])
    else if c = '\x00' then none
    else some (.name (cs ++ [c]), [])
  | .nameEnd cs =>
    if c = '"' then some (.name (cs ++ [c]), []) else after (.name cs) (start false c)
  | .text escapes cs =>
    if c = '\'' then some (.textEnd escapes cs, [])
    else if c = '\\' then if escapes then some (.backslash cs, []) else none
    else if c = '\x00' then none
    else some (.text escapes (cs ++ [c]), [])
  | .textEnd escapes cs =>
    if c = '\'' then some (.text escapes (cs ++ [c]), []) else after (.text cs) (start true c)
  | .backslash cs => if c = '\\' then some (.text true (cs ++ [c]), []) else none

/-- Where the reader gets to, and the tokens that have ended on the way. -/
def scan (m : Mode) (cs : List Char) : Option (Mode × List Token) := match cs with
  | [] => some (m, [])
  | c :: cs => do
    let (m, ts) ← step m c
    let (n, us) ← scan m cs
    return (n, ts ++ us)

/-- The token that ends with the text, unless it is still open. -/
def Mode.finish : Mode → Option (List Token)
  | .gap _ => some []
  | .word cs => some [.word cs]
  | .nameEnd cs => some [.name cs]
  | .textEnd _ cs => some [.text cs]
  | .name _ | .text _ _ | .backslash _ => none

/-- The tokens of a text. -/
def read (cs : List Char) : Option (List Token) := do
  let (m, ts) ← scan (.gap false) cs
  return ts ++ (← m.finish)

theorem scan_cons (m : Mode) (c : Char) (cs : List Char) : scan m (c :: cs) =
    (step m c).bind fun r => (scan r.1 cs).map fun x => (x.1, r.2 ++ x.2) := by
  cases h : step m c with
  | none => simp [scan, h]
  | some r =>
    cases h' : scan r.1 cs <;> simp [scan, h, h']

theorem scan_append (m : Mode) (cs ds : List Char) : scan m (cs ++ ds) =
    (scan m cs).bind fun r => (scan r.1 ds).map fun x => (x.1, r.2 ++ x.2) := by
  induction cs generalizing m with
  | nil => simp [scan]
  | cons c cs ih =>
    rw [List.cons_append, scan_cons, scan_cons]
    cases step m c with
    | none => rfl
    | some r =>
      simp only [Option.bind_some, ih]
      cases scan r.1 cs with
      | none => rfl
      | some x =>
        cases h : scan x.1 ds <;> simp [h, List.append_assoc]

/-- `Reads m cs n ts`: from `m` the reader gets over `cs` to `n`, both outside of quotes, and what
has ended then or is about to end are the tokens `ts`. -/
def Reads (m : Mode) (cs : List Char) (n : Mode) (ts : List Token) : Prop :=
  ∃ us p q, scan m cs = some (n, us) ∧ m.finish = some p ∧ n.finish = some q ∧ p ++ ts = us ++ q

variable {m n o : Mode} {cs ds : List Char} {ts us : List Token}

theorem Reads.append (h : Reads m cs n ts) (h' : Reads n ds o us) :
    Reads m (cs ++ ds) o (ts ++ us) := by
  obtain ⟨xs, p, q, hs, hp, hq, he⟩ := h
  obtain ⟨ys, q', r, hs', hq', hr, he'⟩ := h'
  obtain rfl : q = q' := Option.some.inj (hq.symm.trans hq')
  refine ⟨xs ++ ys, p, r, ?_, hp, hr, ?_⟩
  · rw [scan_append, hs, Option.bind_some, hs', Option.map_some]
  · rw [← List.append_assoc, he, List.append_assoc, he', List.append_assoc]

theorem reads_nil {p : List Token} (h : m.finish = some p) : Reads m [] m [] :=
  ⟨[], p, p, rfl, h, h, by simp⟩

theorem read_of_reads (h : Reads (.gap false) cs n ts) : read cs = some ts := by
  obtain ⟨us, p, q, hs, hp, hq, he⟩ := h
  obtain rfl : [] = p := Option.some.inj hp
  rw [read, hs]
  simpa [hq] using he.symm

/-! ## What ends a token -/

/-- Whether a text has just ended. -/
def Mode.afterText : Mode → Bool
  | .gap b => b
  | .textEnd _ _ => true
  | _ => false

/-- Whether a character goes on with the token in front of it. -/
def Mode.continues : Mode → Char → Bool
  | .gap _, _ => false
  | .word _, c => isWord c || c == '\''
  | .nameEnd _, c => c == '"'
  | .textEnd _ _, c => c == '\''
  | .name _, _ | .text _ _, _ | .backslash _, _ => true

/-- A character that does not go on with a token ends it. -/
theorem step_of_not_continues {c : Char} (h : m.continues c = false) :
    ∃ p, m.finish = some p ∧
      step m c = (start m.afterText c).map fun r => (r.1, p ++ r.2) := by
  cases m with
  | gap b => exact ⟨[], rfl, by simp [step, Mode.afterText]⟩
  | word w =>
    simp only [Mode.continues, Bool.or_eq_false_iff, beq_eq_false_iff_ne] at h
    exact ⟨_, rfl, by simp [step, Mode.afterText, h, after]⟩
  | nameEnd w =>
    have hc : c ≠ '"' := by simpa [Mode.continues] using h
    exact ⟨_, rfl, by simp [step, Mode.afterText, hc, after]⟩
  | textEnd e w =>
    have hc : c ≠ '\'' := by simpa [Mode.continues] using h
    exact ⟨_, rfl, by simp [step, Mode.afterText, hc, after]⟩
  | name | text | backslash => cases h

theorem reads_of_not_continues {c : Char} (h : m.continues c = false)
    (hr : Reads (.gap m.afterText) (c :: cs) n ts) : Reads m (c :: cs) n ts := by
  obtain ⟨us, g, q, hs, hg, hq, he⟩ := hr
  obtain rfl : [] = g := Option.some.inj hg
  obtain ⟨p, hp, hstep⟩ := step_of_not_continues h
  refine ⟨p ++ us, p, q, ?_, hp, hq, by rw [List.append_assoc, ← he, List.nil_append]⟩
  rw [scan_cons] at hs ⊢
  have hgap : step (.gap m.afterText) c = start m.afterText c := rfl
  rw [hgap] at hs
  rw [hstep]
  cases hst : start m.afterText c with
  | none => rw [hst] at hs; cases hs
  | some r =>
    rw [hst, Option.bind_some] at hs
    obtain ⟨x, hx, hxe⟩ := Option.map_eq_some_iff.mp hs
    cases hxe
    simp [hx]

/-- Behind a text the reader refuses more, and reads nothing differently. -/
theorem start_of_afterText {c : Char} {r : Mode × List Token} (h : start true c = some r) :
    start false c = some r ∨ r = (.gap true, []) ∧ start false c = some (.gap false, []) := by
  by_cases hs : isSpace c = true
  · right
    simp only [start, hs, if_true, Option.some.injEq] at h ⊢
    exact ⟨h.symm, trivial⟩
  · left
    by_cases hq : c = '\''
    · subst hq
      have hnone : start true '\'' = none := by decide
      rw [hnone] at h
      cases h
    · rw [← h]
      simp [start, hs, hq]

theorem scan_of_afterText (h : scan (.gap true) cs = some (n, us)) :
    ∃ n', scan (.gap false) cs = some (n', us) ∧ n'.finish = n.finish := by
  induction cs generalizing us with
  | nil =>
    cases h
    exact ⟨_, rfl, rfl⟩
  | cons c cs ih =>
    rw [scan_cons] at h
    have hstep (b : Bool) : step (.gap b) c = start b c := rfl
    rw [hstep] at h
    cases hst : start true c with
    | none => rw [hst] at h; cases h
    | some r =>
      rw [hst, Option.bind_some] at h
      obtain ⟨x, hx, hxe⟩ := Option.map_eq_some_iff.mp h
      cases hxe
      rcases start_of_afterText hst with hf | ⟨rfl, hf⟩
      · exact ⟨x.1, by rw [scan_cons, hstep, hf, Option.bind_some, hx]; rfl, rfl⟩
      · obtain ⟨n', hn', hfin⟩ := ih hx
        exact ⟨n', by rw [scan_cons, hstep, hf, Option.bind_some, hn']; rfl, hfin⟩

/-! ## Quoted names and texts -/

/-- Between quotes, where what each character is written as is read as that character, what all of
them are written as is read as all of them; then the quote that ends it stands. -/
theorem scan_written {within done : List Char → Mode} {write : Char → List Char} {mark : Char}
    (hend : ∀ acc, step (within acc) mark = some (done acc, []))
    (h : ∀ c ∈ cs, ∀ acc, scan (within acc) (write c) = some (within (acc ++ [c]), []))
    (acc : List Char) :
    scan (within acc) (cs.flatMap write ++ [mark]) = some (done (acc ++ cs), []) := by
  induction cs generalizing acc with
  | nil =>
    rw [List.flatMap_nil, List.nil_append, List.append_nil, scan_cons, hend]
    rfl
  | cons c cs ih =>
    have hrest := ih (fun d hd => h d (List.mem_cons_of_mem c hd)) (acc ++ [c])
    rw [List.append_assoc, List.singleton_append] at hrest
    rw [List.flatMap_cons, List.append_assoc, scan_append, h c List.mem_cons_self acc,
      Option.bind_some, hrest]
    rfl

theorem scan_doubled_quote (acc cs : List Char) (h : '\x00' ∉ cs) :
    scan (.name acc) (doubled '"' cs ++ ['"']) = some (.nameEnd (acc ++ cs), []) := by
  refine scan_written (fun acc => rfl) (fun c hc acc => ?_) acc
  have hz : c ≠ '\x00' := fun hz => h (hz ▸ hc)
  by_cases hq : c = '"'
  · subst hq
    simp [scan, step]
  · simp [scan, step, hq, hz]

/-- A quoted name reads as the name, whatever stands in it. -/
theorem reads_writeName (h : '\x00' ∉ cs) :
    Reads (.gap false) (writeName cs) (.nameEnd cs) [.name cs] := by
  refine ⟨[], [], [.name cs], ?_, rfl, rfl, rfl⟩
  have hstep : step (.gap false) '"' = some (.name [], []) := by decide
  have hbody := scan_doubled_quote [] cs h
  rw [writeName, List.cons_append, scan_cons, hstep, Option.bind_some, hbody]
  rfl

theorem scan_doubled_apostrophe (acc cs : List Char) (h : '\x00' ∉ cs) (hb : '\\' ∉ cs) :
    scan (.text false acc) (doubled '\'' cs ++ ['\'']) =
      some (.textEnd false (acc ++ cs), []) := by
  refine scan_written (fun acc => rfl) (fun c hc acc => ?_) acc
  have hz : c ≠ '\x00' := fun hz => h (hz ▸ hc)
  have hs : c ≠ '\\' := fun hs => hb (hs ▸ hc)
  by_cases hq : c = '\''
  · subst hq
    simp [scan, step]
  · simp [scan, step, hq, hz, hs]

theorem scan_escaped (acc cs : List Char) (h : '\x00' ∉ cs) :
    scan (.text true acc) (doubled '\\' (doubled '\'' cs) ++ ['\'']) =
      some (.textEnd true (acc ++ cs), []) := by
  rw [doubled, doubled, List.flatMap_assoc]
  refine scan_written (fun acc => rfl) (fun c hc acc => ?_) acc
  have hz : c ≠ '\x00' := fun hz => h (hz ▸ hc)
  by_cases hq : c = '\''
  · subst hq
    simp [scan, step]
  · by_cases hs : c = '\\'
    · subst hs
      simp [scan, step]
    · simp [scan, step, hq, hs, hz]

/-- A quoted text reads as the text, with or without backslashes in it. -/
theorem reads_writeText (h : '\x00' ∉ cs) :
    ∃ escapes, Reads (.gap false) (writeText cs) (.textEnd escapes cs) [.text cs] := by
  by_cases hb : '\\' ∈ cs
  · refine ⟨true, [], [], [.text cs], ?_, rfl, rfl, rfl⟩
    have hmark : scan (.gap false) [' ', 'E', '\''] = some (.text true [], []) := by decide
    have hbody := scan_escaped [] cs h
    have hcut : writeText cs = [' ', 'E', '\''] ++ (doubled '\\' (doubled '\'' cs) ++ ['\'']) := by
      simp [writeText, hb]
    rw [hcut, scan_append, hmark, Option.bind_some, hbody]
    rfl
  · refine ⟨false, [], [], [.text cs], ?_, rfl, rfl, rfl⟩
    have hmark : scan (.gap false) ['\''] = some (.text false [], []) := by decide
    have hbody := scan_doubled_apostrophe [] cs h hb
    have hcut : writeText cs = ['\''] ++ (doubled '\'' cs ++ ['\'']) := by simp [writeText, hb]
    rw [hcut, scan_append, hmark, Option.bind_some, hbody]
    rfl

end Reader

end DeclaredAccess.Sql
