import DeclaredAccess.Proofs.Acl.RoundTrip

/-! The grammar of the entries of access control lists, and that exactly its texts are read. A form
carries what makes it well-formed, so each form has a text; and what reads a part of a text gives
back the part that was written, with the rest. So a text has one form at most, and one that is read
has the form that the parts make. -/

namespace DeclaredAccess.Acl

namespace Entry

/-- A name as it stands in an entry up to `stop`: as it is, or between quotes. -/
inductive Name (stop : Char)
  | bare (cs : List Char) (unstopped : stop ∉ cs) (unquoted : cs.head? ≠ some '"')
  | quoted (cs : List Char)

namespace Name

variable {stop : Char}

/-- The name itself. -/
def spelt : Name stop → List Char
  | bare cs _ _ => cs
  | quoted cs => cs

def chars : Name stop → List Char
  | bare cs _ _ => cs
  | quoted cs => '"' :: (doubleQuotes cs ++ ['"'])

theorem chars_injective {n n' : Name stop} (h : n.chars = n'.chars) : n = n' := by
  cases n with
  | bare cs hs hq =>
    cases n' with
    | bare cs' hs' hq' =>
      obtain rfl : cs = cs' := h
      rfl
    | quoted cs' =>
      obtain rfl : cs = '"' :: (doubleQuotes cs' ++ ['"']) := h
      exact absurd rfl hq
  | quoted cs =>
    cases n' with
    | bare cs' hs' hq' =>
      obtain rfl : '"' :: (doubleQuotes cs ++ ['"']) = cs' := h
      exact absurd rfl hq'
    | quoted cs' =>
      have hd : doubleQuotes cs = doubleQuotes cs' := by simpa [chars] using h
      have hc := closeQuote?_doubleQuotes cs (r := []) (by simp)
      rw [hd, closeQuote?_doubleQuotes cs' (by simp)] at hc
      simp only [Option.some.injEq, Prod.mk.injEq, and_true] at hc
      rw [hc]

end Name

/-- What is asked of an entry: a name, `=`, letters of privileges with or without a star, and
perhaps `/` and the name of the grantor. -/
structure Form where
  role : Name '='
  held : List (Privilege × Bool)
  grantor : Option (Name '/')

/-- The grantor with its mark. -/
def grantorChars : Option (Name '/') → List Char
  | none => []
  | some n => '/' :: n.chars

theorem grantorChars_injective {g g' : Option (Name '/')} (h : grantorChars g = grantorChars g') :
    g = g' := by
  cases g with
  | none =>
    cases g' with
    | none => rfl
    | some n => cases h
  | some n =>
    cases g' with
    | none => cases h
    | some n' => exact congrArg some (Name.chars_injective (List.cons.inj h).2)

namespace Form

def chars (f : Form) : List Char :=
  f.role.chars ++ '=' :: (letters f.held ++ grantorChars f.grantor)

def text (f : Form) : String := String.ofList f.chars

/-- What an entry of the form says. -/
structure Says (f : Form) (a : Acl) : Prop where
  role : a.role = String.ofList f.role.spelt
  privileges : ∀ p, p ∈ a.privileges ↔ ∃ option, (p, option) ∈ f.held
  grantOptions : ∀ p, p ∈ a.grantOptions ↔ (p, true) ∈ f.held
  grantor : a.grantor = String.ofList ((f.grantor.map Name.spelt).getD [])

theorem says_ofHoldings (f : Form) : f.Says (ofHoldings (String.ofList f.role.spelt) f.held
    (String.ofList ((f.grantor.map Name.spelt).getD []))) where
  role := rfl
  privileges p := by simp [ofHoldings]
  grantOptions p := by simp [ofHoldings]
  grantor := rfl

end Form

/-! ## Forms are read -/

section Read

variable {stop : Char} {r : List Char}

theorem name_chars (n : Name stop) (hs : stop ≠ '"') (hr : Ends stop r) :
    name stop (n.chars ++ r) = .ok (n.spelt, r) := by
  cases n with
  | bare cs hn hq =>
    have unstopped : ∀ c ∈ cs, c ≠ stop := fun c hc he => hn (he.symm ▸ hc)
    obtain ⟨take, drop⟩ := span_of_ends unstopped hr
    have bare : (cs ++ r).head? ≠ some '"' := by
      cases cs with
      | nil => exact fun h => hs (hr _ h).symm
      | cons c cs => exact hq
    simp only [Name.chars, name]
    split
    · rename_i h
      rw [h] at bare
      exact absurd rfl bare
    · rw [take, drop]
      rfl
  | quoted cs =>
    have hc : '"' :: (doubleQuotes cs ++ ['"']) ++ r = '"' :: (doubleQuotes cs ++ '"' :: r) := by
      simp
    have hq : closeQuote? (doubleQuotes cs ++ '"' :: r) = some (cs, r) :=
      closeQuote?_doubleQuotes cs fun h => hs (hr _ h).symm
    simp only [Name.chars, hc, name, hq]
    rfl

theorem grantor_chars (g : Option (Name '/')) :
    grantor (grantorChars g) = .ok ((g.map Name.spelt).getD []) := by
  cases g with
  | none => rfl
  | some n =>
    have hn : name '/' n.chars = .ok (n.spelt, []) := by
      simpa using name_chars n (by decide) ends_nil
    simp only [grantorChars, grantor, hn, bind, Except.bind]
    rfl

theorem ends_grantorChars (g : Option (Name '/')) : Ends '/' (grantorChars g) := by
  cases g with
  | none => exact ends_nil
  | some n => exact ends_mark

theorem name_form (f : Form) :
    name '=' f.chars = .ok (f.role.spelt, '=' :: (letters f.held ++ grantorChars f.grantor)) :=
  name_chars f.role (by decide) ends_mark

theorem readChars_form (f : Form) : ∃ a, readChars f.chars = .ok a ∧ f.Says a := by
  obtain ⟨take, drop⟩ :=
    span_of_ends (slash_not_mem_letters f.held) (ends_grantorChars f.grantor)
  refine ⟨_, ?_, f.says_ofHoldings⟩
  simp only [readChars, name_form, take, drop, holdings_letters, grantor_chars, bind, Except.bind,
    pure, Except.pure]

/-- A text has one form. -/
theorem Form.chars_injective {f g : Form} (h : f.chars = g.chars) : f = g := by
  have hname := name_form f
  rw [h, name_form g] at hname
  simp only [Except.ok.injEq, Prod.mk.injEq, List.cons.injEq, true_and] at hname
  obtain ⟨-, hrest⟩ := hname
  obtain ⟨take, drop⟩ :=
    span_of_ends (slash_not_mem_letters f.held) (ends_grantorChars f.grantor)
  obtain ⟨take', drop'⟩ :=
    span_of_ends (slash_not_mem_letters g.held) (ends_grantorChars g.grantor)
  rw [hrest] at take' drop'
  have hletters : letters f.held = letters g.held := take.symm.trans take'
  have hgrantor : grantorChars f.grantor = grantorChars g.grantor := drop.symm.trans drop'
  have hheld : f.held = g.held := by
    have hf := holdings_letters f.held
    rw [hletters, holdings_letters g.held] at hf
    exact (Except.ok.inj hf).symm
  have hrole : f.role = g.role := by
    have hsame : f.role.chars ++ '=' :: (letters g.held ++ grantorChars g.grantor) = g.chars := by
      rw [← hletters, ← hgrantor]
      exact h
    exact Name.chars_injective (List.append_cancel_right hsame)
  have hgranter : f.grantor = g.grantor := grantorChars_injective hgrantor
  cases f
  cases g
  simp_all

end Read

/-! ## What is read has a form -/

section Sound

variable {stop : Char} {cs x r : List Char}

theorem closeQuote?_eq_some (h : closeQuote? cs = some (x, r)) :
    cs = doubleQuotes x ++ '"' :: r := by
  fun_induction closeQuote? cs generalizing x with
  | case1 => cases h
  | case2 cs ih =>
    obtain ⟨y, hy, he⟩ := Option.map_eq_some_iff.mp h
    cases he
    rw [ih hy]
    simp [doubleQuotes]
  | case3 cs hq =>
    cases h
    rfl
  | case4 c cs hq hc ih =>
    obtain ⟨y, hy, he⟩ := Option.map_eq_some_iff.mp h
    cases he
    have hne : c ≠ '"' := fun e => hc e
    rw [ih hy]
    simp [doubleQuotes, hne]

theorem name_eq_ok (h : name stop cs = .ok (x, r)) :
    ∃ n : Name stop, cs = n.chars ++ r ∧ n.spelt = x := by
  unfold name at h
  split at h
  · rename_i cs
    split at h
    · rename_i y hy
      cases h
      refine ⟨.quoted x, ?_, rfl⟩
      rw [closeQuote?_eq_some hy]
      simp [Name.chars]
    · cases h
  · rename_i hq
    cases h
    have unstopped : stop ∉ cs.takeWhile (· != stop) := fun hm => by
      simpa using List.all_eq_true.mp List.all_takeWhile _ hm
    have unquoted : (cs.takeWhile (· != stop)).head? ≠ some '"' := by
      rw [List.head?_takeWhile]
      intro hh
      obtain ⟨hc, -⟩ := Option.filter_eq_some_iff.mp hh
      obtain ⟨r, hr⟩ := List.head?_eq_some_iff.mp hc
      exact hq r hr
    exact ⟨.bare _ unstopped unquoted, List.takeWhile_append_dropWhile.symm, rfl⟩

theorem holdings_eq_ok {held : List (Privilege × Bool)} (h : holdings cs = .ok held) :
    cs = letters held := by
  fun_induction holdings cs generalizing held with
  | case1 =>
    cases h
    rfl
  | case2 => cases h
  | case3 => cases h
  | case4 c hc p hp r ih =>
    -- the star after the letter belongs to it
    cases hr : holdings r with
    | error e => rw [hr] at h; cases h
    | ok rest =>
      rw [hr] at h
      cases h
      rw [Privilege.ofLetter?_eq_some_iff.mp hp, ih hr]
      rfl
  | case5 c hc p hp r hs ih =>
    cases hr : holdings r with
    | error e => rw [hr] at h; cases h
    | ok rest =>
      rw [hr] at h
      cases h
      rw [Privilege.ofLetter?_eq_some_iff.mp hp, ih hr]
      rfl

theorem grantor_eq_ok (hm : Ends '/' cs) (h : grantor cs = .ok x) :
    ∃ g : Option (Name '/'), cs = grantorChars g ∧ (g.map Name.spelt).getD [] = x := by
  cases cs with
  | nil =>
    cases h
    exact ⟨none, rfl, rfl⟩
  | cons c cs =>
    obtain rfl : c = '/' := hm c rfl
    simp only [grantor, bind, Except.bind] at h
    split at h
    · cases h
    · rename_i y hy
      split at h
      · rename_i he
        cases h
        obtain ⟨n, hn, hx⟩ := name_eq_ok hy
        rw [List.isEmpty_iff.mp he, List.append_nil] at hn
        exact ⟨some n, congrArg ('/' :: ·) hn, hx⟩
      · cases h

/-- A text that is read has a form. -/
theorem exists_form {a : Acl} (h : readChars cs = .ok a) : ∃ f : Form, f.chars = cs := by
  unfold readChars at h
  obtain ⟨⟨role, rest⟩, hrole, hread⟩ := exists_of_bind_eq_ok h
  obtain ⟨n, hn, -⟩ := name_eq_ok hrole
  dsimp only at hread
  split at hread
  · rename_i r
    obtain ⟨held, hheld, hrest⟩ := exists_of_bind_eq_ok hread
    obtain ⟨granter, hgranter, -⟩ := exists_of_bind_eq_ok hrest
    have hmark : Ends '/' (r.dropWhile (· != '/')) := fun c hc => by
      have hs := List.head?_dropWhile_not (· != '/') r
      rw [hc] at hs
      simpa using hs
    obtain ⟨g, hg, -⟩ := grantor_eq_ok hmark hgranter
    refine ⟨⟨n, held, g⟩, ?_⟩
    rw [Form.chars, ← holdings_eq_ok hheld, ← hg, List.takeWhile_append_dropWhile, hn]
  · cases hread

end Sound

end Entry

/-- A text can be read as an entry exactly if it has a form. Then it has one form only, and what is
read is what the form says; any other text is refused as an entry. -/
theorem ofEntry_iff_form (e : String) :
    ((∃ a, ofEntry (.text e) = .ok a) ↔ ∃ f : Entry.Form, f.text = e) ∧
    (∀ f : Entry.Form, f.text = e →
      (∃ a, ofEntry (.text e) = .ok a ∧ f.Says a) ∧ ∀ g : Entry.Form, g.text = e → g = f) ∧
    ((¬∃ f : Entry.Form, f.text = e) →
      ∃ cause, ofEntry (.text e) = .error (.entry (.text e) cause)) := by
  have reads : ∀ f : Entry.Form, f.text = e →
      (∃ a, ofEntry (.text e) = .ok a ∧ f.Says a) ∧ ∀ g : Entry.Form, g.text = e → g = f := by
    rintro f rfl
    obtain ⟨a, hread, htold⟩ := Entry.readChars_form f
    refine ⟨⟨a, ?_, htold⟩, fun g hg => ?_⟩
    · simp only [ofEntry, Entry.read, Entry.Form.text, String.toList_ofList, hread]
    · have hchars : g.chars = f.chars := by
        simpa [Entry.Form.text] using congrArg String.toList hg
      exact Entry.Form.chars_injective hchars
  cases hread : Entry.read e with
  | ok a =>
    obtain ⟨f, hf⟩ := Entry.exists_form hread
    have htext : f.text = e := by rw [Entry.Form.text, hf, String.ofList_toList]
    have hok : ofEntry (.text e) = .ok a := by simp only [ofEntry, hread]
    exact ⟨iff_of_true ⟨a, hok⟩ ⟨f, htext⟩, reads, fun hnone => absurd ⟨f, htext⟩ hnone⟩
  | error cause =>
    have herr : ofEntry (.text e) = .error (.entry (.text e) cause) := by
      simp only [ofEntry, hread]
    have hnot : ¬∃ a, ofEntry (.text e) = .ok a := by
      rintro ⟨a, ha⟩
      rw [herr] at ha
      cases ha
    have hnone : ¬∃ f : Entry.Form, f.text = e := by
      rintro ⟨f, hf⟩
      exact hnot ((reads f hf).1.imp fun _ h => h.1)
    exact ⟨iff_of_false hnot hnone, reads, fun _ => ⟨cause, herr⟩⟩

/-- `alice=wr*w/"bob"` -/
def doubledForm : Entry.Form where
  role := .bare ['a', 'l', 'i', 'c', 'e'] (by decide) (by decide)
  held := [(.update, false), (.select, true), (.update, false)]
  grantor := some (.quoted ['b', 'o', 'b'])

/-- An entry with a quoted grantor and one letter twice, and a text with a quote that is open. -/
theorem ofEntry_iff_form_doubled :
    (∃ a, ofEntry (.text "alice=wr*w/\"bob\"") = .ok a ∧ a.role = "alice" ∧ a.grantor = "bob" ∧
      Privilege.update ∈ a.privileges ∧ ¬Privilege.update ∈ a.grantOptions) ∧
    ∃ cause, ofEntry (.text "\"alice=r") = .error (.entry (.text "\"alice=r") cause) := by
  constructor
  · have htext : doubledForm.text = "alice=wr*w/\"bob\"" := by decide
    obtain ⟨⟨a, ha, htold⟩, -⟩ := (ofEntry_iff_form _).2.1 doubledForm htext
    refine ⟨a, ha, htold.role, htold.grantor, (htold.privileges _).mpr ⟨false, by decide⟩,
      fun h => ?_⟩
    have hstar := (htold.grantOptions _).mp h
    revert hstar
    decide
  · have hchars : "\"alice=r".toList = ['"', 'a', 'l', 'i', 'c', 'e', '=', 'r'] :=
      String.toList_ofList
    have hread : Entry.read "\"alice=r" = .error .openQuote := by
      rw [Entry.read, hchars]
      rfl
    refine (ofEntry_iff_form _).2.2 fun hform => ?_
    obtain ⟨a, ha⟩ := (ofEntry_iff_form _).1.mpr hform
    simp only [ofEntry, hread] at ha
    cases ha

end DeclaredAccess.Acl
