import DeclaredAccess.Acl.Items
import DeclaredAccess.Proofs.Checks

/-! Entries of access control lists, written and read again. A name is bare only where each of its
characters is plain, and neither a quote nor a mark of the entry is plain; a quoted name ends at the
first quote that is not followed by another one. So each name is read back up to whatever mark
follows it, and so is each letter with its star. -/

namespace DeclaredAccess

theorem Privilege.letter_ne_mark (p : Privilege) : p.letter ≠ '*' ∧ p.letter ≠ '/' := by
  cases p <;> decide

namespace Acl

namespace Entry

variable {stop : Char} {r : List Char}

/-! ## Names -/

/-- Whether a part of an entry ends before `r`: nothing follows, or the mark. -/
def Ends (stop : Char) (r : List Char) : Prop := ∀ c, r.head? = some c → c = stop

theorem ends_nil : Ends stop [] := fun _ h => by cases h

theorem ends_mark : Ends stop (stop :: r) := fun c h => by simpa using h.symm

/-- A part without the mark goes up to the mark. -/
theorem span_of_ends {cs : List Char} (hn : ∀ c ∈ cs, c ≠ stop) (hr : Ends stop r) :
    (cs ++ r).takeWhile (· != stop) = cs ∧ (cs ++ r).dropWhile (· != stop) = r := by
  have hb : ∀ c ∈ cs, (c != stop) = true := fun c hc => bne_iff_ne.mpr (hn c hc)
  rw [List.takeWhile_append_of_pos hb, List.dropWhile_append_of_pos hb]
  cases r with
  | nil => simp
  | cons c r => simp [hr c rfl]

/-- The text after an opening quote is read up to the closing one. -/
theorem closeQuote?_doubleQuotes (cs : List Char) (hr : r.head? ≠ some '"') :
    closeQuote? (doubleQuotes cs ++ '"' :: r) = some (cs, r) := by
  induction cs with
  | nil =>
    cases r with
    | nil => rfl
    | cons c r =>
      have hc : c ≠ '"' := by simpa using hr
      simp [doubleQuotes, closeQuote?, hc]
  | cons c cs ih =>
    by_cases hc : c = '"'
    · subst hc
      show closeQuote? ('"' :: '"' :: (doubleQuotes cs ++ '"' :: r)) = _
      simp only [closeQuote?, ih, Option.map_some]
    · have hd : doubleQuotes (c :: cs) = c :: doubleQuotes cs := by simp [doubleQuotes, hc]
      rw [hd, List.cons_append]
      simp [closeQuote?, hc, ih]

/-- A bare name is read up to the mark. -/
theorem name_of_all_isPlain {cs : List Char} (hp : cs.all isPlain = true)
    (hstop : isPlain stop = false) (hs : stop ≠ '"') (hr : Ends stop r) :
    name stop (cs ++ r) = .ok (cs, r) := by
  have ne_of_plain {c d : Char} (hc : c ∈ cs) (hd : isPlain d = false) : c ≠ d := by
    rintro rfl
    exact Bool.noConfusion (hd.symm.trans (List.all_eq_true.mp hp c hc))
  obtain ⟨take, drop⟩ := span_of_ends (fun c hc => ne_of_plain hc hstop) hr
  have bare : (cs ++ r).head? ≠ some '"' := by
    cases cs with
    | nil => exact fun h => hs (hr _ h).symm
    | cons c cs => simpa using ne_of_plain List.mem_cons_self (by decide)
  unfold name
  split
  · rename_i h
    rw [h] at bare
    exact absurd rfl bare
  · rw [take, drop]

/-- A written name is read back, whatever its characters are. -/
theorem name_writeName (stop : Char) (cs : List Char) (hstop : isPlain stop = false)
    (hs : stop ≠ '"') (hr : Ends stop r) : name stop (writeName cs ++ r) = .ok (cs, r) := by
  unfold writeName
  split
  · rename_i hp
    exact name_of_all_isPlain hp hstop hs hr
  · have hq : closeQuote? (doubleQuotes cs ++ '"' :: r) = some (cs, r) :=
      closeQuote?_doubleQuotes cs fun h => hs (hr _ h).symm
    have hc : '"' :: doubleQuotes cs ++ ['"'] ++ r = '"' :: (doubleQuotes cs ++ '"' :: r) := by simp
    simp only [hc, name, hq]

/-! ## Privileges -/

/-- The letters of privileges, each with a star where it may be granted on. -/
def letters (held : List (Privilege × Bool)) : List Char :=
  held.flatMap fun x => if x.2 then [x.1.letter, '*'] else [x.1.letter]

theorem head?_letters (held : List (Privilege × Bool)) : (letters held).head? ≠ some '*' := by
  cases held with
  | nil => exact fun h => by cases h
  | cons x held =>
    intro h
    have hl : x.1.letter = '*' := by
      unfold letters at h
      rw [List.flatMap_cons] at h
      split at h <;> simpa using h
    exact x.1.letter_ne_mark.1 hl

theorem slash_not_mem_letters (held : List (Privilege × Bool)) : ∀ c ∈ letters held, c ≠ '/' := by
  intro c hc
  obtain ⟨x, _, hc⟩ := List.mem_flatMap.mp hc
  split at hc
  · rcases List.mem_cons.mp hc with rfl | hc
    · exact x.1.letter_ne_mark.2
    · rw [List.mem_singleton.mp hc]
      decide
  · rw [List.mem_singleton.mp hc]
    exact x.1.letter_ne_mark.2

/-- Letters are read back one by one: the star after one cannot be taken for a letter, nor a letter
for a star. -/
theorem holdings_letters (held : List (Privilege × Bool)) : holdings (letters held) = .ok held := by
  induction held with
  | nil => rfl
  | cons x held ih =>
    obtain ⟨p, option⟩ := x
    cases option with
    | true =>
      have hs : letters ((p, true) :: held) = p.letter :: '*' :: letters held := rfl
      simp only [hs, holdings, p.letter_ne_mark.1, if_false, p.ofLetter?_letter, ih, Except.map]
    | false =>
      have hs : letters ((p, false) :: held) = p.letter :: letters held := rfl
      have plain := head?_letters held
      simp only [hs, holdings, p.letter_ne_mark.1, if_false, p.ofLetter?_letter]
      split
      · rename_i h
        rw [h] at plain
        exact absurd rfl plain
      · rw [ih]
        rfl

/-- What a role holds, each privilege with whether it may be granted on. -/
def marked (a : Acl) : List (Privilege × Bool) :=
  a.privileges.toList.map fun p => (p, decide (p ∈ a.grantOptions))

theorem writeHoldings_eq (a : Acl) : writeHoldings a = letters (marked a) := by
  simp [writeHoldings, letters, marked, List.flatMap_map]

/-- What was held is what its letters say. -/
theorem ofHoldings_marked (a : Acl) : ofHoldings a.role (marked a) a.grantor = a := by
  obtain ⟨role, privileges, options, granter, covered⟩ := a
  have hp : PrivilegeSet.ofList
      ((privileges.toList.map fun p => (p, decide (p ∈ options))).map (·.1)) = privileges := by
    refine PrivilegeSet.ext_mem fun p => ?_
    simp
  have ho : PrivilegeSet.ofList (((privileges.toList.map fun p => (p, decide (p ∈ options))).filter
      (·.2)).map (·.1)) = options := by
    refine PrivilegeSet.ext_mem fun p => ?_
    have : (∃ q ∈ privileges, q = p ∧ q ∈ options) ↔ p ∈ options :=
      ⟨fun ⟨_, _, hq, h⟩ => hq ▸ h, fun h => ⟨p, covered p h, rfl, h⟩⟩
    simpa using this
  simp only [ofHoldings, marked, hp, ho]

/-! ## Entries -/

theorem grantor_written (s : String) :
    grantor (if s.isEmpty then [] else '/' :: writeName s.toList) = .ok s.toList := by
  split
  · rename_i h
    rw [String.isEmpty_iff.mp h]
    rfl
  · have hn : name '/' (writeName s.toList) = .ok (s.toList, []) := by
      simpa using name_writeName '/' s.toList (by decide) (by decide) ends_nil
    simp only [grantor, hn, bind, Except.bind]
    rfl

/-- A written entry is read back with its grantor. -/
theorem read_write (a : Acl) : read (write a) = .ok a := by
  let tail : List Char := if a.grantor.isEmpty then [] else '/' :: writeName a.grantor.toList
  have htail : Ends '/' tail := by
    unfold tail
    split
    · exact ends_nil
    · exact ends_mark
  have hname : name '=' (writeChars a) = .ok (a.role.toList, '=' :: (writeHoldings a ++ tail)) := by
    have := name_writeName '=' a.role.toList (by decide) (by decide)
      (ends_mark (r := writeHoldings a ++ tail))
    simpa [writeChars, tail] using this
  obtain ⟨take, drop⟩ := span_of_ends (slash_not_mem_letters (marked a)) htail
  have hheld := holdings_letters (marked a)
  rw [← writeHoldings_eq] at take drop hheld
  simp only [read, write, String.toList_ofList, readChars, hname, take, drop, hheld,
    grantor_written, tail, bind, Except.bind, pure, Except.pure]
  rw [String.ofList_toList, String.ofList_toList, ofHoldings_marked]

theorem mapM_read_write (as : List Acl) : (as.map write).mapM read = .ok as :=
  (mapM_map_ok fun a _ => read_write a).trans (congrArg _ (List.map_id' as))

/-- No two entries have one text. -/
theorem write_injective : Function.Injective write := by
  intro a b h
  have hb : read (write a) = .ok b := h ▸ read_write b
  exact Except.ok.inj ((read_write a).symm.trans hb)

end Entry

/-- The text that says what an entry says, and nothing in another way. -/
def canonical (entry : Value) : Except Error String := (ofEntry entry).map Entry.write

theorem ofEntry_write (a : Acl) : ofEntry (.text (Entry.write a)) = .ok a := by
  simp only [ofEntry, Entry.read_write]

theorem canonical_eq_ok {e : Value} {s : String} (h : canonical e = .ok s) :
    ∃ a, ofEntry e = .ok a ∧ s = Entry.write a := by
  unfold canonical at h
  cases he : ofEntry e with
  | error _ => rw [he] at h; cases h
  | ok a => rw [he] at h; cases h; exact ⟨a, rfl, rfl⟩

/-- Whatever the names, the privileges and the grant options are, an entry is read back from its
text with all that it says. The canonical form of an entry that can be read says the same and is its
own canonical form; entries that say the same, and only they, have one. -/
theorem entries_round_trip :
    (∀ a : Acl, Entry.read (Entry.write a) = .ok a) ∧ Function.Injective Entry.write ∧
    (∀ (e : Value) (s : String), canonical e = .ok s →
      ofEntry (.text s) = ofEntry e ∧ canonical (.text s) = .ok s) ∧
    ∀ (e e' : Value) (a a' : Acl), ofEntry e = .ok a → ofEntry e' = .ok a' →
      (canonical e = canonical e' ↔ a.role = a'.role ∧ a.privileges = a'.privileges ∧
        a.grantOptions = a'.grantOptions ∧ a.grantor = a'.grantor) := by
  refine ⟨Entry.read_write, Entry.write_injective, fun e s h => ?_, fun e e' a a' h h' => ?_⟩
  · obtain ⟨a, ha, rfl⟩ := canonical_eq_ok h
    have same : ofEntry (.text (Entry.write a)) = ofEntry e := (ofEntry_write a).trans ha.symm
    exact ⟨same, (congrArg (Except.map Entry.write) same).trans h⟩
  · constructor
    · intro hc
      have he : Entry.write a = Entry.write a' := by
        simpa only [canonical, h, h', Except.map, Except.ok.injEq] using hc
      obtain rfl := Entry.write_injective he
      exact ⟨rfl, rfl, rfl, rfl⟩
    · intro hf
      have : a = a' := by
        cases a
        cases a'
        obtain ⟨rfl, rfl, rfl, rfl⟩ := hf
        rfl
      simp only [canonical, h, h', this]

theorem Entry.write_of_chars {a : Acl} {role granter : List Char} (hr : a.role.toList = role)
    (hg : a.grantor.toList = granter) (hn : granter ≠ []) :
    write a = String.ofList
      (writeName role ++ '=' :: writeHoldings a ++ '/' :: writeName granter) := by
  have named : a.grantor.isEmpty = false := by
    refine Bool.eq_false_iff.mpr fun he => hn ?_
    rw [← hg, String.isEmpty_iff.mp he]
    rfl
  rw [write, writeChars, hr, hg, named]
  rfl

/-- Names with every mark in them. -/
def hostileEntry : Acl where
  role := "we\"ird=/*"
  privileges := .ofList [.select, .update]
  grantOptions := .ofList [.select]
  grantor := "a/b \"c\""
  covered := by decide

/-- What is read from an entry with quotes that it does not need and one letter twice. -/
def plainEntry : Acl :=
  Entry.ofHoldings "alice" [(.update, false), (.select, true), (.update, false)] "bob"

/-- An entry with every mark in its names, and one that is not in its canonical form. -/
theorem entries_round_trip_hostile :
    Entry.read "\"we\"\"ird=/*\"=r*w/\"a/b \"\"c\"\"\"" = .ok hostileEntry ∧
    canonical (.text "\"alice\"=wr*w/\"bob\"") = .ok "alice=r*w/bob" ∧
    ofEntry (.text "alice=r*w/bob") = ofEntry (.text "\"alice\"=wr*w/\"bob\"") := by
  obtain ⟨reads, -, forms, -⟩ := entries_round_trip
  have htext : Entry.write hostileEntry = "\"we\"\"ird=/*\"=r*w/\"a/b \"\"c\"\"\"" := by
    have hrole : hostileEntry.role.toList = ['w', 'e', '"', 'i', 'r', 'd', '=', '/', '*'] :=
      String.toList_ofList
    have hgrantor : hostileEntry.grantor.toList = ['a', '/', 'b', ' ', '"', 'c', '"'] :=
      String.toList_ofList
    exact Entry.write_of_chars hrole hgrantor (by decide)
  have hread : Entry.read "\"alice\"=wr*w/\"bob\"" = .ok plainEntry := by
    have hchars : "\"alice\"=wr*w/\"bob\"".toList =
        ['"', 'a', 'l', 'i', 'c', 'e', '"', '=', 'w', 'r', '*', 'w', '/', '"', 'b', 'o', 'b',
          '"'] :=
      String.toList_ofList
    rw [Entry.read, hchars]
    rfl
  have hform : canonical (.text "\"alice\"=wr*w/\"bob\"") = .ok "alice=r*w/bob" := by
    have hrole : plainEntry.role.toList = ['a', 'l', 'i', 'c', 'e'] := String.toList_ofList
    have hgrantor : plainEntry.grantor.toList = ['b', 'o', 'b'] := String.toList_ofList
    simp only [canonical, ofEntry, hread, Except.map]
    exact congrArg Except.ok (Entry.write_of_chars hrole hgrantor (by decide))
  refine ⟨?_, hform, (forms _ _ hform).1⟩
  rw [← htext]
  exact reads hostileEntry

end Acl

end DeclaredAccess
