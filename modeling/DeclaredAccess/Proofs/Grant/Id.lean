import DeclaredAccess.Grant.Id

/-! Identifiers of grants. What a declaration may contain is checked so that its parts can stand in
an identifier, and an identifier that was made from a grant reads back as its parts. Only a list
with nothing but an empty name in it is lost: it reads back as the empty list. -/

namespace DeclaredAccess

/-- The characters that part the fields of an identifier and the items of a field. -/
def GrantId.marks : List Char := [':', ',']

namespace Grant

/-- No part of the grant holds a mark. -/
structure Unmarked (g : Grant) : Prop where
  database_ne : g.database ≠ ""
  database : '.' ∉ g.database.toList
  role : ∀ m ∈ GrantId.marks, ¬m ∈ g.role.toList
  schema : ∀ m ∈ GrantId.marks, ¬m ∈ g.schema.toList
  objects : ∀ o ∈ g.objects, ∀ m ∈ GrantId.marks, ¬m ∈ o.toList

/-- The objects that the grant's identifier tells. -/
def recorded (g : Grant) : List String :=
  if sortNames g.objects = [""] then [] else sortNames g.objects

end Grant

theorem mem_sortNames {n : String} {names : List String} : n ∈ sortNames names ↔ n ∈ names :=
  (List.mergeSort_perm _ _).mem_iff

namespace GrantId

theorem commaSplit_commaJoin {items : List String} (h : ∀ i ∈ items, ',' ∉ i.toList) :
    commaSplit (commaJoin items) = if items = [""] then [] else items := by
  have split (hn : items ≠ []) :
      (Text.split ',' (commaJoin items)).map String.ofList = items := by
    have hs : Text.split ',' (commaJoin items) = items.map String.toList := by
      refine Text.split_join (by simpa using hn) fun w hw => ?_
      obtain ⟨i, hi, rfl⟩ := List.mem_map.mp hw
      exact h i hi
    rw [hs, List.map_map]
    simp
  match items with
  | [] => rfl
  | [i] =>
    by_cases hi : i = ""
    · subst hi
      rfl
    · have he : (commaJoin [i]).isEmpty = false := by
        show i.toList.isEmpty = false
        simpa using hi
      simp only [commaSplit, he, Bool.false_eq_true, if_false]
      rw [split (by simp), if_neg (by simpa using hi)]
  | i :: j :: r =>
    have he : (commaJoin (i :: j :: r)).isEmpty = false := by
      show (i.toList ++ ',' :: _).isEmpty = false
      simp
    simp only [commaSplit, he, Bool.false_eq_true, if_false]
    rw [split (by simp), if_neg (by simp)]

theorem isStarred_append (name : String) : isStarred (name ++ "*") = true := by
  simp [isStarred]

theorem unstarred_append (name : String) : unstarred (name ++ "*") = name := by
  simp [unstarred, isStarred_append]

end GrantId

namespace Privilege

theorem mark_not_mem_keyword (p : Privilege) : ∀ m ∈ GrantId.marks, ¬m ∈ p.keyword.toList := by
  have hc : ':' ∉ p.keyword.toList := by cases p <;> decide
  have hi : ',' ∉ p.keyword.toList := by cases p <;> decide
  exact List.forall_mem_cons.mpr ⟨hc, List.forall_mem_singleton.mpr hi⟩

theorem isStarred_keyword (p : Privilege) : GrantId.isStarred p.keyword = false := by
  cases p <;> decide

end Privilege

namespace Grant

theorem mem_idPrivileges {g : Grant} {n : String} (h : n ∈ g.idPrivileges) :
    ∃ p : Privilege, n = if g.withGrantOption then p.keyword ++ "*" else p.keyword := by
  obtain ⟨k, hk, rfl⟩ := List.mem_map.mp h
  obtain ⟨p, _, rfl⟩ := List.mem_map.mp (mem_sortNames.mp hk)
  exact ⟨p, rfl⟩

theorem mark_not_mem_idPrivileges {g : Grant} {n : String} (h : n ∈ g.idPrivileges) :
    ∀ m ∈ GrantId.marks, ¬m ∈ n.toList := by
  obtain ⟨p, rfl⟩ := mem_idPrivileges h
  intro m hm hn
  split at hn
  · rw [String.toList_append, List.mem_append] at hn
    rcases hn with hn | hn
    · exact p.mark_not_mem_keyword m hm hn
    · obtain rfl : m = '*' := List.mem_singleton.mp hn
      exact absurd hm (by decide)
  · exact p.mark_not_mem_keyword m hm hn

theorem unstarred_idPrivileges (g : Grant) :
    g.idPrivileges.map GrantId.unstarred = sortNames g.privileges.keywords := by
  unfold idPrivileges
  rw [List.map_map]
  refine (List.map_congr_left fun n hn => ?_).trans (List.map_id _)
  obtain ⟨p, _, rfl⟩ := List.mem_map.mp (mem_sortNames.mp hn)
  show GrantId.unstarred (if g.withGrantOption then p.keyword ++ "*" else p.keyword) = p.keyword
  split
  · exact GrantId.unstarred_append _
  · simp [GrantId.unstarred, p.isStarred_keyword]

theorem isStarred_idPrivileges (g : Grant) :
    g.idPrivileges.any GrantId.isStarred = (g.withGrantOption && !g.idPrivileges.isEmpty) := by
  cases ho : g.withGrantOption with
  | true =>
    have hs : ∀ n ∈ g.idPrivileges, GrantId.isStarred n = true := by
      intro n hn
      obtain ⟨p, rfl⟩ := mem_idPrivileges hn
      rw [ho]
      exact GrantId.isStarred_append _
    cases hi : g.idPrivileges with
    | nil => rfl
    | cons n ns => simp [hs n (by simp [hi])]
  | false =>
    rw [Bool.false_and, List.any_eq_false]
    intro n hn
    obtain ⟨p, rfl⟩ := mem_idPrivileges hn
    rw [ho]
    exact (Bool.not_eq_true _).mpr p.isStarred_keyword

theorem commaSplit_objects {g : Grant} (h : g.Unmarked) :
    GrantId.commaSplit (GrantId.commaJoin (sortNames g.objects)) = g.recorded := by
  refine GrantId.commaSplit_commaJoin fun o ho => ?_
  exact h.objects o (mem_sortNames.mp ho) ',' (by decide)

theorem commaSplit_idPrivileges (g : Grant) :
    GrantId.commaSplit (GrantId.commaJoin g.idPrivileges) = g.idPrivileges := by
  rw [GrantId.commaSplit_commaJoin fun n hn => mark_not_mem_idPrivileges hn ',' (by decide)]
  split
  · rename_i he
    have hn : "" ∈ g.idPrivileges := by simp [he]
    obtain ⟨p, hp⟩ := mem_idPrivileges hn
    have hk : p.keyword ≠ "" := by cases p <;> decide
    split at hp
    · exact absurd (congrArg String.toList hp) (by simp)
    · exact absurd hp.symm hk
  · rfl

theorem colon_not_mem_commaJoin {items : List String}
    (h : ∀ i ∈ items, ∀ m ∈ GrantId.marks, ¬m ∈ i.toList) :
    ':' ∉ GrantId.commaJoin items := by
  refine Text.not_mem_join (by decide) fun w hw => ?_
  obtain ⟨i, hi, rfl⟩ := List.mem_map.mp hw
  exact h i hi ':' (by decide)

theorem id_ne_empty (g : Grant) : g.id ≠ "" := by
  intro h
  have hc : g.idChars = [] := by
    rw [← String.toList_ofList (l := g.idChars)]
    exact congrArg String.toList h
  unfold idChars Text.join at hc
  exact List.append_ne_nil_of_right_ne_nil _ (List.cons_ne_nil _ _) hc

/-- The identifier of a grant tells its parts. -/
theorem read_id {g : Grant} (h : g.Unmarked) : GrantId.read g.id = .ok
    { database := g.database, role := g.role, objectType := g.kind.name, schema := g.schema
      objects := g.recorded, privileges := sortNames g.privileges.keywords
      withGrantOption := g.withGrantOption && !g.idPrivileges.isEmpty } := by
  let parts := [g.role.toList, g.kind.name.toList, g.schema.toList,
    GrantId.commaJoin (sortNames g.objects), GrantId.commaJoin g.idPrivileges]
  have hi : g.idChars = g.database.toList ++ '.' :: Text.join ':' parts := by
    simp [idChars, parts, Text.join]
  have hc : Text.cut '.' g.idChars = (g.database.toList, Text.join ':' parts) := by
    rw [hi]
    exact Text.cut_append_mark h.database _
  have hs : Text.split ':' (Text.join ':' parts) = parts := by
    refine Text.split_join (by simp [parts]) fun w hw => ?_
    have hk : ':' ∉ g.kind.name.toList := by cases g.kind <;> decide
    rcases (by simpa [parts] using hw : w = g.role.toList ∨ w = g.kind.name.toList ∨
      w = g.schema.toList ∨ w = _ ∨ w = _) with rfl | rfl | rfl | rfl | rfl
    · exact h.role ':' (by decide)
    · exact hk
    · exact h.schema ':' (by decide)
    · exact colon_not_mem_commaJoin fun o ho => h.objects o (mem_sortNames.mp ho)
    · exact colon_not_mem_commaJoin fun n hn => mark_not_mem_idPrivileges hn
  have hd : g.database.toList.isEmpty = false := by simpa using h.database_ne
  simp only [GrantId.read, id, String.toList_ofList, GrantId.readChars?, hc, hd, hs,
    Bool.false_eq_true, if_false, parts, commaSplit_objects h, commaSplit_idPrivileges,
    unstarred_idPrivileges, isStarred_idPrivileges, String.ofList_toList]

end Grant

end DeclaredAccess
