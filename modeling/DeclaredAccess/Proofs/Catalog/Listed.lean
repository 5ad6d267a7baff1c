import DeclaredAccess.Proofs.Catalog.Elevated
import DeclaredAccess.Proofs.Grant.Applied

/-! What is made of the rows that tell what a role holds. Rows may come in any order and say a thing
more than once. Where the same is held on every place of the target, each name that is found holds
just that, and the names that are found are those of the places. -/

namespace DeclaredAccess

open Acl.Entry (ofHoldings)

/-- What a row tells: a name, a privilege there, and whether it may be granted on. -/
structure Told where
  name : String
  privilege : Option Privilege
  grantable : Value

namespace Told

def row (c : Told) : Row :=
  [.text c.name, (c.privilege.map fun p => Value.text p.keyword).getD .null, c.grantable]

/-- What is read from the row. -/
def held (c : Told) : Value × Option (Privilege × Bool) :=
  (.text c.name, c.privilege.map fun p => (p, c.grantable.truthy))

theorem ofRow_row (c : Told) : Holdings.ofRow c.row = .ok c.held := by
  obtain ⟨name, privilege, grantable⟩ := c
  cases privilege with
  | none => rfl
  | some p =>
    simp only [Holdings.ofRow, row, held, Option.map_some, Option.getD_some, p.named_keyword]
    rfl

/-- A row that tells of a privilege tells of no other. -/
theorem eq_of_row {c : Told} {name : String} {p : Privilege} {grantable : Value}
    (h : c.row = [.text name, .text p.keyword, grantable]) : c = ⟨name, some p, grantable⟩ := by
  obtain ⟨name', privilege, grantable'⟩ := c
  unfold row at h
  simp only [List.cons.injEq, Value.text.injEq, and_true] at h
  obtain ⟨rfl, hp, rfl⟩ := h
  cases privilege with
  | none => cases hp
  | some q =>
    obtain rfl := Privilege.keyword_injective (Value.text.inj hp)
    rfl

/-- What is read about one name. -/
def about (cs : List Told) (name : String) : List (Privilege × Bool) :=
  ((cs.map held).filter fun e => e.1 == Value.text name).filterMap (·.2)

theorem mem_about {cs : List Told} {name : String} {x : Privilege × Bool} : x ∈ about cs name ↔
    ∃ c ∈ cs, c.name = name ∧ c.privilege = some x.1 ∧ c.grantable.truthy = x.2 := by
  obtain ⟨p, b⟩ := x
  have hname (c : Told) : (c.held.1 == Value.text name) = true ↔ c.name = name := by
    show (Value.same (.text c.name) (.text name)) = true ↔ _
    simp [Value.same]
  unfold about
  simp only [List.mem_filterMap, List.mem_filter, List.mem_map]
  constructor
  · intro h
    obtain ⟨_, ⟨⟨c, hc, rfl⟩, hn⟩, hx⟩ := h
    obtain ⟨q, hq, he⟩ := Option.map_eq_some_iff.mp hx
    obtain ⟨rfl, rfl⟩ := Prod.mk.inj he
    exact ⟨c, hc, (hname c).mp hn, hq, rfl⟩
  · intro h
    obtain ⟨c, hc, hn, hp, rfl⟩ := h
    refine ⟨c.held, ⟨⟨c, hc, rfl⟩, (hname c).mpr hn⟩, ?_⟩
    show c.privilege.map _ = _
    rw [show c.privilege = some p from hp]
    rfl

theorem ofRows_map_row (role : String) (cs : List Told) :
    Holdings.ofRows role (cs.map row) = .ok ((cs.map name).eraseDups.map fun name =>
      (.text name, ofHoldings role (about cs name) "")) := by
  have hread : (cs.map row).mapM Holdings.ofRow = .ok (cs.map held) :=
    mapM_map_ok fun c _ => c.ofRow_row
  have hnames : (cs.map held).map (·.1) = (cs.map name).map Value.text := by
    rw [List.map_map, List.map_map]
    rfl
  unfold Holdings.ofRows
  rw [hread]
  refine congrArg Except.ok ?_
  rw [hnames, Value.eraseDups_texts, List.map_map]
  rfl

end Told

namespace Site

variable {σ : Type} {site : Site} {connection : String} {held : Place → Holding} {t : Target}
  {rows : List Row}

/-- The names of the places that a target names. -/
def Named (site : Site) (connection : String) (t : Target) (name : String) : Prop :=
  ∃ place, site.covers connection place t = true ∧ site.Exists place ∧ place.name = name

/-- Rows that tell of one holding everywhere are read as just that. -/
theorem Lists.ofRows (h : site.Lists connection held t rows) {a : Holding}
    (ha : ∀ place, site.covers connection place t = true → site.Exists place → held place = a)
    (hsub : a.grantOptions ⊆ a.privileges) (role : String) :
    ∃ (names : List String) (found : Holdings), Holdings.ofRows role rows = .ok found ∧
      found.names = names.map .text ∧ (∀ name, name ∈ names ↔ site.Named connection t name) ∧
        ∀ e ∈ found, e.2.privileges = a.privileges ∧ e.2.grantOptions = a.grantOptions := by
  obtain ⟨cs, rfl, hcs⟩ : ∃ cs : List Told, rows = cs.map Told.row ∧ ∀ c ∈ cs,
      site.Named connection t c.name ∧ ∀ p, c.privilege = some p →
        p ∈ a.privileges ∧ (c.grantable.truthy = true → p ∈ a.grantOptions) := by
    refine exists_map_of_forall fun row hrow => ?_
    obtain ⟨place, hc, he, v, grantable, rfl, hv⟩ := h.true_of_row row hrow
    rw [ha place hc he] at hv
    rcases hv with rfl | ⟨p, hp, rfl, ho⟩
    · exact ⟨⟨place.name, none, grantable⟩, ⟨⟨place, hc, he, rfl⟩, fun p hp => by cases hp⟩, rfl⟩
    · refine ⟨⟨place.name, some p, grantable⟩, ⟨⟨place, hc, he, rfl⟩, fun q hq => ?_⟩, rfl⟩
      cases hq
      exact ⟨hp, ho⟩
  have found (name : String) (hn : site.Named connection t name) (p : Privilege)
      (hp : p ∈ a.privileges) : ∃ c ∈ cs, c.name = name ∧ c.privilege = some p ∧
        (p ∈ a.grantOptions → c.grantable.truthy = true) := by
    obtain ⟨place, hc, he, rfl⟩ := hn
    have hrow := h.exists_privilege place hc he p
    rw [ha place hc he] at hrow
    obtain ⟨grantable, hm, ho⟩ := hrow hp
    obtain ⟨c, hmem, hrow⟩ := List.mem_map.mp hm
    obtain rfl := Told.eq_of_row hrow
    exact ⟨_, hmem, rfl, rfl, ho⟩
  refine ⟨(cs.map Told.name).eraseDups, _, Told.ofRows_map_row role cs, ?_, ?_, ?_⟩
  · simp [Holdings.names]
  · intro name
    rw [List.mem_eraseDups, List.mem_map]
    constructor
    · intro hm
      obtain ⟨c, hc, rfl⟩ := hm
      exact (hcs c hc).1
    · intro hn
      obtain ⟨place, hc, he, rfl⟩ := hn
      obtain ⟨v, grantable, hm⟩ := h.exists_row place hc he
      obtain ⟨c, hmem, hrow⟩ := List.mem_map.mp hm
      exact ⟨c, hmem, Value.text.inj (List.cons.inj hrow).1⟩
  · intro e he
    obtain ⟨name, hname, rfl⟩ := List.mem_map.mp he
    have hn : site.Named connection t name := by
      obtain ⟨c, hc, rfl⟩ := List.mem_map.mp (List.mem_eraseDups.mp hname)
      exact (hcs c hc).1
    constructor
    · refine PrivilegeSet.ext_mem fun p => ?_
      show p ∈ PrivilegeSet.ofList _ ↔ _
      simp only [PrivilegeSet.mem_ofList, List.mem_map]
      constructor
      · intro hp
        obtain ⟨x, hx, rfl⟩ := hp
        obtain ⟨c, hc, _, hp, _⟩ := Told.mem_about.mp hx
        exact ((hcs c hc).2 _ hp).1
      · intro hp
        obtain ⟨c, hc, hcn, hcp, _⟩ := found name hn p hp
        exact ⟨(p, c.grantable.truthy), Told.mem_about.mpr ⟨c, hc, hcn, hcp, rfl⟩, rfl⟩
    · refine PrivilegeSet.ext_mem fun p => ?_
      show p ∈ PrivilegeSet.ofList _ ↔ _
      simp only [PrivilegeSet.mem_ofList, List.mem_map, List.mem_filter]
      constructor
      · intro hp
        obtain ⟨x, ⟨hx, ht⟩, rfl⟩ := hp
        obtain ⟨c, hc, _, hp, hg⟩ := Told.mem_about.mp hx
        exact ((hcs c hc).2 _ hp).2 (hg.trans ht)
      · intro hp
        obtain ⟨c, hc, hcn, hcp, ho⟩ := found name hn p (hsub p hp)
        exact ⟨(p, true), ⟨Told.mem_about.mpr ⟨c, hc, hcn, hcp, ho hp⟩, rfl⟩, rfl⟩

end Site

end DeclaredAccess
