import Mathlib.Data.Finset.Sort
import Mathlib.Data.String.Basic
import Mathlib.Logic.Function.Basic
import DeclaredAccess.Proofs.Catalog.Site
import DeclaredAccess.Proofs.Checks
import DeclaredAccess.Proofs.Session.Stack
import DeclaredAccess.Proofs.Session.Willing

/-! A server with group roles. It takes every connection and every marker, carries out every change,
and answers in truth which roles there are and who the direct members of a role are. What a
transaction changes counts in it at once, and for good once it is committed. The server keeps a log of
the transactions that begin, of the changes in them and of the commits, and the log is what was sent
of these. -/

namespace DeclaredAccess

open Sql (Change Query writable_cons writable_nil)

/-- The names of a set in code point order. -/
def inOrder (names : Finset String) : List String := names.sort

@[simp] theorem toFinset_inOrder (names : Finset String) : (inOrder names).toFinset = names :=
  names.sort_toFinset _

@[simp] theorem inOrder_singleton (n : String) : inOrder {n} = [n] := Finset.sort_singleton _ n

@[simp] theorem length_inOrder (names : Finset String) : (inOrder names).length = names.card :=
  names.length_sort _

/-- The direct members of each role. -/
abbrev Memberships := (role : String) → Finset String

namespace Memberships

/-- The memberships after a change. -/
def after (w : Memberships) : Change → Memberships
  | .grantMembership roles member => fun r => if r ∈ roles then insert member (w r) else w r
  | .revokeMembership roles member => fun r => if r ∈ roles then (w r).erase member else w r
  | _ => w

/-- The memberships after changes, one after the other. -/
def afterAll (w : Memberships) (cs : List Change) : Memberships := cs.foldl after w

theorem afterAll_append (w : Memberships) (cs ds : List Change) :
    w.afterAll (cs ++ ds) = (w.afterAll cs).afterAll ds :=
  List.foldl_append

theorem after_grant (w : Memberships) (role member : String) :
    w.after (.grantMembership [role] member) =
      Function.update w role (insert member (w role)) := by
  ext r : 1
  by_cases h : r = role
  · simp [after, h]
  · simp [after, h]

theorem after_revoke (w : Memberships) (role member : String) :
    w.after (.revokeMembership [role] member) =
      Function.update w role ((w role).erase member) := by
  ext r : 1
  by_cases h : r = role
  · simp [after, h]
  · simp [after, h]

theorem afterAll_grants (w : Memberships) (role : String) (names : List String) :
    w.afterAll (names.map (.grantMembership [role])) =
      Function.update w role (w role ∪ names.toFinset) := by
  induction names generalizing w with
  | nil => simp [afterAll]
  | cons n names ih =>
    change Memberships.afterAll (w.after (.grantMembership [role] n)) _ = _
    rw [ih, after_grant]
    simp

theorem afterAll_revokes (w : Memberships) (role : String) (names : List String) :
    w.afterAll (names.map (.revokeMembership [role])) =
      Function.update w role (w role \ names.toFinset) := by
  induction names generalizing w with
  | nil => simp [afterAll]
  | cons n names ih =>
    change Memberships.afterAll (w.after (.revokeMembership [role] n)) _ = _
    rw [ih, after_revoke]
    simp [Finset.erase_sdiff_comm, Finset.sdiff_insert]

end Memberships

/-- What stands in a server's log: that a transaction begins or is committed, and a change. -/
def Request.isEntry : Request → Bool
  | .mark .begin | .mark .commit | .execute (.change _) => true
  | _ => false

/-- The entries of a log that exchanges make. -/
def entries (t : List Exchange) : List Request := (t.map (·.request)).filter Request.isEntry

theorem entries_append (t u : List Exchange) : entries (t ++ u) = entries t ++ entries u := by
  simp [entries]

theorem entries_singleton (q : Request) (a : q.Answer) :
    entries [⟨q, a⟩] = if q.isEntry then [q] else [] := by
  cases h : q.isEntry <;> simp [entries, h]

/-- The memberships through connections and transactions, and the log. -/
structure Register extends Stack Memberships where
  log : List Request := []

namespace Register

/-- The register after a change. -/
def make (k : Register) (c : Change) : Register where
  toStack := k.write (k.seen.after c)
  log := k.log ++ [.execute (.change c)]

def makeAll (k : Register) (cs : List Change) : Register := cs.foldl make k

def opened (k : Register) (database : String) : Register :=
  { k with toStack := k.toStack.opened database }

def closed (k : Register) : Register := { k with toStack := k.toStack.closed }

def mark (k : Register) (m : Marker) : Register where
  toStack := k.toStack.mark m
  log := if (Request.mark m).isEntry then k.log ++ [.mark m] else k.log

@[simp] theorem toStack_opened (k : Register) (database : String) :
    (k.opened database).toStack = k.toStack.opened database := rfl

@[simp] theorem toStack_closed (k : Register) : k.closed.toStack = k.toStack.closed := rfl

@[simp] theorem toStack_mark (k : Register) (m : Marker) :
    (k.mark m).toStack = k.toStack.mark m := rfl

@[simp] theorem log_opened (k : Register) (database : String) :
    (k.opened database).log = k.log := rfl

@[simp] theorem log_closed (k : Register) : k.closed.log = k.log := rfl

@[simp] theorem log_begin (k : Register) : (k.mark .begin).log = k.log ++ [.mark .begin] := rfl

@[simp] theorem log_commit (k : Register) : (k.mark .commit).log = k.log ++ [.mark .commit] := rfl

theorem makeAll_cons (k : Register) (c : Change) (cs : List Change) :
    k.makeAll (c :: cs) = (k.make c).makeAll cs := rfl

@[simp] theorem makeAll_seen (k : Register) (cs : List Change) :
    (k.makeAll cs).seen = k.seen.afterAll cs := by
  induction cs generalizing k with
  | nil => rfl
  | cons c cs ih => exact ih (k.make c)

@[simp] theorem makeAll_log (k : Register) (cs : List Change) :
    (k.makeAll cs).log = k.log ++ cs.map fun c => .execute (.change c) := by
  induction cs generalizing k with
  | nil => simp [makeAll]
  | cons c cs ih =>
    rw [makeAll_cons, ih]
    simp [make]

theorem makeAll_append (k : Register) (cs ds : List Change) :
    k.makeAll (cs ++ ds) = (k.makeAll cs).makeAll ds :=
  List.foldl_append

end Register

/-- A server by its roles and the version that it reports. -/
structure Directory where
  roles : String → Prop
  version : Option (List Int)
  isName_role : ∀ r, roles r → IsName r

namespace Directory

variable (directory : Directory)

/-- The answer to a question about roles is true, and members are told in order. -/
def Tells (k : Register) (q : Query) (rows : List Row) : Prop := match q with
  | .roleExists r => Site.Says rows (directory.roles r)
  | .roleMembers r => rows = (inOrder (k.seen r)).map fun n => [.text n]
  | _ => True

theorem exists_tells (k : Register) (q : Query) : ∃ rows, directory.Tells k q rows := by
  cases q with
  | roleExists r => exact Site.exists_truth _
  | roleMembers r => exact ⟨_, rfl⟩
  | _ => exact ⟨[], trivial⟩

/-- The server carries out every change. -/
def willing : Willing Register where
  reported := directory.version
  opened := Register.opened
  closed := Register.closed
  mark := Register.mark
  tells := directory.Tells
  makes k c a k' := (∃ rows, a = .ok rows) ∧ k' = k.make c
  exists_tells := directory.exists_tells
  exists_makes _ _ := ⟨_, _, ⟨[], rfl⟩, rfl⟩
  closed_rollback _ := rfl

def server : Server Register := directory.willing.server

variable {directory}

/-- An exchange adds to the log what it is an entry of. -/
theorem log_of_answers {k k' : Register} {y : Exchange} (h : directory.server.answers k y k') :
    k'.log = k.log ++ entries [y] := by
  obtain ⟨q, a⟩ := y
  rw [entries_singleton]
  cases q with
  | connect name =>
    obtain ⟨_, rfl⟩ : _ ∧ k' = k.opened name := h
    exact (List.append_nil _).symm
  | mark m =>
    obtain ⟨_, rfl⟩ : _ ∧ k' = k.mark m := h
    cases m <;> simp [Register.mark, Request.isEntry]
  | execute st => cases st with
    | query q =>
      obtain ⟨rfl, _⟩ : k' = k ∧ _ := h
      exact (List.append_nil _).symm
    | change c =>
      obtain ⟨_, rfl⟩ : _ ∧ k' = k.make c := h
      rfl
    | raw text =>
      obtain rfl : k' = k := h
      exact (List.append_nil _).symm
  | disconnect =>
    obtain rfl : k' = k.closed := h
    exact (List.append_nil _).symm
  | openEngine | disposeEngine | acquire | release =>
    obtain rfl : k' = k := h
    exact (List.append_nil _).symm

/-- The log is what was sent. -/
theorem log_of_serves {k k' : Register} {t : List Exchange} (h : directory.server.Serves k t k') :
    k'.log = k.log ++ entries t := by
  induction h with
  | nil => simp [entries]
  | @cons k k₁ k' y t hy _ ih =>
    rw [ih, log_of_answers hy, List.append_assoc, ← entries_append]
    rfl

variable {σ : Type} {s : Standing σ} {k : Register}

theorem leads_change {c : Change} (hc : c.isVersioned = false) {intent : String}
    {Q : Unit → Standing σ → Register → Prop} (h : Q () s (k.make c)) :
    directory.server.Leads (Catalog.change c intent) s k Q :=
  directory.willing.leads_change hc fun _ _ ⟨ha, hk⟩ => ⟨ha, hk ▸ h⟩

/-- Changes are made in the order in which they are sent. -/
theorem leads_changes {f : String → Change} (hf : ∀ n, (f n).isVersioned = false)
    {intent : String → String} {names : List String} {Q : Unit → Standing σ → Register → Prop}
    (h : Q () s (k.makeAll (names.map f))) : directory.server.Leads
      (names.forM fun n => Catalog.change (f n) (intent n) : Task σ Unit) s k Q := by
  induction names generalizing k with
  | nil => exact .pure h
  | cons n names ih => exact .bind (leads_change (hf n) (ih h))

theorem leads_roleExists {role : String} (hw : '\x00' ∉ role.toList)
    {Q : Value → Standing σ → Register → Prop}
    (h : ∀ v : Value, (v.truthy = true ↔ directory.roles role) → Q v s k) :
    directory.server.Leads (Catalog.roleExists role) s k Q :=
  directory.willing.leads_askOne (q := .roleExists role) rfl
    (writable_cons.mpr ⟨hw, writable_nil⟩) fun _ ⟨v, hv, ht⟩ => ⟨v, hv, h v ht⟩

theorem leads_roleMembers {role : String} (hw : '\x00' ∉ role.toList)
    {Q : List Value → Standing σ → Register → Prop} (h : Q ((inOrder (k.seen role)).map .text) s k) :
    directory.server.Leads (Catalog.roleMembers role) s k Q := by
  refine .bind (directory.willing.leads_query (q := .roleMembers role) rfl
    (writable_cons.mpr ⟨hw, writable_nil⟩) fun rows hr => ?_)
  obtain rfl : rows = _ := hr
  have cells : Catalog.column ((inOrder (k.seen role)).map fun n => [.text n]) =
      .ok ((inOrder (k.seen role)).map .text) := mapM_map_ok fun _ _ => rfl
  exact .ofExcept cells h

end Directory

/-- A server with two roles that have members. -/
def guild : Directory where
  roles r := r = "readers" ∨ r = "writers"
  version := some [16, 2]
  isName_role := by
    rintro r (rfl | rfl) <;> exact ⟨by decide, by decide⟩

def guildMembers : Register where
  kept r := if r = "readers" then {"alice", "bob"} else {"dora"}

end DeclaredAccess
