import Mathlib.Data.Finset.Card
import DeclaredAccess.Operation
import DeclaredAccess.Proofs.Membership.Served
import DeclaredAccess.Proofs.Session.Transcript

/-! An update of the members of a role. Those who are declared no more lose the role and those who are
new get it, each by one change and in one transaction. Afterwards the members are those who are
declared, and no fewer changes lead there: each change is about one member. -/

namespace DeclaredAccess

open DeclaredAccess.Task (Goes)
open Sql (Change)

/-! ## How many changes it takes -/

/-- Whom a change of memberships is about. -/
def Sql.Change.member? : Change → Option String
  | .grantMembership _ member | .revokeMembership _ member => some member
  | _ => none

namespace Memberships

theorem mem_after_of_ne {c : Change} {n : String} (h : c.member? ≠ some n) (w : Memberships)
    (role : String) : n ∈ w.after c role ↔ n ∈ w role := by
  cases c with
  | grantMembership roles member =>
    have hn : n ≠ member := fun he => h (congrArg some he.symm)
    by_cases hr : role ∈ roles <;> simp [after, hr, hn]
  | revokeMembership roles member =>
    have hn : n ≠ member := fun he => h (congrArg some he.symm)
    by_cases hr : role ∈ roles <;> simp [after, hr, hn]
  | _ => rfl

/-- Who is not the member of any change stays a member or stays none. -/
theorem mem_afterAll_of_not_mem {cs : List Change} {n : String}
    (h : n ∉ cs.filterMap Change.member?) (w : Memberships) (role : String) :
    n ∈ w.afterAll cs role ↔ n ∈ w role := by
  induction cs generalizing w with
  | nil => rfl
  | cons c cs ih =>
    have hc : c.member? ≠ some n := fun he => h (List.mem_filterMap.mpr ⟨c, by simp, he⟩)
    have hcs : n ∉ cs.filterMap Change.member? := fun hn => by
      obtain ⟨d, hd, he⟩ := List.mem_filterMap.mp hn
      exact h (List.mem_filterMap.mpr ⟨d, List.mem_cons_of_mem c hd, he⟩)
    exact (ih hcs (w.after c)).trans (mem_after_of_ne hc w role)

/-- Each name that comes or goes takes a change of its own. -/
theorem card_le_length (w : Memberships) (cs : List Change) (role : String) :
    (w role \ w.afterAll cs role).card + (w.afterAll cs role \ w role).card ≤ cs.length := by
  have changed : w role \ w.afterAll cs role ∪ w.afterAll cs role \ w role ⊆
      (cs.filterMap Change.member?).toFinset := by
    intro n hn
    rw [List.mem_toFinset]
    refine Classical.byContradiction fun hm => ?_
    simp [mem_afterAll_of_not_mem hm] at hn
  rw [← Finset.card_union_of_disjoint disjoint_sdiff_sdiff]
  calc _ ≤ (cs.filterMap Change.member?).toFinset.card := Finset.card_le_card changed
    _ ≤ (cs.filterMap Change.member?).length := List.toFinset_card_le _
    _ ≤ cs.length := List.length_filterMap_le _ _

end Memberships

namespace Membership

variable {c : Client} {old new : List String}

theorem length_replacing (role : String) (old new : Finset String) :
    (replacing role old new).length = (old \ new).card + (new \ old).card := by
  simp [replacing, revokes, grants]

theorem afterAll_replacing {w : Memberships} {role : String} {old : Finset String}
    (h : w role = old) (new : Finset String) :
    w.afterAll (replacing role old new) = Function.update w role new := by
  rw [replacing, Memberships.afterAll_append, revokes, grants, Memberships.afterAll_revokes,
    Memberships.afterAll_grants]
  have members : old ∩ new ∪ new \ old = new := by
    ext n
    simp only [Finset.mem_union, Finset.mem_inter, Finset.mem_sdiff]
    tauto
  simp [h, members]

/-- Lists of names are the same only if they are equal. -/
theorem same_texts (old new : List String) :
    Value.same (.list (old.map .text)) (.list (new.map .text)) = decide (old = new) := by
  show Value.sameItems _ _ = _
  induction old generalizing new with
  | nil => cases new <;> simp [Value.sameItems]
  | cons n old ih => cases new with
    | nil => simp [Value.sameItems]
    | cons n' new => simp [Value.sameItems, Value.same, ih, Bool.beq_eq_decide_eq]

theorem hasChange_members {r : Resource} {p : Fields} (hp : r.previous = some p)
    (hold : p.value "members" = .list (old.map .text))
    (hnew : r.values.value "members" = .list (new.map .text)) :
    r.hasChange "members" = !decide (old = new) := by
  rw [Resource.hasChange, hp]
  dsimp only
  rw [hold, hnew, same_texts]

/-- The entries of an update: nothing is changed where the lists are equal, and otherwise one
transaction is committed. The last transaction takes over what is kept. -/
def updateEntries (role : String) (old new : List String) : List Request :=
  (if old = new then [] else .mark .begin ::
    (replacing role old.toFinset new.toFinset).map (fun c => .execute (.change c)) ++
      [.mark .commit]) ++ [.mark .begin]

theorem leads_update {directory : Directory} {s : Standing Resource} {k : Register} {m : Membership}
    {p : Fields} (hp : s.work.previous = some p)
    (hold : p.value "members" = .list (old.map .text))
    (hnew : s.work.values.value "members" = .list (new.map .text)) (hm : ofResource s.work = .ok m)
    (hrole : directory.roles m.role) (hmembers : k.kept m.role = old.toFinset) :
    directory.server.Leads (update c) s k fun _ s' k' =>
      k'.log = k.log ++ updateEntries m.role old new ∧
        k'.kept = Function.update k.kept m.role new.toFinset ∧
          s'.work = takenOver m.role new.toFinset s.work := by
  have writable : '\x00' ∉ m.role.toList := (directory.isName_role _ hrole).2
  have changed := hasChange_members hp hold hnew
  refine .bind (.work (.bind (.ofExcept hm (directory.willing.leads_locked ?_))))
  dsimp only
  by_cases he : old = new
  · -- the members are declared as they were, and that is what is kept
    rw [changed, decide_eq_true he]
    refine (leads_refresh writable).mono fun _ s' k' h => ⟨?_, ?_, ?_⟩
    · simp [h.log, updateEntries, he]
    · rw [h.kept, ← he, ← hmembers, Function.update_eq_self]
    · rw [h.there hrole, hmembers, he]
  · rw [changed, decide_eq_false he]
    have former : (s.work.change "members").1 = .list (old.map .text) := by
      rw [Resource.change, hp]
      exact hold
    have present : (s.work.change "members").2 = .list (new.map .text) := hnew
    rw [former, present]
    refine .bind (.ofExcept (memberSet_texts old) (.bind (.ofExcept (memberSet_texts new) ?_)))
    refine .bind (directory.willing.leads_committed fun s₀ h₀ => leads_replaceMembers ?_)
    rw [toFinset_eraseDups, toFinset_eraseDups]
    -- what is kept once the transaction is committed
    let k₁ : Register := ((((k.opened (c.databaseOr "")).mark .begin).makeAll
      (replacing m.role old.toFinset new.toFinset)).mark .commit).closed
    have kept : k₁.kept = Function.update k.kept m.role new.toFinset := by
      simpa [k₁] using afterAll_replacing hmembers new.toFinset
    refine fun s₂ h₂ => (leads_refresh (k := k₁) writable).mono fun _ s' k' h => ⟨?_, ?_, ?_⟩
    · simpa [k₁, updateEntries, he] using h.log
    · rw [h.kept, kept]
    · rw [h.there hrole, kept, Function.update_self, h₂.1, h₀.1]

end Membership

namespace Operation

/-- An update whose role has the old members takes the role from those who are declared no more, gives
it to those who are new, and takes over the new members. Nothing less would lead there. -/
theorem update_converges (directory : Directory) (c : Client) {s s' : Standing Resource}
    {t : List Exchange} {r : Except Failure Value} {k k' : Register} {m : Membership} {p : Fields}
    {old new : List String} (hprevious : s.work.previous = some p)
    (hold : p.value "members" = .list (old.map .text))
    (hnew : s.work.values.value "members" = .list (new.map .text))
    (hm : Membership.ofResource s.work = .ok m) (hrole : directory.roles m.role)
    (hmembers : k.kept m.role = old.toFinset) (hg : Goes (updateMembership.run c) s t r s')
    (hs : directory.server.Serves k t k') :
    r = .ok .null ∧ entries t = Membership.updateEntries m.role old new ∧
      k'.kept = Function.update k.kept m.role new.toFinset ∧
      s'.work = Membership.takenOver m.role new.toFinset s.work ∧
      ∀ cs, k.kept.afterAll cs m.role = new.toFinset →
        (Membership.replacing m.role old.toFinset new.toFinset).length ≤ cs.length := by
  have leads := Membership.leads_update (c := c) hprevious hold hnew hm hrole hmembers
  have quiet : directory.server.Leads (updateMembership.run c) s k fun v s' k' =>
      v = .null ∧ k'.log = k.log ++ Membership.updateEntries m.role old new ∧
        k'.kept = Function.update k.kept m.role new.toFinset ∧
          s'.work = Membership.takenOver m.role new.toFinset s.work :=
    .bind (leads.mono fun _ _ _ h => .pure ⟨rfl, h⟩)
  obtain ⟨_, rfl, rfl, hlog, hkept, hwork⟩ := quiet.of_goes hg hs
  refine ⟨rfl, ?_, hkept, hwork, fun cs hcs => ?_⟩
  · rw [Directory.log_of_serves hs] at hlog
    exact List.append_cancel_left hlog
  · rw [Membership.length_replacing, ← hmembers, ← hcs]
    exact Memberships.card_le_length k.kept cs m.role

/-- Readers of whom one goes and one comes, in lists without an order. -/
def changedReaders : Standing Resource where
  session := {}
  work := {
    id := "g"
    values := [("name", .text "g"), ("role", .text "readers"),
      ("members", .list [.text "carol", .text "alice"])]
    previous := some [("members", .list [.text "bob", .text "alice", .text "bob"])] }

theorem update_converges_readers : ∃ t s' k',
    Goes (updateMembership.run .admin) changedReaders t (.ok .null) s' ∧
    guild.server.Serves guildMembers t k' ∧
    entries t = [.mark .begin, .execute (.change (.revokeMembership ["readers"] "bob")),
      .execute (.change (.grantMembership ["readers"] "carol")), .mark .commit, .mark .begin] ∧
    k'.kept "readers" = {"alice", "carol"} ∧ k'.kept "writers" = {"dora"} := by
  obtain ⟨t, ⟨r, s'⟩, k', hg, hs⟩ :=
    guild.server.exists_serves (updateMembership.run .admin changedReaders) guildMembers
  have former : Fields.value [("members", .list [.text "bob", .text "alice", .text "bob"])]
    "members" = .list (["bob", "alice", "bob"].map .text) := rfl
  have present : changedReaders.work.values.value "members" =
    .list (["carol", "alice"].map .text) := rfl
  obtain ⟨rfl, sent, kept, -⟩ := update_converges guild .admin rfl former present rfl (.inl rfl)
    (by decide) hg hs
  refine ⟨t, s', k', hg, hs, sent.trans ?_, ?_, ?_⟩
  · have gone : ["bob", "alice", "bob"].toFinset \ ["carol", "alice"].toFinset = {"bob"} := by decide
    have come : ["carol", "alice"].toFinset \ ["bob", "alice", "bob"].toFinset = {"carol"} := by decide
    have differ : ["bob", "alice", "bob"] ≠ ["carol", "alice"] := by decide
    rw [Membership.updateEntries, if_neg differ, Membership.replacing, gone, come,
      Membership.revokes, Membership.grants, inOrder_singleton, inOrder_singleton]
    rfl
  · rw [kept]
    decide
  · rw [kept]
    decide

end Operation

end DeclaredAccess
