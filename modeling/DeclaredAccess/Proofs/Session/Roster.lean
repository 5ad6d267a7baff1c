import DeclaredAccess.Proofs.Session.Served
import DeclaredAccess.Proofs.Session.Throughout
import Mathlib.Order.BooleanAlgebra.Set

/-! A server by the memberships that it keeps. It says truly whether one is held directly, and
nothing that can be relied on of whether it is held through others. What it refuses leaves the
memberships as they are, and a savepoint brings back those that it was set at. -/

namespace DeclaredAccess

variable {σ α β : Type} {s s' : Standing σ} {t : List Exchange}

/-- The direct memberships, each as the group and its member, and those that each open savepoint
would bring back. -/
structure Roster where
  members : Set (String × String)
  saved : List (Set (String × String)) := []

namespace Roster

open Server (serves_cons serves_nil)

/-- The memberships of one member in several groups. -/
def inAll (groups : List String) (member : String) : Set (String × String) :=
  {p | p.1 ∈ groups ∧ p.2 = member}

def save (k : Roster) : Roster := { k with saved := k.members :: k.saved }

def release (k : Roster) : Roster := { k with saved := k.saved.tail }

def restore (k : Roster) : Roster := ⟨k.saved.headD k.members, k.saved.tail⟩

/-- Who is a member of what once a change was made. -/
def after (k : Roster) : Sql.Change → Roster
  | .grantMembership groups member => { k with members := k.members ∪ inAll groups member }
  | .revokeMembership groups member => { k with members := k.members \ inAll groups member }
  | _ => k

@[simp] theorem release_save (k : Roster) : k.save.release = k := rfl

@[simp] theorem restore_save (k : Roster) : k.save.restore = k := rfl

theorem inAll_singleton (group member : String) : inAll [group] member = {(group, member)} := by
  ext ⟨g, m⟩
  simp [inAll]

/-- A membership that nobody had can be taken back without a trace. -/
theorem after_grant_revoke {k : Roster} {group member : String}
    (h : (group, member) ∉ k.members) :
    (k.after (.grantMembership [group] member)).after (.revokeMembership [group] member) = k := by
  simp only [after, inAll_singleton, Set.union_singleton, Set.insert_sdiff_self_of_notMem h]

/-- The answer to a question about a direct membership is true. -/
def Tells (k : Roster) (q : Sql.Query) (rows : List Row) : Prop := match q with
  | .revocableMembership (.text member) (.text group) =>
    ∀ v, Catalog.firstCell rows = .ok v → (v.truthy = true ↔ (group, member) ∈ k.members)
  | _ => True

/-- `Answers k y k'`: the server can take part in the exchange, and the memberships are then `k'`
where they were `k`. A statement of the caller's own, or the begin or end of a transaction, may do
anything to them. -/
def Answers (k : Roster) (y : Exchange) (k' : Roster) : Prop := match y with
  | ⟨.execute (.raw _), _⟩ => True
  | ⟨.execute _, .error _⟩ => k' = k
  | ⟨.execute (.query q), .ok rows⟩ => k' = k ∧ k.Tells q rows
  | ⟨.execute (.change c), .ok _⟩ => k' = k.after c
  | ⟨.mark .savepoint, a⟩ => a = .ok () ∧ k' = k.save
  | ⟨.mark .release, a⟩ => a = .ok () ∧ k' = k.release
  | ⟨.mark .rollbackTo, a⟩ => a = .ok () ∧ k' = k.restore
  | ⟨.mark _, _⟩ => True
  | _ => k' = k

theorem exists_answer (k : Roster) (q : Request) : ∃ a k', Answers k ⟨q, a⟩ k' := by
  cases q with
  | execute st =>
    cases st with
    | query q => exact ⟨.error {}, k, rfl⟩
    | change c => exact ⟨.error {}, k, rfl⟩
    | raw text => exact ⟨.error {}, k, trivial⟩
  | mark m =>
    cases m with
    | savepoint => exact ⟨.ok (), k.save, rfl, rfl⟩
    | release => exact ⟨.ok (), k.release, rfl, rfl⟩
    | rollbackTo => exact ⟨.ok (), k.restore, rfl, rfl⟩
    | begin => exact ⟨.ok (), k, trivial⟩
    | commit => exact ⟨.ok (), k, trivial⟩
    | rollback => exact ⟨.ok (), k, trivial⟩
  | connect database => exact ⟨.error {}, k, rfl⟩
  | openEngine database options => exact ⟨(), k, rfl⟩
  | disposeEngine database => exact ⟨(), k, rfl⟩
  | disconnect => exact ⟨(), k, rfl⟩
  | acquire mode => exact ⟨(), k, rfl⟩
  | release mode => exact ⟨(), k, rfl⟩

def server : Server Roster where
  answers := Answers
  exists_answer := exists_answer

/-- `Serves k t k'`: the server can take part in all exchanges, which lead from `k` to `k'`. -/
abbrev Serves (k : Roster) (t : List Exchange) (k' : Roster) : Prop := server.Serves k t k'

variable {k k' : Roster}

/-- Asking changes no membership. -/
theorem Answers.eq_of_query {q : Sql.Query} {a : Except DriverError (List Row)}
    (h : Answers k ⟨.execute (.query q), a⟩ k') : k' = k := by
  cases a with
  | ok rows => exact h.1
  | error e => exact h

theorem eq_of_questions (h : Serves k t k') (ht : ∀ y ∈ t, y.isQuestion = true) : k' = k :=
  Server.frame_of_serves (f := id) h fun y hy _ _ ha => by
    obtain ⟨q, a, rfl⟩ := Exchange.exists_query_of_isQuestion (ht y hy)
    exact Answers.eq_of_query ha

end Roster

namespace Task

open Roster (Serves)
open Server (serves_append serves_cons serves_nil)

/-- However the block goes, the memberships are afterwards as they were before. -/
def LeavesRoster (block : Task σ α) : Prop :=
  ∀ s t r s' k k', Goes block s t r s' → Serves k t k' → k' = k

/-- A block leaves the memberships alone if its changes do and it is no member of other roles. -/
theorem Block.leavesRoster {a : Allowance} (hs : ∀ c, a.sends c → ∀ k : Roster, k.after c = k)
    (he : ¬a.elevates) (hi : ¬a.inquires) {x : Task σ α} (h : Block a x) : LeavesRoster x := by
  have leaves : Throughout (fun y => ∀ k k' : Roster, k.Answers y k' → k' = k) x := by
    refine .unelevated he hi (fun _ _ _ _ => Roster.Answers.eq_of_query) (fun c hc b k k' hy => ?_) h
    cases b with
    | ok rows => exact Eq.trans hy (hs c hc k)
    | error e => exact hy
  intro s t r s' k k' hg hk
  exact Server.frame_of_serves (f := id) hk fun y hy k k' ha => leaves _ _ _ _ hg y hy k k' ha

/-! ## Whether a membership is needed -/

/-- A membership is needed only where nobody has it yet. -/
theorem elevationFor_fresh {group member : String} {m : Option (String × String)} {k k' : Roster}
    (h : Goes (elevationFor (.text group) (.text member)) s t (.ok m) s') (hk : Serves k t k') :
    m = none ∨ m = some (group, member) ∧ (group, member) ∉ k.members := by
  unfold elevationFor at h
  split at h
  · exact .inl (Except.ok.inj (goes_pure.mp h).2.1)
  · obtain ⟨t₁, t₂, has, s₁, rfl, h₁, h₂⟩ := goes_bind_ok.mp h
    obtain ⟨rfl, rows, rfl, _⟩ := goes_askOne_ok h₁
    split at h₂
    · exact .inl (Except.ok.inj (goes_pure.mp h₂).2.1)
    · obtain ⟨t₃, t₄, direct, s₂, rfl, h₃, h₄⟩ := goes_bind_ok.mp h₂
      obtain ⟨rfl, rows', rfl, hc⟩ := goes_askOne_ok h₃
      split at h₄
      · exact .inl (Except.ok.inj (goes_pure.mp h₄).2.1)
      · rename_i hd
        refine .inr ⟨Except.ok.inj (goes_pure.mp h₄).2.1, fun hm => hd ?_⟩
        obtain ⟨k₁, hy, hk⟩ := serves_cons.mp hk
        obtain ⟨k₂, hz, -⟩ := serves_cons.mp hk
        obtain rfl := hy.1
        exact (hz.2 _ hc).mpr hm

end Task

end DeclaredAccess
