import DeclaredAccess.Proofs.Grant.Coverage
import DeclaredAccess.Proofs.Session.Found

/-! What an operation on a grant makes of the identifier and of what is held. An operation that
commits nothing leaves both as they were. A grant that is made moves the identifier to its own
target, and so the record is kept only where that covers what was held before. A removal has taken
everything the identifier tells of, or it was told that something is missing. -/

namespace DeclaredAccess.Grant

open DeclaredAccess.Task (Spares Goes goes_bind goes_changeWork_bind goes_work_bind goes_locked
  goes_ofExcept)
open Ledger (Follows)
open Server (serves_append)

variable {α : Type} {c : Client} {p : Scope} {g : Grant} {k k' : Ledger} {t : List Exchange}
  {s s' : Standing Resource}

/-- Every operation on a grant first finds out which grant it is about; until then nothing is
changed. -/
theorem goes_declared {x : Resource → Except Error Grant} {f : Grant → Task Resource α}
    {r : Except Failure α} (hg : Goes (do
      c.require .privileges resourceName
      let g ← x (← Task.work)
      f g) s t r s') (hk : Follows p k t k') :
    (Uncommitted t ∧ s'.work = s.work ∧ ∃ e, r = .error e) ∨
      ∃ g t₁ t₂ s₁ k₁, t = t₁ ++ t₂ ∧ Uncommitted t₁ ∧ FindsAll t₁ ∧ x s.work = .ok g ∧
        s₁.work = s.work ∧ k₁.kept = k.kept ∧ Goes (f g) s₁ t₂ r s' ∧ Follows p k₁ t₂ k' := by
  rcases goes_bind.mp hg with ⟨t₁, t₂, _, s₁, rfl, h₁, h₂⟩ | ⟨e, h₁, he⟩
  · have hu : Uncommitted t₁ := Task.require_uncommitted h₁
    have hw : s₁.work = s.work := Spares.require c _ _ _ _ _ _ h₁
    rw [goes_work_bind, hw] at h₂
    obtain ⟨k₁, hk₁, hk₂⟩ := serves_append.mp hk
    rcases goes_bind.mp h₂ with ⟨t₃, t₄, g, s₂, rfl, h₃, h₄⟩ | ⟨e, h₃, he⟩
    · obtain ⟨rfl, rfl, hx⟩ := goes_ofExcept.mp h₃
      have ha : FindsAll t₁ := Task.Heeds.require c _ _ _ _ _ _ h₁
      refine .inr ⟨g, t₁, t₄, s₂, k₁, rfl, hu, ha, ?_, hw, Ledger.kept_of_uncommitted hk₁ hu, h₄, hk₂⟩
      cases hd : x s.work with
      | ok g' => rw [hd] at hx; cases hx; rfl
      | error e => rw [hd] at hx; cases hx
    · obtain ⟨rfl, rfl, _⟩ := goes_ofExcept.mp h₃
      exact .inl ⟨hu.append .nil, hw, e, he⟩
  · exact .inl ⟨Task.require_uncommitted h₁, Spares.require c _ _ _ _ _ _ h₁, e, he⟩

theorem database_ne_of_scope (h : g.Sound) (hs : g.scope = p) : p.database ≠ "" := by
  subst hs
  exact h.database_ne

theorem databaseOr_eq (c : Client) (h : g.Sound) (hs : g.scope = p) :
    c.databaseOr g.database = p.database := by
  subst hs
  exact c.databaseOr_of_ne h.database_ne

/-- The grant has the objects that the identifier tells, and privileges where it tells some. -/
def Recalls (g : Grant) (id : String) : Prop :=
  ∀ a, GrantId.read id = .ok a →
    g.objects = a.objects ∧ (a.privileges ≠ [] → g.privileges.isEmpty = false)

/-- The grant that an operation on what was applied is about. -/
theorem applied_spec (c : Client) (hd : p.Describes s.work) (ha : applied s.work = .ok g) :
    g.scope = p ∧ p.database ≠ "" ∧ c.databaseOr g.database = p.database ∧
      g.Recalls s.work.id := by
  obtain ⟨g₀, h₀, hr, hb, hk, hn, h⟩ := declared_of_applied ha
  obtain ⟨hg, _⟩ := sound_of_declared h₀
  have hs : g₀.scope = p := hd false g₀ h₀
  refine ⟨?_, database_ne_of_scope hg hs, ?_, fun a hi => ?_⟩
  · rw [← hs, scope, hr, hb, hk, hn]
    rfl
  · rw [hb]
    exact databaseOr_eq c hg hs
  · obtain ⟨ho, hp⟩ := h a hi
    exact ⟨ho, fun hn => PrivilegeSet.ofNames_nonempty hg.kind hn hp⟩

theorem includes_of_mem {o : String} (h : g.objects = [] ∨ o ∈ g.objects) :
    g.target.Includes o := by
  unfold Target.Includes target
  split
  · exact .inl rfl
  · exact h

theorem mem_of_mem_target {o : String} (h : o ∈ g.target.objects) : o ∈ g.objects := by
  unfold target at h
  split at h
  · cases h
  · exact h

/-- Where the statements fail nothing is committed, and the resource is as it was. -/
theorem apply_fails {regrant : Bool} {f : Failure}
    (hg : Goes (c.committed g.database (g.apply c regrant)) s t (.error f) s') :
    Uncommitted t ∧ s'.work = s.work := by
  have hblock : Task.Block .confined (g.apply c regrant : Task Resource Unit) :=
    block_apply c g regrant
  exact ⟨Task.committed_failed hblock hg,
    Spares.committed Allowance.not_records_confined hblock _ _ _ _ hg⟩

/-! ## Making a grant -/

/-- Where all listed objects are held, a refresh keeps the grant's identifier, unless nothing is
held at all. -/
theorem refresh_given {r : Except Failure Unit} (h : g.Sound) (hs : g.scope = p)
    (hi : s.work.id = g.id) (hl : ∀ o ∈ g.target.objects, k.kept o)
    (hg : Goes (g.refresh c) s t r s') (hk : Follows p k t k') :
    s'.work.id = g.id ∨ s'.work.id = "" ∧ ∀ o, ¬k.kept o := by
  rcases refresh_id hs (database_ne_of_scope h hs) hg hk with he | he | ⟨he, hn | ⟨hne, hn⟩⟩
  · exact .inl (he.trans hi)
  · have hid : s.work.id.isEmpty = false := by
      rw [hi]
      simpa using g.id_ne_empty
    rw [identified, hid] at he
    exact .inl (he.trans hi)
  · exact .inr ⟨he, hn⟩
  · obtain ⟨o, ho⟩ := List.exists_mem_of_ne_nil _ hne
    rw [← target_objects h] at ho
    exact absurd (.inr ho) (hn o (hl o ho))

/-- A grant that is made is recorded, unless something was held before that its identifier does not
cover; that stays held and is not covered any more. -/
theorem create_step {r : Except Failure Unit} (hd : p.Describes s.work)
    (hg : Goes (create c) s t r s') (hk : Follows p k t k') (hr : Recorded p s.work.id k.kept) :
    (Uncommitted t ∧ Recorded p s'.work.id k'.kept) ∨
      (¬Uncommitted t ∧ ∃ g, ofResource s.work = .ok g ∧
        ((∀ o, k.kept o → Covers p g.id o) → Recorded p s'.work.id k'.kept) ∧
        ∀ o, k.kept o → ¬Covers p g.id o → ¬Covered p s'.work.id k'.kept) := by
  rcases goes_declared hg hk with ⟨hu, hw, _⟩ |
    ⟨g, t₁, t₂, s₁, k₁, rfl, hu, _, hx, hw, hh, h, hk₁⟩
  · rw [hw, Ledger.kept_of_uncommitted hk hu]
    exact .inl ⟨hu, hr⟩
  · obtain ⟨u, rfl, hl⟩ := goes_locked.mp h
    have hk₂ := Ledger.follows_locked hk₁
    rcases goes_bind.mp hl with ⟨u₁, u₂, _, s₂, rfl, hc, hf⟩ | ⟨e, hc, _⟩
    · obtain ⟨hg, hn⟩ := sound_of_declared hx
      have hs : g.scope = p := hd true g hx
      obtain ⟨k₂, hk₃, hk₄⟩ := serves_append.mp hk₂
      have given : g.Given k.kept k₂.kept := by
        rw [← hh]
        refine Task.goes_committed_ok (turns_apply true fun declared ha => ?_)
          (databaseOr_eq c hg hs) hc hk₃
        exact turns_give hs ha (hn rfl)
      rw [goes_changeWork_bind] at hf
      have hheld : k'.kept = k₂.kept := Ledger.kept_of_uncommitted hk₄ (refresh_uncommitted hf)
      obtain ⟨hrec, hleft⟩ := recorded_of_given hg hs (hn rfl) given
      rw [hheld]
      refine .inr ⟨fun h => ?_, g, hx, ?_⟩
      · exact Task.Commits.committed _ _ _ _ _ _ _ hc h.right.tail.left.left
      rcases refresh_given hg hs rfl given.1 hf hk₄ with hi | ⟨_, hz⟩
      · rw [hi]
        exact ⟨hrec, fun o ho hn hcov => hn (hcov.1 o (hleft o ho hn))⟩
      · exact ⟨fun _ => .inl hz, fun o ho hn => absurd (hleft o ho hn) (hz o)⟩
    · obtain ⟨hu', hwork⟩ := apply_fails hc
      have hall := Uncommitted.locked .write hu hu'
      rw [hwork, hw, Ledger.kept_of_uncommitted hk hall]
      exact .inl ⟨hall, hr⟩

/-! ## Reading a grant -/

/-- A refresh keeps an identifier that records what is held, unless nothing is held at all. -/
theorem refresh_recorded {r : Except Failure Unit} (hs : g.scope = p) (hd : p.database ≠ "")
    {a : GrantId} (hi : GrantId.read s.work.id = .ok a) (ha : g.objects = a.objects)
    (hl : ∀ o ∈ a.objects, k.kept o) (hg : Goes (g.refresh c) s t r s') (hk : Follows p k t k') :
    s'.work.id = s.work.id ∨ ∀ o, ¬k.kept o := by
  rcases refresh_id hs hd hg hk with he | he | ⟨_, hn | ⟨hne, hn⟩⟩
  · exact .inl he
  · have hid : s.work.id.isEmpty = false := by
      cases h : s.work.id.isEmpty with
      | false => rfl
      | true =>
        rw [String.isEmpty_iff.mp h] at hi
        cases hi
    rw [identified, hid] at he
    exact .inl he
  · exact .inr hn
  · obtain ⟨o, ho⟩ := List.exists_mem_of_ne_nil _ hne
    exact absurd (includes_of_mem (.inr ho)) (hn o (hl o (ha ▸ ho)))

theorem read_step {r : Except Failure Unit} (hd : p.Describes s.work)
    (hg : Goes (read c) s t r s') (hk : Follows p k t k') (hr : Recorded p s.work.id k.kept) :
    Recorded p s'.work.id k'.kept := by
  have hu : Uncommitted t := (course_read c).uncommitted rfl hg
  rw [Ledger.kept_of_uncommitted hk hu]
  rcases goes_declared hg hk with ⟨_, hw, _⟩ |
    ⟨g, t₁, t₂, s₁, k₁, rfl, _, _, hx, hw, hh, h, hk₁⟩
  · rw [hw]
    exact hr
  · obtain ⟨u, rfl, hf⟩ := goes_locked.mp h
    obtain ⟨hs, hne, _, ha⟩ := applied_spec c hd hx
    rcases hr with hz | ⟨a, hi, hin, hp, hc, hl⟩
    · exact .inl hz
    · rw [← hh] at hl hc ⊢
      rw [← hw] at hi
      obtain ⟨ho, _⟩ := ha a (hw ▸ hi)
      rcases refresh_recorded hs hne hi ho hl hf (Ledger.follows_locked hk₁) with he | hz
      · rw [he]
        exact .inr ⟨a, hi, hin, hp, hc, hl⟩
      · exact .inl hz

/-! ## Removing a grant -/

/-- Nothing is left once the recorded target was taken. -/
theorem nothing_held_of_taken {id : String} {held held' : String → Prop}
    (hr : Recorded p id held) (ha : g.Recalls id) (h : g.Taken held held') :
    ∀ o, ¬held' o := by
  intro o ho
  obtain ⟨hold, hn⟩ := (h o).mp ho
  rcases hr with hz | ⟨a, hi, _, hp, hcov, _⟩
  · exact hz o hold
  · obtain ⟨hobj, hpriv⟩ := ha a hi
    exact hn (hpriv hp) (includes_of_mem (hobj ▸ hcov o hold))

/-- Every recorded object is held where anything is. -/
theorem nothing_held_of_missing {id : String} {held : String → Prop} (hr : Recorded p id held)
    (ha : g.Recalls id) {o : String} (ho : o ∈ g.target.objects) (hn : ¬held o) :
    ∀ o, ¬held o := by
  rcases hr with hz | ⟨a, hi, _, _, _, hl⟩
  · exact hz
  · exact absurd (hl o ((ha a hi).1 ▸ mem_of_mem_target ho)) hn

/-- A removal fails and changes nothing, or it returns and clears the identifier. Then its
transaction was committed, or that failed because something is missing. -/
theorem goes_delete {r : Except Failure Unit} (hg : Goes (delete c) s t r s')
    (hk : Follows p k t k') :
    (Uncommitted t ∧ s'.work = s.work ∧ ∃ f, r = .error f) ∨
      ∃ (g : Grant) (t₁ w : List Exchange) (o : Except Failure Unit) (s₁ s₂ : Standing Resource)
        (k₁ : Ledger), t = t₁ ++ ⟨.acquire .write, ()⟩ :: (w ++ [⟨.release .write, ()⟩]) ∧
        r = .ok () ∧ s'.work.id = "" ∧ Uncommitted t₁ ∧ FindsAll t₁ ∧ applied s.work = .ok g ∧
        k₁.kept = k.kept ∧ Follows p k₁ w k' ∧
        Goes (c.committed g.database (g.apply c false)) s₁ w o s₂ ∧
        (o = .ok () ∨ ∃ f, o = .error f ∧ f.error.isNotFound = true) := by
  rcases goes_declared hg hk with h | ⟨g, t₁, t₂, s₁, k₁, rfl, hu, ha, hx, hw, hh, h, hk₁⟩
  · exact .inl h
  obtain ⟨w, o, s₂, rfl, hc, ⟨hr, hwork, ho⟩ | ⟨f, rfl, hr, rfl⟩⟩ := Task.goes_forgetting h
  · refine .inr ⟨g, t₁, w, o, s₁, s₂, k₁, rfl, hr, ?_, hu, ha, hx, hh, Ledger.follows_locked hk₁,
      hc, ho⟩
    rw [hwork]
    rfl
  · obtain ⟨hu', hwork⟩ := apply_fails hc
    exact .inl ⟨Uncommitted.locked .write hu hu', hwork.trans hw, f, hr⟩

/-- A removal that returns has taken everything, unless it was told that something other than its
target is missing; then it has taken nothing. -/
theorem delete_step {r : Except Failure Unit} (hd : p.Describes s.work)
    (hg : Goes (delete c) s t r s') (hk : Follows p k t k') (hr : Recorded p s.work.id k.kept) :
    (∃ f, r = .error f) ∧ Recorded p s'.work.id k'.kept ∨
      r = .ok () ∧ s'.work.id = "" ∧ ((∀ o, ¬k'.kept o) ∧ (Uncommitted t → ∀ o, ¬k.kept o) ∨
        Uncommitted t ∧ FindsOtherMissing t ∧ k'.kept = k.kept) := by
  rcases goes_delete hg hk with ⟨hu, hw, he⟩ |
    ⟨g, t₁, w, o, s₁, s₂, k₁, rfl, rfl, hi, hu, _, hx, hh, hk₂, hc, ho⟩
  · rw [hw, Ledger.kept_of_uncommitted hk hu]
    exact .inl ⟨he, hr⟩
  obtain ⟨hs, _, hb, ha⟩ := applied_spec c hd hx
  refine .inr ⟨rfl, hi, ?_⟩
  rcases ho with rfl | ⟨f, rfl, hf⟩
  · have taken : g.Taken k.kept k'.kept := by
      rw [← hh]
      exact Task.goes_committed_ok (turns_apply false fun declared hd => turns_take hs hd) hb hc
        hk₂
    refine .inl ⟨nothing_held_of_taken hr ha taken, fun h => ?_⟩
    exact absurd h.right.tail.left (Task.Commits.committed _ _ _ _ _ _ _ hc)
  · have hu' := Uncommitted.locked .write hu (apply_fails hc).1
    rw [Ledger.kept_of_uncommitted hk hu']
    rcases Task.committed_blames (blames_apply hs) hb hf hc hk₂ with hm | hz | ⟨o, ho, hn⟩
    · exact .inr ⟨hu', .append_right (.cons (.append_left hm)), rfl⟩
    · rw [hh] at hz
      exact .inl ⟨hz, fun _ => hz⟩
    · rw [hh] at hn
      have hz := nothing_held_of_missing hr ha ho hn
      exact .inl ⟨hz, fun _ => hz⟩

end DeclaredAccess.Grant
