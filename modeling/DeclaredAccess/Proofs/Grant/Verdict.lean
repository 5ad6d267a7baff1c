import DeclaredAccess.Proofs.Grant.Apply
import DeclaredAccess.Proofs.Grant.Refresh

/-! What a refresh makes of a grant's identifier where the server is true to a ledger. The
identifier is cleared only where nothing is held on the target any more. -/

namespace DeclaredAccess

open DeclaredAccess.Task (Block Goes goes_bind goes_pure goes_execute_ofExcept
  goes_transaction_ok)

variable {σ : Type} {s s' : Standing σ} {p : Scope} {k k' : Ledger} {c : Client} {g : Grant}
  {t : List Exchange}

/-- A question that is answered by no. -/
theorem Ledger.tells_no {q : Sql.Query} {intent : String} {v : Value}
    (hg : Goes (Catalog.askOne q intent) s t (.ok v) s') (hv : v.truthy = false)
    (hk : Follows p k t k') : ∃ rows, Tells p k q rows ∧ Denies rows := by
  obtain ⟨_, rows, rfl, hc⟩ := Task.goes_askOne_ok hg
  obtain ⟨k₁, ha, _⟩ := Server.serves_cons.mp hk
  exact ⟨rows, ha.2, v, hc, hv⟩

/-- A check that finds nothing has asked, and was answered by no. -/
theorem Ledger.tells_not_found {q : Sql.Query} {intent : String}
    (hg : Goes (do return (← Catalog.askOne q intent).truthy : Task σ Bool) s t (.ok false) s')
    (hk : Follows p k t k') : ∃ rows, Tells p k q rows ∧ Denies rows := by
  rcases goes_bind.mp hg with ⟨t₁, t₂, v, s₁, rfl, h₁, h₂⟩ | ⟨_, _, he⟩
  · obtain ⟨k₁, hk₁, _⟩ := Server.serves_append.mp hk
    obtain ⟨_, hv, _⟩ := goes_pure.mp h₂
    exact tells_no h₁ (Except.ok.inj hv).symm hk₁
  · cases he

namespace Grant

/-- The role and the database. -/
theorem nothing_seen_of_findsRole (hs : g.scope = p)
    (hg : Goes (g.findsRole : Task σ Bool) s t (.ok false) s') (hk : Ledger.Follows p k t k') :
    ∀ o, ¬k.seen o := by
  subst hs
  have database {s s' : Standing σ} {t : List Exchange} {k k' : Ledger}
      (hg : Goes (do return (← Catalog.databaseExists g.database).truthy : Task σ Bool) s t
        (.ok false) s') (hk : Ledger.Follows g.scope k t k') : ∀ o, ¬k.seen o := by
    obtain ⟨rows, ht, hd⟩ := Ledger.tells_not_found hg hk
    exact ht rfl hd
  unfold findsRole at hg
  split at hg
  · rcases goes_bind.mp hg with ⟨t₁, t₂, v, s₁, rfl, h₁, h₂⟩ | ⟨_, _, he⟩
    · obtain ⟨k₁, hk₁, hk₂⟩ := Server.serves_append.mp hk
      have hq : k₁ = k := Ledger.eq_of_questions hk₁ ((Block.askOne _ _).asks h₁).2
      split at h₂
      · rename_i hv
        obtain ⟨rows, ht, hd⟩ := Ledger.tells_no h₁ (by simpa using hv) hk₁
        exact ht rfl hd
      · rw [← hq]
        exact database h₂ hk₂
    · cases he
  · exact database hg hk

theorem nothing_seen_of_findsSchema (hs : g.scope = p) (hn : p.kind ≠ .database)
    (hc : k.database = p.database)
    (hg : Goes (g.findsSchema : Task σ Bool) s t (.ok false) s') (hk : Ledger.Follows p k t k') :
    ∀ o, ¬k.seen o := by
  subst hs
  obtain ⟨rows, ht, hd⟩ := Ledger.tells_not_found hg hk
  exact ht rfl hn hc hd

theorem nothing_held_of_not_present (hs : g.scope = p) (hd : p.database ≠ "")
    (hg : Goes (g.isPresent c : Task σ Bool) s t (.ok false) s') (hk : Ledger.Follows p k t k') :
    ∀ o, ¬k.kept o := by
  rcases goes_bind.mp hg with ⟨t₁, t₂, found, s₁, rfl, h₁, h₂⟩ | ⟨_, _, he⟩
  · obtain ⟨k₁, hk₁, hk₂⟩ := Server.serves_append.mp hk
    obtain ⟨_, u, _, k₂, hf, hu, hh⟩ := goes_transaction_ok h₁ hk₁
    cases found with
    | false => exact nothing_seen_of_findsRole hs hf hu
    | true =>
      have hk₂' : k₂ = k.begun _ := Ledger.eq_of_questions hu ((block_findsRole g).asks hf).2
      have hh : k₁.kept = k.kept := by rw [hh, hk₂']; rfl
      simp only [Bool.not_true, Bool.false_eq_true, if_false] at h₂
      split at h₂
      · obtain ⟨_, he, _⟩ := goes_pure.mp h₂
        cases he
      · rename_i hn
        obtain ⟨_, v, _, k₃, hf, hv, _⟩ := goes_transaction_ok h₂ hk₂
        have hp : p.kind ≠ .database := by
          subst hs
          exact hn
        have hb : c.databaseOr g.database = p.database := by
          subst hs
          exact c.databaseOr_of_ne hd
        rw [← hh]
        exact nothing_seen_of_findsSchema hs hp hb hf hv
  · cases he

theorem eq_nil_of_ofRows {role : String} {rows : List Row}
    (h : Holdings.ofRows role rows = .ok []) : rows = [] := by
  cases rows with
  | nil => rfl
  | cons row rows =>
    unfold Holdings.ofRows at h
    obtain ⟨held, hm, h⟩ := exists_of_bind_eq_ok h
    rw [List.mapM_cons] at hm
    obtain ⟨e, _, hm⟩ := exists_of_bind_eq_ok hm
    obtain ⟨es, _, hm⟩ := exists_of_bind_eq_ok hm
    cases hm
    rw [List.map_cons, List.eraseDups_cons] at h
    cases h

/-- Where no object is found, none is held. -/
theorem not_included_of_none_found (hs : g.scope = p) (hd : p.database ≠ "")
    (hg : Goes (c.transaction g.database (Catalog.objectPrivileges g.role g.target) :
      Task σ Holdings) s t (.ok []) s') (hk : Ledger.Follows p k t k') :
    ∀ o, k.kept o → ¬g.target.Includes o := by
  obtain ⟨_, u, _, _, h, hu, _⟩ := goes_transaction_ok hg hk
  obtain ⟨_, ⟨_, _, he⟩ | ⟨a, rfl, he⟩⟩ := goes_execute_ofExcept h
  · cases he
  · cases a with
    | error e => cases he
    | ok rows =>
      have hr : .ok [] = (Holdings.ofRows g.role rows).mapError Failure.of := he
      cases ho : Holdings.ofRows g.role rows with
      | error e => rw [ho] at hr; cases hr
      | ok found =>
        rw [ho] at hr
        cases hr
        obtain rfl := eq_nil_of_ofRows ho
        obtain ⟨k₁, ha, _⟩ := Server.serves_cons.mp hu
        intro o hh hi
        have hb : c.databaseOr g.database = p.database := by
          subst hs
          exact c.databaseOr_of_ne hd
        have hc : p.Concerns (k.begun (c.databaseOr g.database)).database g.target g.role :=
          hb ▸ concerns hs
        obtain ⟨_, hn, _⟩ := ha.2 hc o hh hi
        cases hn

theorem settle_id (g : Grant) (found : Holdings) (r : Resource) : (g.settle found r).id =
    if !g.objects.isEmpty && found.isEmpty then "" else r.id := by
  unfold settle
  dsimp only
  split
  · rfl
  · split
    · split
      · rfl
      · rfl
    · split
      · rfl
      · rfl

/-- The identifier stays or is given. It is cleared only where nothing is held, or where objects are
listed and none of them is. -/
theorem refresh_id (hs : g.scope = p) (hd : p.database ≠ "") {s s' : Standing Resource}
    {r : Except Failure Unit} (hg : Goes (g.refresh c) s t r s') (hk : Ledger.Follows p k t k') :
    s'.work.id = s.work.id ∨ s'.work.id = (g.identified s.work).id ∨
      (s'.work.id = "" ∧ ((∀ o, ¬k.kept o) ∨
        g.objects ≠ [] ∧ ∀ o, k.kept o → ¬g.target.Includes o)) := by
  rcases goes_refresh hg with ⟨f, _, hw, _⟩ | ⟨_, hw, s₁, h⟩ | ⟨u, v, s₁, rfl, h, hv⟩
  · exact .inl (congrArg Resource.id hw)
  · refine .inr (.inr ⟨congrArg Resource.id hw, .inl ?_⟩)
    exact nothing_held_of_not_present hs hd h hk
  · rcases hv with ⟨f, _, hw⟩ | ⟨found, s₂, s₃, _, hw, hf⟩
    · exact .inr (.inl (congrArg Resource.id hw))
    · have hi : s'.work.id = _ := (congrArg Resource.id hw).trans (settle_id g found _)
      cases ho : !g.objects.isEmpty && found.isEmpty with
      | false =>
        rw [ho] at hi
        exact .inr (.inl hi)
      | true =>
        rw [ho] at hi
        obtain ⟨hl, he⟩ := Bool.and_eq_true_iff.mp ho
        obtain ⟨k₁, hk₁, hk₂⟩ := Server.serves_append.mp hk
        have hh : k₁.kept = k.kept := Ledger.kept_of_uncommitted hk₁ (isPresent_uncommitted h)
        obtain rfl : found = [] := List.isEmpty_iff.mp he
        refine .inr (.inr ⟨hi, .inr ⟨by simpa using hl, ?_⟩⟩)
        rw [← hh]
        exact not_included_of_none_found hs hd hf hk₂

end Grant

end DeclaredAccess
