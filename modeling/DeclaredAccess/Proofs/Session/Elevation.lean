import DeclaredAccess.Proofs.Session.Inversion
import DeclaredAccess.Proofs.Sql.Plain

/-! How an elevation goes. It first asks whether a membership has to be granted. Where none has to
be, the block runs by itself; otherwise it runs between the grant of the membership and the revoke
of it, which is attempted on every way out of the block. -/

namespace DeclaredAccess

variable {σ α : Type} {s s' : Standing σ} {t : List Exchange}

namespace Task

/-- The group and the member of the membership that the elevation needs, if it needs one. -/
def elevationFor (role actor : Value) : Task σ (Option (String × String)) :=
  if !role.truthy || role == actor then pure none
  else do
    if (← Catalog.hasRole actor role).truthy then pure none
    else if (← Catalog.revocableMembership actor role).truthy then pure none
    else
      let group ← Catalog.name role
      let member ← Catalog.name actor
      pure (some (group, member))

/-- What a membership is granted for, as errors say it. -/
def grantIntent (group member : String) : String :=
  "granting membership in role " ++ group ++ " to role " ++ member

/-- What a membership is revoked for, as errors say it. -/
def revokeIntent (group member : String) : String :=
  "revoking membership in role " ++ group ++ " from role " ++ member

/-- The block between the grant of a membership and the revoke of it. -/
def asMember (group member : String) (block : Task σ α) : Task σ α := do
  Catalog.grantMemberships [group] member (grantIntent group member)
  let revoke := Catalog.revokeMemberships [group] member (revokeIntent group member)
  match ← attempt (savepoint block) with
  | .ok a =>
    revoke
    return a
  | .error failure => revokeAfter failure revoke

theorem elevated_eq (role actor : Value) (block : Task σ α) : elevated role actor block =
    elevationFor role actor >>= fun
      | none => block
      | some (group, member) => asMember group member block := by
  unfold elevated elevationFor
  split
  · rw [pure_bind]
  · rw [bind_assoc]
    congr 1
    funext a
    split
    · rw [pure_bind]
    · rw [bind_assoc]
      congr 1
      funext b
      split
      · rw [pure_bind]
      · simp only [bind_assoc, pure_bind]
        rfl

/-- The outcome of a block once the membership was taken back with the answer `a`. A block's own
failure stays, and a revoke that fails then too only adds a note to it. -/
def takenBack (intent : String) (a : Except DriverError (List Row)) :
    Except Failure α → Except Failure α
  | .ok v => (replied intent a).map fun _ => v
  | .error f => match replied intent a with
    | .ok _ => .error f
    | .error g => .error (if g.error.isFinding then
        { f with notes := f.notes ++ [g.error.message?.getD ""] } else g)

theorem eq_ok_of_takenBack {intent : String} {a : Except DriverError (List Row)}
    {o : Except Failure α} {v : α} (h : takenBack intent a o = .ok v) :
    o = .ok v ∧ ∃ rows, a = .ok rows := by
  cases o with
  | ok w => cases a with
    | ok rows => exact ⟨h, rows, rfl⟩
    | error e => cases h
  | error f => cases a with
    | ok rows => cases h
    | error e => cases h

theorem isEmpty_append {a : String} (h : a.isEmpty = false) (b : String) :
    (a ++ b).isEmpty = false := by
  refine Bool.eq_false_iff.mpr fun he => ?_
  have hl : a.toList ++ b.toList = [] := by
    rw [← String.toList_append, String.isEmpty_iff.mp he]
    rfl
  have ha : a = "" := String.toList_inj.mp (List.append_eq_nil_iff.mp hl).1
  rw [ha] at h
  cases h

/-- A change that can be written is sent, and its answer is the outcome. -/
theorem change_eq {c : Sql.Change} (hc : c.isVersioned = false) (intent : String) :
    (Catalog.change c intent : Task σ Unit) =
      ask (.execute (.change c)) >>= fun a => settled ((replied intent a).map fun _ => ()) := by
  obtain ⟨text, htext⟩ := Sql.Change.exists_text hc
  unfold Catalog.change discard
  rw [execute_eq htext]
  refine funext fun s => congrArg (Dialogue.ask _) (funext fun a => ?_)
  cases a with
  | ok rows => rfl
  | error e => rfl

theorem goes_change {c : Sql.Change} (hc : c.isVersioned = false) {intent : String}
    {r : Except Failure Unit} : Goes (Catalog.change c intent) s t r s' ↔
      s' = s ∧ ∃ a, t = [⟨.execute (.change c), a⟩] ∧ r = (replied intent a).map fun _ => () := by
  rw [change_eq hc]
  exact goes_ask_settled

/-- Taking a membership back has the same steps after a block that failed and after one that
returned; only what its answer means differs. -/
theorem asMember_eq (group member : String) (block : Task σ α) :
    asMember group member block =
      Catalog.change (.grantMembership [group] member) (grantIntent group member) >>= fun _ =>
        attempt (savepoint block) >>= fun o =>
          ask (.execute (.change (.revokeMembership [group] member))) >>= fun a =>
            settled (takenBack (revokeIntent group member) a o) := by
  have hgrant : (grantIntent group member).isEmpty = false :=
    isEmpty_append (isEmpty_append (isEmpty_append (by decide) group) _) member
  have hrevoke : (revokeIntent group member).isEmpty = false :=
    isEmpty_append (isEmpty_append (isEmpty_append (by decide) group) _) member
  have hgive : (Catalog.grantMemberships [group] member (grantIntent group member) : Task σ _) =
      Catalog.change (.grantMembership [group] member) (grantIntent group member) := by
    simp [Catalog.grantMemberships, hgrant]
  have htake : (Catalog.revokeMemberships [group] member (revokeIntent group member) : Task σ _) =
      ask (.execute (.change (.revokeMembership [group] member))) >>= fun a =>
        settled ((replied (revokeIntent group member) a).map fun _ => ()) := by
    rw [← change_eq rfl]
    simp [Catalog.revokeMemberships, hrevoke]
  unfold asMember revokeAfter
  simp only [hgive, htake]
  refine congrArg (Catalog.change _ _ >>= ·) (funext fun _ => ?_)
  refine congrArg (attempt (savepoint block) >>= ·) (funext fun o => ?_)
  cases o with
  | ok v =>
    refine funext fun s => congrArg (Dialogue.ask _) (funext fun a => ?_)
    cases a with
    | ok rows => rfl
    | error e => rfl
  | error f =>
    refine funext fun s => congrArg (Dialogue.ask _) (funext fun a => ?_)
    cases a with
    | ok rows => rfl
    | error e =>
      show (if (e.toError _).isFinding then _ else _ : Task σ α) s = settled _ s
      simp only [takenBack, replied_error, Failure.of]
      split
      · rfl
      · rfl

/-- The grant is refused, or the block has run in a savepoint and the revoke was attempted. -/
theorem goes_asMember {group member : String} {block : Task σ α} {r : Except Failure α} :
    Goes (asMember group member block) s t r s' ↔
    (∃ e, t = [⟨.execute (.change (.grantMembership [group] member)), .error e⟩] ∧ s' = s ∧
      r = .error (Failure.of (e.toError (grantIntent group member)))) ∨
    ∃ rows u o a,
      t = ⟨.execute (.change (.grantMembership [group] member)), .ok rows⟩ ::
        (u ++ [⟨.execute (.change (.revokeMembership [group] member)), a⟩]) ∧
      Goes (savepoint block) s u o s' ∧ r = takenBack (revokeIntent group member) a o := by
  rw [asMember_eq, change_eq rfl, bind_assoc, goes_ask_bind]
  constructor
  · rintro ⟨a, v, rfl, h⟩
    cases a with
    | error e =>
      obtain ⟨rfl, rfl, rfl⟩ := goes_settled.mp h
      exact .inl ⟨e, rfl, rfl, rfl⟩
    | ok rows =>
      obtain ⟨u, w, o, s₁, rfl, hs, hr⟩ := goes_attempt_bind.mp h
      obtain ⟨b, w, rfl, hb⟩ := goes_ask_bind.mp hr
      obtain ⟨rfl, rfl, rfl⟩ := goes_settled.mp hb
      exact .inr ⟨rows, u, o, b, rfl, hs, rfl⟩
  · rintro (⟨e, rfl, rfl, rfl⟩ | ⟨rows, u, o, b, rfl, hs, rfl⟩)
    · exact ⟨.error e, [], rfl, goes_settled.mpr ⟨rfl, rfl, rfl⟩⟩
    · refine ⟨.ok rows, _, rfl, goes_attempt_bind.mpr ⟨u, _, o, s', rfl, hs, ?_⟩⟩
      exact goes_ask_bind.mpr ⟨b, [], rfl, goes_settled.mpr ⟨rfl, rfl, rfl⟩⟩

end Task

end DeclaredAccess
