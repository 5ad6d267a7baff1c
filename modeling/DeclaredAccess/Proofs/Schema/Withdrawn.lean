import DeclaredAccess.Proofs.Operation.Failure
import DeclaredAccess.Proofs.Policy.Gone
import DeclaredAccess.Proofs.Schema.Settled
import DeclaredAccess.Proofs.Session.Wrapped

/-! Whom an update of a schema takes privileges from. The policies are moved in one place, and what
is sent there follows from the two lists alone and from which dropped roles are said to exist. So a
role loses what it has exactly if the lists say so, whoever owns the schema. A read leaves the
owner's policies out of what it compares; an update does not, and so it can take from the owner what
no read ever reports as missing. -/

namespace DeclaredAccess

open Sql
open DeclaredAccess.Task (Goes Silent Wraps goes_bind goes_execute goes_fail goes_ofExcept_bind
  goes_pure goes_work_bind)

variable {σ α β : Type} {s s' : Standing σ} {t u : List Exchange} {place target : Target}
  {role : String}

/-- All that a role has on a target is to be taken from it. -/
def Withdraws (place : Target) (role : String) (t : List Exchange) : Prop :=
  ∃ a, (⟨.execute (.change (.revokeAll place role)), a⟩ : Exchange) ∈ t

theorem withdraws_policyPart : Withdraws place role (policyPart t) ↔ Withdraws place role t :=
  exists_congr fun _ => mem_policyPart.trans (and_iff_left rfl)

theorem told_policyPart (t : List Exchange) (role : String) :
    told (policyPart t) role = told t role := by
  unfold told policyPart
  rw [List.any_filter]
  congr 1
  funext y
  cases hf : y.findsRole role with
  | false => simp
  | true =>
    have asked := Exchange.roleAsked_of_findsRole hf
    have policy : y.isPolicy = true := by
      unfold Exchange.roleAsked at asked
      split at asked
      · rfl
      · cases asked
    simp [policy]

open Declaration (Loses)

/-- Privileges are taken from none but those who lose them by what was said of the roles, and from
all of these where it comes to a good end. -/
structure WithdrawsFrom (loses : (String → Bool) → Target → String → Prop) (t : List Exchange)
    (r : Except Failure α) : Prop where
  only : ∀ place role, Withdraws place role t → loses (told t) place role
  all : ∀ v, r = .ok v → ∀ place role, loses (told t) place role → Withdraws place role t

namespace WithdrawsFrom

variable {loses loses' : (String → Bool) → Target → String → Prop} {r : Except Failure α}

/-- Where something fails before anything is sent, nothing is taken. -/
theorem failed {f : Failure} (h : ∀ y ∈ t, y.isQuestion = true) :
    WithdrawsFrom loses t (.error f : Except Failure α) where
  only place role hw := by
    obtain ⟨a, hy⟩ := hw
    cases h _ hy
  all v hv := nomatch hv

/-- Where policies are not dealt with, nothing is taken. -/
theorem unreached (ht : policyPart t = []) (hr : ∀ v, r ≠ .ok v) : WithdrawsFrom loses t r where
  only place role hw := by
    obtain ⟨a, hy⟩ := withdraws_policyPart.mpr hw
    rw [ht] at hy
    cases hy
  all v hv := absurd hv (hr v)

theorem congr (h : WithdrawsFrom loses t r)
    (hl : ∀ there place role, loses there place role ↔ loses' there place role) :
    WithdrawsFrom loses' t r where
  only place role hw := (hl _ _ _).mp (h.only place role hw)
  all v hv place role hp := h.all v hv place role ((hl _ _ _).mpr hp)

/-- Only what is done about policies matters. -/
theorem ofPart {r' : Except Failure β} (h : WithdrawsFrom loses u r')
    (ht : policyPart t = policyPart u) (hr : ∀ v, r = .ok v → ∃ w, r' = .ok w) :
    WithdrawsFrom loses t r := by
  have same : told t = told u := by
    funext role
    rw [← told_policyPart t, ht, told_policyPart]
  have taken (place : Target) (role : String) :
      Withdraws place role t ↔ Withdraws place role u := by
    rw [← withdraws_policyPart, ht, withdraws_policyPart]
  constructor
  · intro place role hw
    rw [same]
    exact h.only place role ((taken _ _).mp hw)
  · intro v hv place role hl
    rw [same] at hl
    obtain ⟨w, hw⟩ := hr v hv
    exact (taken _ _).mpr (h.all w hw place role hl)

end WithdrawsFrom

/-- Whoever loses by two lists of declarations loses what is on the target. -/
def Moves (target : Target) (old new : List Declaration) (there : String → Bool) (place : Target)
    (role : String) : Prop :=
  place = target ∧ Loses old new there role

/-- After the questions, nothing is sent but the plan. -/
theorem WithdrawsFrom.sent {P : Declaration → Prop} {old new : List Declaration}
    {o n : Keyed Declaration} {r : Except Failure α} (ho : Declaration.byRole old = .ok o)
    (hn : Declaration.byRole new = .ok n) (hi : o.Indexed Declaration.key P)
    (hu : ∀ y ∈ u, y.isQuestion = true)
    (hw : ∀ y ∈ t, ∃ c ∈ (PolicyDiff.between o n).changes target (told u),
      ∃ a, y = ⟨.execute (.change c), a⟩)
    (hall : ∀ v, r = .ok v → ∀ c ∈ (PolicyDiff.between o n).changes target (told u),
      ∃ a, (⟨.execute (.change c), a⟩ : Exchange) ∈ t) :
    WithdrawsFrom (Moves target old new) (u ++ t) r := by
  have same : told (u ++ t) = told u := by
    funext role
    have asked : rolesAsked t = [] := by
      refine List.filterMap_eq_nil_iff.mpr fun y hy => ?_
      obtain ⟨c, _, a, rfl⟩ := hw y hy
      rfl
    rw [told_append, told_of_not_asked (t := t) (by simp [asked]), Bool.or_false]
  constructor
  · rintro place role ⟨a, hy⟩
    rcases List.mem_append.mp hy with hy | hy
    · cases hu _ hy
    · obtain ⟨c, hc, _, he⟩ := hw _ hy
      cases he
      obtain ⟨rfl, hlowered⟩ := PolicyDiff.mem_changes.mp hc
      rw [same]
      exact ⟨rfl, (Declaration.loses_iff ho hn hi).mpr hlowered⟩
  · rintro v hv place role ⟨rfl, hl⟩
    rw [same, Declaration.loses_iff ho hn hi] at hl
    obtain ⟨a, ha⟩ := hall v hv _ (PolicyDiff.mem_changes.mpr ⟨rfl, hl⟩)
    exact ⟨a, List.mem_append_right u ha⟩

theorem PolicyDiff.of_eq_ok {old new : List Declaration} {d : PolicyDiff}
    (h : PolicyDiff.of old new = .ok d) : ∃ o n, Declaration.byRole old = .ok o ∧
      Declaration.byRole new = .ok n ∧ d = between o n := by
  unfold PolicyDiff.of at h
  split at h
  · cases h
    exact exists_of_ofLists ‹_›
  · cases h

namespace Catalog

theorem goes_sendOne {c : Change} {intent : String} {r : Except Failure Unit}
    (h : Goes (Catalog.change c intent) s t r s') :
    (t = [] ∧ ∀ v, r ≠ .ok v) ∨ ∃ a, t = [⟨.execute (.change c), a⟩] := by
  rcases goes_bind.mp h with ⟨t₁, t₂, rows, s₁, rfl, h₁, h₂⟩ | ⟨e, h₁, rfl⟩
  · obtain ⟨_, ⟨_, _, _, hr⟩ | ⟨_, a, _, rfl, _⟩⟩ := goes_execute.mp h₁
    · cases hr
    · rw [(goes_pure.mp h₂).1]
      exact .inr ⟨a, rfl⟩
  · obtain ⟨_, ⟨_, _, rfl, _⟩ | ⟨_, a, _, rfl, _⟩⟩ := goes_execute.mp h₁
    · exact .inl ⟨rfl, fun _ hv => nomatch hv⟩
    · exact .inr ⟨a, rfl⟩

/-- Changes are sent in a row, up to the first that fails. -/
theorem goes_send {cs : List Change} {intent : String} {r : Except Failure PUnit}
    (h : Goes (cs.forM fun c => Catalog.change c intent) s t r s') :
    (∀ y ∈ t, ∃ c ∈ cs, ∃ a, y = ⟨.execute (.change c), a⟩) ∧
      ∀ v, r = .ok v → ∀ c ∈ cs, ∃ a, (⟨.execute (.change c), a⟩ : Exchange) ∈ t := by
  induction cs generalizing s t with
  | nil =>
    obtain ⟨rfl, _, _⟩ := goes_pure.mp h
    exact ⟨by simp, by simp⟩
  | cons c cs ih =>
    change Goes (Catalog.change c intent >>= fun _ => cs.forM _) s t r s' at h
    have first {t₁ : List Exchange} {o : Except Failure Unit} {s₁ : Standing σ}
        (h₁ : Goes (Catalog.change c intent) s t₁ o s₁) :
        ∀ y ∈ t₁, ∃ c' ∈ c :: cs, ∃ a, y = ⟨.execute (.change c'), a⟩ := by
      rcases goes_sendOne h₁ with ⟨rfl, _⟩ | ⟨a, rfl⟩
      · exact fun _ hy => nomatch hy
      · exact fun y hy => ⟨c, List.mem_cons_self, a, List.mem_singleton.mp hy⟩
    rcases goes_bind.mp h with ⟨t₁, t₂, v, s₁, rfl, h₁, h₂⟩ | ⟨e, h₁, rfl⟩
    · obtain ⟨hall, hok⟩ := ih h₂
      refine ⟨List.forall_mem_append.mpr ⟨first h₁, fun y hy => ?_⟩, fun v hv => ?_⟩
      · obtain ⟨c', hc, he⟩ := hall y hy
        exact ⟨c', List.mem_cons_of_mem c hc, he⟩
      · refine List.forall_mem_cons.mpr ⟨?_, fun c' hc => ?_⟩
        · rcases goes_sendOne h₁ with ⟨_, hne⟩ | ⟨a, rfl⟩
          · exact absurd rfl (hne _)
          · exact ⟨a, List.mem_cons_self⟩
        · obtain ⟨a, ha⟩ := hok v hv c' hc
          exact ⟨a, List.mem_append_right t₁ ha⟩
    · exact ⟨first h₁, fun _ hv => nomatch hv⟩

/-- What is sent to move a policy is the plan by what was said of the roles. -/
theorem withdraws_movePolicy {old new : List Declaration} {intent : String} {r : Except Failure Nat}
    (hold : ∀ d ∈ old, d.Fits target.kind) (hnew : ∀ d ∈ new, d.Fits target.kind)
    (h : Goes (Catalog.movePolicy old new target intent) s t r s') :
    WithdrawsFrom (Moves target old new) t r := by
  obtain ⟨rfl, e, rfl⟩ | ⟨d, hd, h₁⟩ := goes_ofExcept_bind h
  · exact .failed (List.forall_mem_nil _)
  obtain ⟨o, n, ho, hn, rfl⟩ := PolicyDiff.of_eq_ok hd
  have hoi : o.Indexed Declaration.key (Declaration.Fits target.kind) :=
    Declaration.indexed_byRole ho hold
  have hfit := PolicyDiff.fits_between hoi (Declaration.indexed_byRole hn hnew)
  have asking := (Task.plans_plan (σ := σ) target (PolicyDiff.between o n) PolicyDiff.word
    fun role => .bind (.askOne _ _) fun _ => .pure _).1
  rcases goes_bind.mp h₁ with ⟨u, w, v, s₂, rfl, h₂, h₃⟩ | ⟨e, h₂, rfl⟩
  · have questions : ∀ y ∈ u, y.isQuestion = true := (asking.asks h₂).2
    cases PolicyDiff.goes_plan hfit hoi h₂
    change Goes (((PolicyDiff.between o n).changes target (told u)).forM _ >>= fun _ => pure _)
      s₂ w r s' at h₃
    have sends : Goes (((PolicyDiff.between o n).changes target (told u)).forM fun c =>
        Catalog.change c intent) s₂ w (r.map fun _ => ()) s' := by
      rcases goes_bind.mp h₃ with ⟨w₁, w₂, _, s₃, rfl, h₄, h₅⟩ | ⟨e, h₄, rfl⟩
      · obtain ⟨rfl, rfl, rfl⟩ := goes_pure.mp h₅
        rw [List.append_nil]
        exact h₄
      · exact h₄
    obtain ⟨only, all⟩ := goes_send sends
    exact .sent ho hn hoi questions only fun v hv => all () (by rw [hv]; rfl)
  · exact .failed (asking.asks h₂).2

end Catalog

namespace Schema

variable {name : String} {old new : Value} {x : Schema} {r : Resource} {c : Client}

theorem ofPolicy_of_changedPolicies {v : Value} {ds : List Declaration}
    (h : changedPolicies v = .ok ds) : ∀ d ∈ ds, d.OfPolicy := by
  unfold changedPolicies at h
  split at h
  · exact Declaration.ofPolicy_of_ofBlocks h
  · cases h
    exact fun _ hd => nomatch hd

/-- The changed policies of a schema make a role lose what it has on it. -/
def Takes (x : Schema) (r : Resource) (there : String → Bool) (place : Target) (role : String) :
    Prop :=
  r.hasChange "policy" = true ∧ ∃ old new, changedPolicies (r.change "policy").1 = .ok old ∧
    changedPolicies (r.change "policy").2 = .ok new ∧
      Moves (Schema.target x.name) old new there place role

/-- An update of the resource makes a role lose what it has on the schema. -/
def UpdateTakes (c : Client) (r : Resource) (there : String → Bool) (place : Target)
    (role : String) : Prop :=
  ∃ x, ofResource r c.defaultDatabase = .ok x ∧ x.Takes r there place role

/-- What is moved of the policies, where they changed. -/
def move (x : Schema) (r : Resource) : Task σ Unit :=
  if r.hasChange "policy" then movePolicies x.name (r.change "policy").1 (r.change "policy").2
  else pure ()

theorem wraps_alter (x : Schema) (r : Resource) : Wraps (x.alter r : Task σ Unit) (x.move r) := by
  have owner (u : Unit) : Wraps (do
      if r.hasChange "owner" then Catalog.setSchemaOwner x.name x.owner
      if r.hasChange "policy" then
        movePolicies x.name (r.change "policy").1 (r.change "policy").2 : Task σ Unit) (x.move r) :=
    .whenThen (.change (fun _ => rfl) _) fun _ => .refl _
  unfold alter
  dsimp only
  split
  · refine .after (.ofExcept _) fun old => .after (.ofExcept _) fun new => ?_
    exact .after (.change (fun _ => rfl) _) owner
  · exact owner ()

theorem silent_refresh (c : Client) (database : String) (name : Value) :
    Silent (refresh c database name) := by
  intro s t r s' hg
  obtain ⟨found, s₁, h, _⟩ := goes_refresh hg
  exact (Wraps.transaction c database _).silent (Task.Throughout.stepwise.schema fun _ => rfl) _ _ _ _ h

/-- What an update does about policies. -/
theorem wraps_update (c : Client) (x : Schema) (r : Resource) (previous : Value) : Wraps (do
    Task.locked .write do
      c.committed x.database do
        let owners ← owners previous x.owner
        Task.elevatedAll owners (← c.actorRole) (x.alter r)
      Task.changeWork (·.setId (idOf x.database x.name))
      refresh c x.database (.text x.name)) (x.move r) := by
  refine (Wraps.locked _ _).trans (.before ?_ fun _ => ?_)
  · refine (Wraps.committed c x.database _).trans (.after (.ofExcept _) fun owners => ?_)
    refine .after (Task.Throughout.stepwise.actorRole (fun _ => rfl) c) fun actor => ?_
    exact (Wraps.elevatedAll owners actor _).trans (wraps_alter x r)
  · exact .bind (.changeWork _) fun _ => silent_refresh c _ _

theorem withdraws_movePolicies {old new : Value} {name : String} {o : Except Failure Unit}
    (h : Goes (movePolicies name old new) s t o s') : WithdrawsFrom (fun there place role =>
      ∃ ds ds', changedPolicies old = .ok ds ∧ changedPolicies new = .ok ds' ∧
        Moves (Schema.target name) ds ds' there place role) t o := by
  obtain ⟨rfl, e, rfl⟩ | ⟨ds, hds, h₁⟩ := goes_ofExcept_bind h
  · exact .failed (List.forall_mem_nil _)
  obtain ⟨rfl, e, rfl⟩ | ⟨ds', hds', h₂⟩ := goes_ofExcept_bind h₁
  · exact .failed (List.forall_mem_nil _)
  have fits {v : Value} {ds : List Declaration} (h : changedPolicies v = .ok ds) :
      ∀ d ∈ ds, d.Fits (Schema.target name).kind :=
    fun d hd => (ofPolicy_of_changedPolicies h d hd).fits
  obtain ⟨o', h₃, ho⟩ : ∃ o', Goes (Catalog.movePolicy ds ds' (Schema.target name)
      ("updating privileges on schema " ++ name)) s t o' s' ∧
      ∀ v, o = .ok v → ∃ w, o' = .ok w := by
    rcases goes_bind.mp h₂ with ⟨t₁, t₂, n, s₁, rfl, hm, hp⟩ | ⟨e, hm, rfl⟩
    · obtain ⟨rfl, _, rfl⟩ := goes_pure.mp hp
      rw [List.append_nil]
      exact ⟨_, hm, fun _ _ => ⟨n, rfl⟩⟩
    · exact ⟨_, hm, fun _ hv => nomatch hv⟩
  have moved := Catalog.withdraws_movePolicy (fits hds) (fits hds') h₃
  refine (moved.ofPart rfl ho).congr fun there place role => ⟨fun hm => ?_, ?_⟩
  · exact ⟨ds, ds', hds, hds', hm⟩
  · rintro ⟨es, es', hes, hes', hm⟩
    cases hds.symm.trans hes
    cases hds'.symm.trans hes'
    exact hm

theorem withdraws_move {o : Except Failure Unit} (h : Goes (x.move r) s t o s') :
    WithdrawsFrom (x.Takes r) t o := by
  unfold move at h
  split at h
  · rename_i hc
    exact (withdraws_movePolicies h).congr fun _ _ _ => (and_iff_right hc).symm
  · rename_i hc
    obtain ⟨rfl, _, _⟩ := goes_pure.mp h
    exact ⟨fun _ _ ⟨_, hy⟩ => (nomatch hy), fun _ _ _ _ hl => absurd hl.1 hc⟩

/-- An update takes privileges as its lists of policies say. -/
theorem withdraws_update {s s' : Standing Resource} {o : Except Failure Unit}
    (h : Goes (update c) s t o s') : WithdrawsFrom (UpdateTakes c s.work) t o := by
  rw [update, goes_work_bind] at h
  obtain ⟨rfl, e, rfl⟩ | ⟨x, hx, h₁⟩ := goes_ofExcept_bind h
  · exact .failed (List.forall_mem_nil _)
  have moved : WithdrawsFrom (x.Takes s.work) t o := by
    dsimp only at h₁
    split at h₁
    · rcases goes_bind.mp h₁ with ⟨_, _, _, _, _, hf, _⟩ | ⟨e, hf, rfl⟩
      · cases (goes_fail.mp hf).2.1
      · rw [(goes_fail.mp hf).1]
        exact .failed (List.forall_mem_nil _)
    · rcases wraps_update c x s.work _ _ _ _ _ h₁ with ⟨hn, hne⟩ | ⟨_, u, o', _, hm, hu, ho⟩
      · exact .unreached hn hne
      · exact (withdraws_move hm).ofPart hu ho
  refine moved.congr fun there place role => ⟨fun ht => ⟨x, hx, ht⟩, ?_⟩
  rintro ⟨y, hy, ht⟩
  cases hx.symm.trans hy
  exact ht

end Schema

namespace Operation

variable {s s' : Standing Resource} {c : Client} {o : Except Failure Value}

/-- Whoever owns the schema, an update takes privileges on it from no other roles than those who
lose them by its two lists of policies, and where it returns, from all of these. So the owner is
spared exactly if it has nothing to lose by the lists. -/
theorem update_withdraws_iff (h : Goes (updateSchema.run c) s t o s') :
    (∀ place role, Withdraws place role t → Schema.UpdateTakes c s.work (told t) place role) ∧
    ∀ v, o = .ok v → ∀ place role,
      Withdraws place role t ↔ Schema.UpdateTakes c s.work (told t) place role := by
  obtain ⟨o', hg, ho⟩ : ∃ o', Goes (Schema.update c) s t o' s' ∧ ∀ v, o = .ok v → o' = .ok () := by
    cases o with
    | ok v => exact ⟨_, goes_quiet_ok h, fun _ _ => rfl⟩
    | error f => exact ⟨_, goes_quiet_error h, fun _ hv => nomatch hv⟩
  have taken := Schema.withdraws_update hg
  refine ⟨taken.only, fun v hv place role => ⟨taken.only place role, fun hl => ?_⟩⟩
  exact taken.all () (ho v hv) place role hl

/-- A policy for the owner of a schema is taken back. -/
def ownersPolicy : Standing Resource where
  session := {}
  work := {
    id := "app.s"
    values := [("name", .text "s"), ("owner", .text "owner"), ("policy", .list [])]
    previous := some [("name", .text "s"), ("owner", .text "owner"),
      ("policy", .list [.object [("role", .text "owner"), ("usage", .bool true)]])] }

/-- A server on which the schema belongs to `owner`, and everybody acts as everybody. -/
def ownersAnswer : (q : Request) → q.Answer
  | .execute (.query (.hasRole ..)) => .ok [[.bool true]]
  | .execute (.query (.schema _)) => .ok [[.text "owner", .list []]]
  | q => q.granted

/-- What is asked and answered when the policy is taken back. -/
def ownersUpdate : List Exchange :=
  [⟨.acquire .write, ()⟩, ⟨.openEngine "app" (some ⟨4, 0, 180, "sync-grants"⟩), ()⟩,
    ⟨.connect "app", .ok ⟨"postgresql", "psycopg", some [16, 2]⟩⟩, ⟨.mark .begin, .ok ()⟩,
    ⟨.execute (.query (.hasRole (.text "admin") (.text "owner"))), .ok [[.bool true]]⟩,
    ⟨.execute (.query (.roleExists "owner")), .ok [[.bool true]]⟩,
    ⟨.execute (.change (.revokeAll (Schema.target "s") "owner")), .ok []⟩,
    ⟨.mark .commit, .ok ()⟩, ⟨.disconnect, ()⟩,
    ⟨.connect "app", .ok ⟨"postgresql", "psycopg", some [16, 2]⟩⟩, ⟨.mark .begin, .ok ()⟩,
    ⟨.execute (.query (.schema (.text "s"))), .ok [[.text "owner", .list []]]⟩,
    ⟨.mark .rollback, .ok ()⟩, ⟨.disconnect, ()⟩, ⟨.release .write, ()⟩]

unseal List.mergeSort in
theorem goes_ownersUpdate : ∃ s', Goes (updateSchema.run .admin) ownersPolicy ownersUpdate
    (.ok .null) s' ∧ s'.work.get? "owner" = some (.text "owner") :=
  ⟨_, Task.goes_exchanges ownersAnswer _ _, rfl⟩

/-- The owner loses its policy, and another role has nothing to lose. -/
theorem update_withdraws_iff_owner :
    Schema.UpdateTakes .admin ownersPolicy.work (told ownersUpdate) (Schema.target "s") "owner" ∧
    ¬Schema.UpdateTakes .admin ownersPolicy.work (told ownersUpdate) (Schema.target "s") "alice" := by
  obtain ⟨s', hg, _⟩ := goes_ownersUpdate
  have taken := (update_withdraws_iff hg).2 .null rfl (Schema.target "s")
  refine ⟨(taken "owner").mp ?_, fun h => ?_⟩
  · exact ⟨.ok [], by simp [ownersUpdate]⟩
  · obtain ⟨a, ha⟩ := (taken "alice").mpr h
    have hm : .execute (.change (.revokeAll (Schema.target "s") "alice")) ∈
        ownersUpdate.map Exchange.request := List.mem_map.mpr ⟨_, ha, rfl⟩
    simp [ownersUpdate] at hm

/-- An update takes from the owner of the schema what it has. -/
theorem update_takes_from_owner : ¬∀ (c : Client) (s s' : Standing Resource) (t : List Exchange)
    (v : Value) (owner : String), Goes (updateSchema.run c) s t (.ok v) s' →
    s'.work.get? "owner" = some (.text owner) → ∀ place, ¬Withdraws place owner t := by
  intro h
  obtain ⟨s', hg, howner⟩ := goes_ownersUpdate
  exact h _ _ _ _ _ _ hg howner (Schema.target "s") ⟨.ok [], by simp [ownersUpdate]⟩

end Operation

end DeclaredAccess
