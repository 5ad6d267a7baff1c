import DeclaredAccess.Proofs.Grant.Reread
import DeclaredAccess.Proofs.Membership.Served
import DeclaredAccess.Proofs.Operation.Failure

/-! What a membership resource is worth after an operation. The operations end by taking over the
members that the catalog tells, and the next one begins by checking the fields as if they had been
declared. A role without members is told like any other, but it is no declaration: then nothing can be
done with the resource any more. In all other cases the next operation returns, and to read again
changes nothing. -/

namespace DeclaredAccess

open DeclaredAccess.Task (Goes goes_bind goes_bind_ok goes_changeWork_bind goes_execute goes_locked
  goes_ofExcept goes_ofExcept_bind_ok goes_transaction_succeeds goes_work_bind)

/-! ## Fields that were taken over -/

namespace Resource

variable {r r' : Resource} {key : String}

theorem mapM_text?_texts (names : List String) :
    (names.map Value.text).mapM Value.text? = some names := by
  induction names with
  | nil => rfl
  | cons n names ih =>
    rw [List.map_cons, List.mapM_cons, ih]
    rfl

theorem texts_of_texts {names : List String} (h : r.get? key = some (.list (names.map .text))) :
    r.texts key = .ok names := by
  rw [texts, getD_of_get? h]
  cases names with
  | nil => rfl
  | cons n names =>
    simp only [Value.truthy, Value.items?, mapM_text?_texts]
    rfl

end Resource

/-- What can be written has no NUL in it. -/
theorem Sql.not_nul_of_text {st : Statement} {text s : String} (h : st.text = .ok text)
    (hs : .constant (.text s) ∈ st.pieces) : '\x00' ∉ s.toList := by
  obtain ⟨_, hwrite, _⟩ := exists_of_bind_eq_ok h
  obtain ⟨_, hall, _⟩ := exists_of_bind_eq_ok hwrite
  obtain ⟨cs, hc⟩ := exists_ok_of_mapM_ok hall hs
  intro hn
  have refused : Piece.write (.constant (.text s)) = .error .nul :=
    if_pos (by simpa [Constant.hasNul] using hn)
  cases hc.symm.trans refused

namespace Membership

variable {m : Membership} {r : Resource} {members : Finset String} {c : Client}

/-- What a resource gives that declares the members of a role. -/
theorem ofResource_eq_ok_iff : ofResource r = .ok m ↔ ∃ names, r.texts "members" = .ok names ∧
    names ≠ [] ∧ r.required .roleMembership "name" = .ok m.name ∧
      r.required .roleMembership "role" = .ok m.role ∧ m.members = sortedSet names := by
  unfold ofResource
  constructor
  · intro h
    obtain ⟨names, hnames, h⟩ := exists_of_bind_eq_ok h
    obtain ⟨hne, h⟩ := of_guard_eq_ok h
    obtain ⟨name, hname, h⟩ := exists_of_bind_eq_ok h
    obtain ⟨role, hrole, h⟩ := exists_of_bind_eq_ok h
    cases h
    exact ⟨names, hnames, by simpa using hne, hname, hrole, rfl⟩
  · rintro ⟨names, hnames, hne, hname, hrole, hmembers⟩
    obtain ⟨name, role, sorted⟩ := m
    subst hmembers
    refine bind_eq_ok hnames (guard_eq_ok (by simpa using hne) ?_)
    exact bind_eq_ok hname (bind_eq_ok hrole rfl)

theorem get?_takenOver_members (role : String) (members : Finset String) (r : Resource) :
    (takenOver role members r).get? "members" = some (.list ((inOrder members).map .text)) :=
  Resource.get?_put (by simp)

theorem get?_takenOver_role (role : String) (members : Finset String) (r : Resource) :
    (takenOver role members r).get? "role" = some (.text role) := by
  rw [takenOver, Resource.get?_put_of_ne (by decide)]
  exact Resource.get?_put (by simp)

theorem get?_takenOver_name (role : String) (members : Finset String) (r : Resource) :
    (takenOver role members r).get? "name" = r.get? "name" := by
  rw [takenOver, Resource.get?_put_of_ne (by decide), Resource.get?_put_of_ne (by decide)]

theorem inOrder_eq_nil_iff : inOrder members = [] ↔ members = ∅ := by
  rw [← List.length_eq_zero_iff, length_inOrder, Finset.card_eq_zero]

/-- A role without members is no declaration. -/
theorem ofResource_takenOver_empty (role : String) (r : Resource) :
    ofResource (takenOver role ∅ r) = .error (.config .noMembers) := by
  have none : (takenOver role ∅ r).texts "members" = .ok [] := by
    rw [← inOrder_eq_nil_iff.mpr rfl]
    exact Resource.texts_of_texts (get?_takenOver_members role ∅ r)
  unfold ofResource
  rw [none]
  rfl

/-- All other members that are taken over are a declaration of the same role. -/
theorem ofResource_takenOver (h : ofResource r = .ok m) (hm : members ≠ ∅) :
    ofResource (takenOver m.role members r) = .ok { m with members := inOrder members } := by
  obtain ⟨_, _, _, hname, hrole, _⟩ := ofResource_eq_ok_iff.mp h
  refine ofResource_eq_ok_iff.mpr ⟨inOrder members, ?_, ?_, ?_, ?_, ?_⟩
  · exact Resource.texts_of_texts (get?_takenOver_members _ _ _)
  · exact fun he => hm (inOrder_eq_nil_iff.mp he)
  · rw [Resource.required_congr (get?_takenOver_name _ _ _), hname]
  · have named : m.role.isEmpty = false := by simpa using Resource.required_ne_empty hrole
    rw [Resource.required, get?_takenOver_role]
    simp [named]
  · rw [sortedSet_eq_inOrder, toFinset_inOrder]

/-- What was taken over once is taken over again. -/
theorem takenOver_takenOver (role : String) (members : Finset String) (r : Resource) :
    takenOver role members (takenOver role members r) = takenOver role members r := by
  have role_kept := Resource.put_of_get? (get?_takenOver_role role members r)
  have members_kept := Resource.put_of_get? (get?_takenOver_members role members r)
  rw [takenOver, role_kept, members_kept]

/-- An identifier declares nothing. -/
theorem ofResource_setId (r : Resource) (id : String) : ofResource (r.setId id) = ofResource r := rfl

/-! ## How an operation ends -/

variable {s s' : Standing Resource} {t : List Exchange} {directory : Directory} {k k' : Register}

/-- An operation that is not a removal ends by taking over the members. -/
theorem returned_cases {op : Operation} {v : Value}
    (hop : op ∈ [Operation.createMembership, .readMembership, .updateMembership])
    (hg : Goes (op.run c) s t (.ok v) s') : ∃ m s₁ t₁ t₂, ofResource s.work = .ok m ∧
      t = t₁ ++ (t₂ ++ [⟨.release op.mode, ()⟩]) ∧ (s₁.work = s.work ∨ s₁.work = s.work.setId m.name) ∧
        Goes (refresh c m.role) s₁ t₂ (.ok ()) s' := by
  have spares {members : Task Resource Unit} (hb : Task.Block .enrolling members) :
      Task.Spares (c.committed "" members) :=
    .committed Allowance.not_records_enrolling hb
  simp only [List.mem_cons, List.not_mem_nil, or_false] at hop
  rcases hop with rfl | rfl | rfl
  all_goals
    obtain ⟨m, hm, h⟩ := goes_ofExcept_bind_ok.mp (goes_work_bind.mp (Operation.goes_quiet_ok hg))
    obtain ⟨u, rfl, hu⟩ := goes_locked.mp h
  · obtain ⟨u₁, u₂, _, s₁, rfl, hc, hr⟩ := goes_bind_ok.mp hu
    have hw : s₁.work = s.work := spares (block_addMembers m.role m.members) _ _ _ _ hc
    refine ⟨m, _, ⟨.acquire .write, ()⟩ :: u₁, u₂, hm, ?_, ?_, goes_changeWork_bind.mp hr⟩
    · simp [Operation.mode]
    · exact .inr (congrArg (·.setId m.name) hw)
  · exact ⟨m, s, [⟨.acquire .read, ()⟩], u, hm, by simp [Operation.mode], .inl rfl, hu⟩
  · dsimp only at hu
    split at hu
    · obtain ⟨old, _, hu⟩ := goes_ofExcept_bind_ok.mp hu
      obtain ⟨new, _, hu⟩ := goes_ofExcept_bind_ok.mp hu
      obtain ⟨u₁, u₂, _, s₁, rfl, hc, hr⟩ := goes_bind_ok.mp hu
      have hw : s₁.work = s.work := spares (block_replaceMembers m.role old new) _ _ _ _ hc
      exact ⟨m, s₁, ⟨.acquire .write, ()⟩ :: u₁, u₂, hm,
        by simp [Operation.mode], .inl hw, hr⟩
    · exact ⟨m, s, [⟨.acquire .write, ()⟩], u, hm, by simp [Operation.mode], .inl rfl, hu⟩

/-- Members are taken over only of a role whose name can be written. -/
theorem writable_of_refresh {role : String} (hg : Goes (refresh c role) s t (.ok ()) s') :
    '\x00' ∉ role.toList := by
  obtain ⟨t₁, _, _, _, _, h, _⟩ := goes_bind_ok.mp hg
  obtain ⟨_, s₀, _, u, _, s₁, _, h, _⟩ := goes_transaction_succeeds h
  obtain ⟨_, _, _, _, _, h, _⟩ := goes_bind_ok.mp h
  obtain ⟨_, _, _, _, _, h, _⟩ := goes_bind_ok.mp h
  obtain ⟨_, ⟨_, _, _, hr⟩ | ⟨text, _, ht, _⟩⟩ := goes_execute.mp h
  · cases hr
  · exact Sql.not_nul_of_text ht (by simp [Sql.Statement.pieces, Sql.Query.pieces])

namespace TookOver

variable {r' r'' : Resource} {k'' : Register} {role : String}

/-- Nothing is declared once the members of a role without any were taken over. -/
theorem refused (h : TookOver directory role r r' k k') (ht : directory.roles role)
    (hn : k'.kept role = ∅) : ofResource r' = .error (.config .noMembers) := by
  rw [h.there ht, ← h.kept, hn]
  exact ofResource_takenOver_empty role r

theorem declared (h : TookOver directory m.role r r' k k') (hm : ofResource r = .ok m)
    (ht : directory.roles m.role) (hn : k'.kept m.role ≠ ∅) :
    ofResource r' = .ok { m with members := inOrder (k'.kept m.role) } := by
  rw [h.there ht, ← h.kept]
  exact ofResource_takenOver hm hn

/-- To take over the same members once more changes nothing. -/
theorem again (h : TookOver directory role r r' k k') (h' : TookOver directory role r' r'' k' k'') :
    r'' = r' := by
  by_cases ht : directory.roles role
  · rw [h'.there ht, h.there ht, h.kept, takenOver_takenOver]
  · rw [h'.gone ht, h.gone ht]
    rfl

end TookOver

/-! ## The next operation -/

theorem leads_read (hm : ofResource s.work = .ok m) (hw : '\x00' ∉ m.role.toList) :
    directory.server.Leads (Operation.readMembership.run c) s k fun v s' k' =>
      v = .null ∧ TookOver directory m.role s.work s'.work k k' := by
  refine .bind (.bind (.work (.bind (.ofExcept hm (directory.willing.leads_locked ?_)))))
  exact (leads_refresh hw).mono fun _ _ _ h => .pure ⟨rfl, h⟩

theorem leads_delete (hm : ofResource s.work = .ok m) :
    directory.server.Leads (Operation.deleteMembership.run c) s k fun v _ _ => v = .null := by
  refine .bind (.bind (.work (.bind (.ofExcept hm (.bind (directory.willing.leads_locked ?_))))))
  refine directory.willing.leads_committed fun s₀ _ => leads_removeMembers fun s₂ _ => ?_
  exact .changeWork (.pure rfl)

/-- Where the fields declare nothing, an operation that checks them fails at once. -/
theorem goes_refused {e : Error} {body : Membership → Task Resource Unit} {r : Except Failure Value}
    (he : ofResource s.work = .error e) : Goes (Operation.run.quiet do
      let m ← ofResource (← Task.work)
      body m) s t r s' ↔ t = [] ∧ r = .error (Failure.of e) ∧ s' = s := by
  have checked {t : List Exchange} {o : Except Failure Membership} {s' : Standing Resource} :
      Goes (Task.ofExcept (ofResource s.work)) s t o s' ↔
        t = [] ∧ o = .error (Failure.of e) ∧ s' = s := by
    rw [goes_ofExcept, he]
    exact and_congr_right fun _ => and_comm
  constructor
  · intro hg
    rcases goes_bind.mp hg with ⟨_, _, _, _, _, h, _⟩ | ⟨f, h, rfl⟩
    · obtain ⟨m, hm, _⟩ := goes_ofExcept_bind_ok.mp (goes_work_bind.mp h)
      cases he.symm.trans hm
    · rcases goes_bind.mp (goes_work_bind.mp h) with ⟨_, _, _, _, _, h, _⟩ | ⟨f, h, hf⟩
      · cases (checked.mp h).2.1
      · cases hf
        obtain ⟨rfl, hr, rfl⟩ := checked.mp h
        cases hr
        exact ⟨rfl, rfl, rfl⟩
  · rintro ⟨rfl, rfl, rfl⟩
    exact goes_bind.mpr (.inr ⟨_, goes_work_bind.mpr (goes_bind.mpr (.inr ⟨_, checked.mpr
      ⟨rfl, rfl, rfl⟩, rfl⟩)), rfl⟩)

namespace TookOver

variable {r' : Resource} {k'' : Register} {o : Except Failure Value}

/-- The next operation returns if the role has members, and is refused if it has none. -/
theorem next (h : TookOver directory m.role r r' k k') (hm : ofResource r = .ok m)
    (ht : directory.roles m.role) {op : Operation}
    (hop : op ∈ [Operation.readMembership, .deleteMembership]) (hw : s.work = r')
    (hg : Goes (op.run c) s t o s') (hs : directory.server.Serves k' t k'') :
    (o = .ok .null ↔ k'.kept m.role ≠ ∅) ∧ (k'.kept m.role = ∅ →
      o = .error (Failure.of (.config .noMembers)) ∧ t = [] ∧ s' = s) := by
  subst hw
  simp only [List.mem_cons, List.not_mem_nil, or_false] at hop
  by_cases hn : k'.kept m.role = ∅
  · obtain ⟨rfl, rfl, rfl⟩ : t = [] ∧ o = .error (Failure.of (.config .noMembers)) ∧ s' = s := by
      rcases hop with rfl | rfl
      · exact (goes_refused (h.refused ht hn)).mp hg
      · exact (goes_refused (h.refused ht hn)).mp hg
    exact ⟨⟨(fun ho => by cases ho), fun hne => absurd hn hne⟩, fun _ => ⟨rfl, rfl, rfl⟩⟩
  · have declared := h.declared hm ht hn
    have returned : o = .ok .null := by
      rcases hop with rfl | rfl
      · obtain ⟨_, rfl, rfl, _⟩ :=
          (leads_read declared (directory.isName_role _ ht).2).of_goes hg hs
        rfl
      · obtain ⟨_, rfl, rfl⟩ := (leads_delete declared).of_goes hg hs
        rfl
    exact ⟨⟨fun _ => hn, fun _ => returned⟩, fun he => absurd he hn⟩

/-- Whether it returns or is refused, a read leaves what was taken over. -/
theorem read_again (h : TookOver directory m.role r r' k k') (hm : ofResource r = .ok m)
    (hv : '\x00' ∉ m.role.toList) (hw : s.work = r')
    (hg : Goes (Operation.readMembership.run c) s t o s') (hs : directory.server.Serves k' t k'') :
    s'.work = r' := by
  subst hw
  by_cases hn : directory.roles m.role ∧ k'.kept m.role = ∅
  · obtain ⟨_, _, rfl⟩ := (goes_refused (h.refused hn.1 hn.2)).mp hg
    rfl
  · have declared : ∃ m', ofResource s.work = .ok m' ∧ m'.role = m.role := by
      by_cases ht : directory.roles m.role
      · exact ⟨_, h.declared hm ht fun he => hn ⟨ht, he⟩, rfl⟩
      · exact ⟨m, by rw [h.gone ht]; exact hm, rfl⟩
    obtain ⟨m', hm', hrole⟩ := declared
    obtain ⟨_, _, _, took⟩ := (leads_read hm' (hrole ▸ hv)).of_goes hg hs
    exact h.again (hrole ▸ took)

end TookOver

end Membership

namespace Operation

/-- After an operation that leaves an identifier, the members can be read and removed if and only if the
role has any. To read again changes nothing in any case. -/
theorem next_returns_iff (directory : Directory) {op : Operation} {c : Client}
    {s s' : Standing Resource} {t : List Exchange} {v : Value} {k k' : Register}
    (hop : op ∈ [createMembership, readMembership, updateMembership])
    (hg : Goes (op.run c) s t (.ok v) s') (hs : directory.server.Serves k t k') :
    ∃ m, Membership.ofResource s.work = .ok m ∧
      (s'.work.id ≠ "" → ∀ next ∈ [readMembership, deleteMembership],
        ∀ (c₂ : Client) (s₂ s₃ : Standing Resource) (u : List Exchange) (r : Except Failure Value)
          (k₃ : Register), s₂.work = s'.work → Goes (next.run c₂) s₂ u r s₃ →
          directory.server.Serves k' u k₃ →
            (r = .ok .null ↔ k'.kept m.role ≠ ∅) ∧ (k'.kept m.role = ∅ →
              r = .error (Failure.of (.config .noMembers)) ∧ u = [] ∧ s₃ = s₂)) ∧
      ∀ (c₂ : Client) (s₂ s₃ : Standing Resource) (u : List Exchange) (r : Except Failure Value)
        (k₃ : Register), s₂.work = s'.work → Goes (readMembership.run c₂) s₂ u r s₃ →
        directory.server.Serves k' u k₃ → s₃.work = s'.work := by
  obtain ⟨m, s₁, t₁, t₂, hm, rfl, hw, hg⟩ := Membership.returned_cases hop hg
  have hm₁ : Membership.ofResource s₁.work = .ok m := by
    rcases hw with hw | hw
    · rw [hw, hm]
    · rw [hw, Membership.ofResource_setId, hm]
  have writable := Membership.writable_of_refresh hg
  -- the lock is released after the members were taken over
  obtain ⟨_, _, hs⟩ := Server.serves_append.mp hs
  obtain ⟨_, hs, hrelease⟩ := Server.serves_append.mp hs
  obtain ⟨k₁, hstays, hend⟩ := Server.serves_cons.mp hrelease
  obtain rfl := Server.serves_nil.mp hend
  obtain rfl : k' = _ := hstays
  obtain ⟨_, _, took⟩ := (Membership.leads_refresh writable).of_goes hg hs
  refine ⟨m, hm, fun hid next hnext c₂ s₂ s₃ u r k₃ hw₂ hg₂ hs₂ => ?_,
    fun c₂ s₂ s₃ u r k₃ hw₂ hg₂ hs₂ => took.read_again hm₁ writable hw₂ hg₂ hs₂⟩
  have there : directory.roles m.role := Classical.byContradiction fun hn =>
    hid (congrArg Resource.id (took.gone hn))
  exact took.next hm₁ there hnext hw₂ hg₂ hs₂

/-- The readers as they were declared. -/
def readersGroup : Standing Resource where
  session := {}
  work := {
    id := "g"
    values := [("name", .text "g"), ("role", .text "readers"), ("members", .list [.text "alice"])] }

theorem ofResource_readersGroup : Membership.ofResource readersGroup.work =
    .ok ⟨"g", "readers", sortedSet ["alice"]⟩ := rfl

/-- Readers other than the declared ones are told, and then they can be removed. -/
theorem next_returns_iff_readers : ∃ t s' k' u s₃ k₃,
    Goes (readMembership.run .admin) readersGroup t (.ok .null) s' ∧
    guild.server.Serves guildMembers t k' ∧ s'.work.id = "g" ∧
    Goes (deleteMembership.run .admin) s' u (.ok .null) s₃ ∧ guild.server.Serves k' u k₃ := by
  have reads : guild.server.Leads (readMembership.run .admin) readersGroup guildMembers _ :=
    Membership.leads_read ofResource_readersGroup (by decide)
  obtain ⟨t, _, s', k', hg, hs, rfl, took⟩ := reads.exists_goes
  have hid : s'.work.id = "g" := congrArg Resource.id (took.there (.inl rfl))
  obtain ⟨u, ⟨r, s₃⟩, k₃, hg₂, hs₂⟩ :=
    guild.server.exists_serves (deleteMembership.run .admin s') k'
  obtain ⟨m, hm, next, -⟩ := next_returns_iff guild (by simp) hg hs
  cases ofResource_readersGroup.symm.trans hm
  obtain ⟨returns, -⟩ := next (by simp [hid]) deleteMembership (by simp) .admin s' s₃ u r k₃ rfl
    hg₂ hs₂
  have members : k'.kept "readers" ≠ ∅ := by
    rw [took.kept]
    decide
  obtain rfl := returns.mpr members
  exact ⟨t, s', k', u, s₃, k₃, hg, hs, hid, hg₂, hs₂⟩

/-- Once a role has lost its members, a read that returns leaves a resource that can be neither read nor
removed. -/
theorem emptied_group_is_stuck : ∃ t s' k',
    Goes (readMembership.run .admin) readersGroup t (.ok .null) s' ∧
    guild.server.Serves { kept := fun _ => ∅ } t k' ∧ s'.work.id = "g" ∧
    ∀ next ∈ [readMembership, deleteMembership],
      Goes (next.run .admin) s' [] (.error (Failure.of (.config .noMembers))) s' := by
  have reads : guild.server.Leads (readMembership.run .admin) readersGroup
      { kept := fun _ => ∅ } _ :=
    Membership.leads_read ofResource_readersGroup (by decide)
  obtain ⟨t, _, s', k', hg, hs, rfl, took⟩ := reads.exists_goes
  have hid : s'.work.id = "g" := congrArg Resource.id (took.there (.inl rfl))
  have refused := took.refused (.inl rfl) (congrFun took.kept "readers")
  refine ⟨t, s', k', hg, hs, hid, fun next hnext => ?_⟩
  simp only [List.mem_cons, List.not_mem_nil, or_false] at hnext
  rcases hnext with rfl | rfl
  · exact (Membership.goes_refused refused).mpr ⟨rfl, rfl, rfl⟩
  · exact (Membership.goes_refused refused).mpr ⟨rfl, rfl, rfl⟩

end Operation

end DeclaredAccess
