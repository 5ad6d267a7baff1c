import DeclaredAccess.Proofs.Session.Fault
import DeclaredAccess.Proofs.Session.Roster
import DeclaredAccess.Proofs.Session.Transcript

/-! Elevations into several roles, one inside the other, and the way out of them. A run parts into
the acquisitions, the block if all of them succeeded, and the exit, which takes back what was
acquired from the innermost role to the outermost. Each elevation adds its own acquisition in front
and its own revoke at the end, and puts the memberships back that the part between left as it found
them. -/

namespace DeclaredAccess

variable {σ α : Type} {s s' : Standing σ} {t : List Exchange}

namespace Exchange

/-- The membership that was granted. -/
def given? : Exchange → Option (String × String)
  | ⟨.execute (.change (.grantMembership [group] member)), .ok _⟩ => some (group, member)
  | _ => none

/-- The membership that was to be taken back. -/
def taken? : Exchange → Option (String × String)
  | ⟨.execute (.change (.revokeMembership [group] member)), _⟩ => some (group, member)
  | _ => none

/-- What is raised where a membership could not be taken back. -/
def takingError? : Exchange → Option Error
  | ⟨.execute (.change (.revokeMembership [group] member)), .error e⟩ =>
    some (e.toError (Task.revokeIntent group member))
  | _ => none

theorem given?_of_questions (ht : ∀ y ∈ t, y.isQuestion = true) : t.filterMap given? = [] := by
  refine List.filterMap_eq_nil_iff.mpr fun y hy => ?_
  obtain ⟨q, a, rfl⟩ := exists_query_of_isQuestion (ht y hy)
  rfl

end Exchange

namespace Task

open Roster (Serves)
open Server (serves_append serves_cons serves_nil)

/-- What an elevation does before its block: it grants the membership, if one is needed, and sets
the savepoint that the block runs in. -/
def acquire (role actor : Value) : Task σ Unit := do
  match ← elevationFor role actor with
  | none => return ()
  | some (group, member) =>
    Catalog.change (.grantMembership [group] member) (grantIntent group member)
    mark .savepoint

/-- What several elevations do before the block that is inside of them all. -/
def acquireAll (actor : Value) : List Value → Task σ Unit
  | [] => return ()
  | role :: roles => do
    acquire role actor
    acquireAll actor roles

/-- The block with an elevation into each role around it, the first one outermost. -/
def nested (actor : Value) (block : Task σ α) (roles : List Value) : Task σ α :=
  roles.foldr (fun role body => elevated role actor body) block

/-- The roles to elevate into: each once, in order, and none without a name. -/
def targets (roles : List String) : List Value :=
  (sortNames (roles.filter fun role => !role.isEmpty).eraseDups).map .text

theorem elevatedAll_texts (roles : List String) (actor : Value) (block : Task σ α) :
    elevatedAll (roles.map .text) actor block = nested actor block (targets roles) := by
  have hnamed : (roles.map Value.text).filter Value.truthy =
      (roles.filter fun role => !role.isEmpty).map .text := by
    rw [List.filter_map]
    rfl
  unfold elevatedAll
  rw [hnamed, Value.distinct_texts]
  show (ofExcept (Value.inOrder _) >>= _ : Task σ α) = _
  rw [Value.inOrder_texts]
  rfl

/-! ## Acquisitions -/

section Acquire

variable {role actor : Value} {roles : List Value} {group member : String} {f : Failure}

theorem acquire_failed (h : Goes (elevationFor role actor) s t (.error f) s) :
    Goes (acquire role actor) s t (.error f) s :=
  goes_bind.mpr (.inr ⟨f, h, rfl⟩)

theorem acquire_needless (h : Goes (elevationFor role actor) s t (.ok none) s) :
    Goes (acquire role actor) s t (.ok ()) s :=
  goes_bind.mpr (.inl ⟨t, [], none, s, by simp, h, goes_pure.mpr ⟨rfl, rfl, rfl⟩⟩)

theorem acquire_refused {e : DriverError}
    (h : Goes (elevationFor role actor) s t (.ok (some (group, member))) s) :
    Goes (acquire role actor) s
      (t ++ [⟨.execute (.change (.grantMembership [group] member)), .error e⟩])
      (.error (Failure.of (e.toError (grantIntent group member)))) s :=
  goes_bind.mpr (.inl ⟨t, _, _, s, rfl, h,
    goes_bind.mpr (.inr ⟨_, (goes_change rfl).mpr ⟨rfl, _, rfl, rfl⟩, rfl⟩)⟩)

theorem acquire_held (rows : List Row)
    (h : Goes (elevationFor role actor) s t (.ok (some (group, member))) s) :
    Goes (acquire role actor) s (t ++ [⟨.execute (.change (.grantMembership [group] member)),
      .ok rows⟩, ⟨.mark .savepoint, .ok ()⟩]) (.ok ()) s :=
  goes_bind.mpr (.inl ⟨t, _, _, s, rfl, h, goes_bind.mpr (.inl ⟨[_], [_], (), s, rfl,
    (goes_change rfl).mpr ⟨rfl, _, rfl, rfl⟩, goes_mark.mpr ⟨rfl, .ok (), rfl, rfl⟩⟩)⟩)

theorem acquireAll_failed (h : Goes (acquire role actor) s t (.error f) s) :
    Goes (acquireAll actor (role :: roles)) s t (.error f) s :=
  goes_bind.mpr (.inr ⟨f, h, rfl⟩)

theorem acquireAll_cons {u : List Exchange} {o : Except Failure Unit}
    (h : Goes (acquire role actor) s t (.ok ()) s) (hs : Goes (acquireAll actor roles) s u o s) :
    Goes (acquireAll actor (role :: roles)) s (t ++ u) o s :=
  goes_bind.mpr (.inl ⟨t, u, (), s, rfl, h, hs⟩)

end Acquire

/-! ## Runs -/

/-- How a run of a block inside of elevations went, which led the memberships from `k` to `k'`. -/
structure Unwinds (roles : List Value) (actor : Value) (block : Task σ α) (s : Standing σ)
    (t : List Exchange) (r : Except Failure α) (s' : Standing σ) (k k' : Roster)
    (entry inside exit : List Exchange) (o : Except Failure α) : Prop where
  parts : t = entry ++ inside ++ exit
  /-- All acquisitions succeeded and the block has run, or one of them failed and it has not: the
  run is one of any block. -/
  entered : Goes (acquireAll actor roles) s entry (.ok ()) s ∧ Goes block s inside o s' ∨
    inside = [] ∧ s' = s ∧ ∃ f, o = .error f ∧ Goes (acquireAll actor roles) s entry (.error f) s ∧
      ∀ other : Task σ α, Goes (nested actor other roles) s t r s'
  /-- What was granted is taken back, the last one first. -/
  taken : exit.filterMap Exchange.taken? = (entry.filterMap Exchange.given?).reverse
  /-- If all of it could be taken back, nothing is left of it, and the outcome is the block's or the
  acquisition's. -/
  restored : exit.filterMap Exchange.takingError? = [] → k' = k ∧ r = o
  /-- A failure stays, with a note on each membership that could not be taken back. -/
  noted : ∀ f, o = .error f → (∀ e ∈ exit.filterMap Exchange.takingError?, e.isFinding = true) →
    r = .error { f with notes := f.notes ++
      (exit.filterMap Exchange.takingError?).map fun e => e.message?.getD "" }

section Build

variable {roles : List Value} {role actor : Value} {block : Task σ α} {k k' : Roster}
  {group member : String} {u entry inside exit : List Exchange} {o r : Except Failure α}

/-- An acquisition that fails is the whole run. -/
theorem Unwinds.stopped {f : Failure} (h : Goes (acquire role actor) s t (.error f) s)
    (hgiven : t.filterMap Exchange.given? = []) (hk : k' = k)
    (hall : ∀ other : Task σ α, Goes (nested actor other (role :: roles)) s t (.error f) s) :
    Unwinds (role :: roles) actor block s t (.error f) s k k' t [] [] (.error f) where
  parts := by simp
  entered := .inr ⟨rfl, rfl, f, rfl, acquireAll_failed h, hall⟩
  taken := by simp [hgiven]
  restored _ := ⟨hk, rfl⟩
  noted g hg _ := by
    cases hg
    simp

/-- Where no membership is needed, the elevation adds its questions. -/
theorem Unwinds.needless (h₀ : Goes (elevationFor role actor) s t (.ok none) s)
    (h : Unwinds roles actor block s u r s' k k' entry inside exit o) :
    Unwinds (role :: roles) actor block s (t ++ u) r s' k k' (t ++ entry) inside exit o where
  parts := by simp [h.parts]
  entered := by
    have ha := acquire_needless h₀
    rcases h.entered with ⟨hentry, hblock⟩ | ⟨rfl, rfl, f, rfl, hentry, hall⟩
    · exact .inl ⟨acquireAll_cons ha hentry, hblock⟩
    · refine .inr ⟨rfl, rfl, f, rfl, acquireAll_cons ha hentry, fun other => ?_⟩
      exact (Elevates.needless h₀ (hall other)).goes
  taken := by
    have hgiven := Exchange.given?_of_questions ((Block.elevationFor role actor).asks h₀).2
    simp [h.taken, hgiven]
  restored := h.restored
  noted := h.noted

/-- The marker at the end of a savepoint. -/
def ending : Except Failure α → Marker
  | .ok _ => .release
  | .error _ => .rollbackTo

theorem savepoint_goes {body : Task σ α} (h : Goes body s u o s') : Goes (savepoint body) s
    (⟨.mark .savepoint, .ok ()⟩ :: (u ++ [⟨.mark (ending o), .ok ()⟩])) o s' := by
  rw [goes_savepoint]
  cases o with
  | ok v => exact .inr (.inl ⟨u, v, .ok (), rfl, h, rfl⟩)
  | error f => exact .inr (.inr ⟨u, f, .ok (), rfl, h, rfl⟩)

/-- The marker at the end is answered. -/
theorem ok_of_ending {y : Exchange} {a : Except DriverError Unit} (r : Except Failure α)
    (hk : Serves k (y :: (u ++ [⟨.mark (ending r), a⟩])) k') : a = .ok () := by
  obtain ⟨k₁, -, hrest⟩ := serves_cons.mp hk
  obtain ⟨k₂, -, hend⟩ := serves_append.mp hrest
  obtain ⟨k₃, hm, -⟩ := serves_cons.mp hend
  cases r with
  | ok v => exact hm.1
  | error f => exact hm.1

theorem eq_of_savepoint {body : Task σ α} (h : Goes (savepoint body) s t o s')
    (hk : Serves k t k') : ∃ u,
      t = ⟨.mark .savepoint, .ok ()⟩ :: (u ++ [⟨.mark (ending o), .ok ()⟩]) ∧
      Goes body s u o s' := by
  rcases goes_savepoint.mp h with ⟨e, rfl, -, -⟩ | ⟨u, v, a, rfl, hu, rfl⟩ | ⟨u, f, a, rfl, hu, rfl⟩
  · obtain ⟨k₁, hm, -⟩ := serves_cons.mp hk
    cases hm.1
  · obtain rfl := ok_of_ending (.ok v : Except Failure α) hk
    exact ⟨u, rfl, hu⟩
  · obtain rfl := ok_of_ending (.error f : Except Failure α) hk
    exact ⟨u, rfl, hu⟩

/-- The exchanges of an elevation around those of its block. -/
def around (questions : List Exchange) (group member : String) (rows : List Row)
    (u : List Exchange) (o : Except Failure α) (b : Except DriverError (List Row)) :
    List Exchange :=
  questions ++ ⟨.execute (.change (.grantMembership [group] member)), .ok rows⟩ ::
    (⟨.mark .savepoint, .ok ()⟩ :: (u ++ [⟨.mark (ending o), .ok ()⟩]) ++
      [⟨.execute (.change (.revokeMembership [group] member)), b⟩])

/-- A block that finds the new membership and leaves it lets it be taken back without a trace. -/
theorem serves_around {rows : List Row} {b : Except DriverError (List Row)}
    (ht : ∀ y ∈ t, y.isQuestion = true) (hk : Serves k (around t group member rows u o b) k') :
    ∃ k₁, Serves (k.after (.grantMembership [group] member)).save u k₁ ∧
      ((group, member) ∉ k.members → k₁ = (k.after (.grantMembership [group] member)).save →
        b.toBool = true → k' = k) := by
  obtain ⟨k₀, hasked, hrest⟩ := serves_append.mp hk
  obtain rfl := Roster.eq_of_questions hasked ht
  obtain ⟨_, rfl, hrest⟩ := serves_cons.mp hrest
  rw [List.cons_append, List.append_assoc] at hrest
  obtain ⟨_, ⟨-, rfl⟩, hinner⟩ := serves_cons.mp hrest
  obtain ⟨k₁, hu, hend⟩ := serves_append.mp hinner
  refine ⟨k₁, hu, fun hfresh he hb => ?_⟩
  subst he
  obtain ⟨k₂, hm, hlast⟩ := serves_cons.mp hend
  obtain ⟨k₃, hr, hnil⟩ := serves_cons.mp hlast
  obtain rfl := serves_nil.mp hnil
  have hleft : k₂ = k₀.after (.grantMembership [group] member) := by
    cases o with
    | ok v => exact hm.2.trans (Roster.release_save _)
    | error f => exact hm.2.trans (Roster.restore_save _)
  cases b with
  | error e => cases hb
  | ok found =>
    rw [hleft] at hr
    exact hr.trans (Roster.after_grant_revoke hfresh)

/-- Where a membership was granted, the elevation adds it in front and takes it back at the end. -/
theorem Unwinds.held {rows : List Row} {b : Except DriverError (List Row)} {k₀ k₁ : Roster}
    (h₀ : Goes (elevationFor role actor) s t (.ok (some (group, member))) s)
    (h : Unwinds roles actor block s u r s' k₀ k₁ entry inside exit o)
    (hk : k₁ = k₀ → b.toBool = true → k' = k) :
    Unwinds (role :: roles) actor block s (around t group member rows u r b)
      (takenBack (revokeIntent group member) b r) s' k k'
      (t ++ [⟨.execute (.change (.grantMembership [group] member)), .ok rows⟩,
        ⟨.mark .savepoint, .ok ()⟩] ++ entry) inside
      (exit ++ [⟨.mark (ending r), .ok ()⟩,
        ⟨.execute (.change (.revokeMembership [group] member)), b⟩]) o where
  parts := by simp [around, h.parts]
  entered := by
    have ha := acquire_held rows h₀
    rcases h.entered with ⟨hentry, hblock⟩ | ⟨rfl, rfl, f, rfl, hentry, hall⟩
    · exact .inl ⟨acquireAll_cons ha hentry, hblock⟩
    · refine .inr ⟨rfl, rfl, f, rfl, acquireAll_cons ha hentry, fun other => ?_⟩
      exact (Elevates.held h₀ (savepoint_goes (hall other))).goes
  taken := by
    have hgiven := Exchange.given?_of_questions ((Block.elevationFor role actor).asks h₀).2
    rw [List.filterMap_append, h.taken, List.append_assoc, List.filterMap_append, hgiven]
    exact List.reverse_cons.symm
  restored he := by
    rw [List.filterMap_append] at he
    obtain ⟨hexit, hlast⟩ := List.append_eq_nil_iff.mp he
    obtain ⟨hsame, rfl⟩ := h.restored hexit
    cases b with
    | error e => cases hlast
    | ok found =>
      refine ⟨hk hsame rfl, ?_⟩
      cases r with
      | ok v => rfl
      | error f => rfl
  noted f hf hall := by
    rw [List.filterMap_append] at hall ⊢
    obtain ⟨hexit, hlast⟩ := List.forall_mem_append.mp hall
    rw [h.noted f hf hexit, List.map_append, ← List.append_assoc]
    cases b with
    | ok found =>
      exact congrArg (fun notes => Except.error { f with notes := notes }) (List.append_nil _).symm
    | error e =>
      have hfinds : (e.toError (revokeIntent group member)).isFinding = true :=
        hlast _ (List.mem_singleton_self _)
      show Except.error (if (e.toError _).isFinding then _ else _) = _
      rw [if_pos hfinds]
      rfl

end Build

/-- Elevations around a block that leaves the memberships alone, one inside the other. -/
theorem exists_unwinds {names : List String} {actor : String} {block : Task σ α}
    (hb : LeavesRoster block) {r : Except Failure α} {k k' : Roster}
    (hg : Goes (nested (.text actor) block (names.map .text)) s t r s') (hk : Serves k t k') :
    ∃ entry inside exit o, Unwinds (names.map .text) (.text actor) block s t r s' k k'
      entry inside exit o := by
  induction names generalizing t r s' k k' with
  | nil =>
    refine ⟨[], t, [], r, ?_, .inl ⟨goes_pure.mpr ⟨rfl, rfl, rfl⟩, hg⟩, rfl,
      fun _ => ⟨hb _ _ _ _ _ _ hg hk, rfl⟩, ?_⟩
    · simp
    · rintro f rfl -
      simp
  | cons name names ih =>
    have asked {u : List Exchange} {m : Except Failure (Option (String × String))}
        (h : Goes (elevationFor (.text name) (.text actor)) s u m s) :
        ∀ y ∈ u, y.isQuestion = true :=
      ((Block.elevationFor (.text name) (.text actor)).asks h).2
    cases goes_elevated hg with
    | failed h₀ =>
      exact ⟨_, _, _, _, .stopped (acquire_failed h₀) (Exchange.given?_of_questions (asked h₀))
        (Roster.eq_of_questions hk (asked h₀)) fun other => (Elevates.failed h₀).goes⟩
    | needless h₀ h =>
      obtain ⟨k₁, hk₁, hk₂⟩ := serves_append.mp hk
      obtain rfl := Roster.eq_of_questions hk₁ (asked h₀)
      obtain ⟨entry, inside, exit, o, hu⟩ := ih h hk₂
      exact ⟨_, _, _, _, hu.needless h₀⟩
    | refused h₀ =>
      obtain ⟨k₁, hk₁, hk₂⟩ := serves_append.mp hk
      obtain ⟨_, rfl, hnil⟩ := serves_cons.mp hk₂
      refine ⟨_, _, _, _, .stopped (acquire_refused h₀) ?_ ?_ fun other =>
        (Elevates.refused h₀).goes⟩
      · rw [List.filterMap_append, Exchange.given?_of_questions (asked h₀)]
        rfl
      · exact (serves_nil.mp hnil).trans (Roster.eq_of_questions hk₁ (asked h₀))
    | held h₀ h =>
      obtain ⟨k₀, hk₀, hk₁⟩ := serves_append.mp hk
      obtain ⟨_, -, hk₂⟩ := serves_cons.mp hk₁
      obtain ⟨k₃, hsp, -⟩ := serves_append.mp hk₂
      obtain ⟨u, rfl, hinner⟩ := eq_of_savepoint h hsp
      rcases elevationFor_fresh h₀ hk₀ with hnone | ⟨hm, hfresh⟩
      · cases hnone
      · cases hm
        obtain ⟨k₄, hserves, hback⟩ := serves_around (asked h₀) hk
        obtain ⟨entry, inside, exit, o, hu⟩ := ih hinner hserves
        exact ⟨_, _, _, _, hu.held h₀ (hback hfresh)⟩

/-- Whatever roles are asked for, and however the acquisitions and the block go: where everything
that was acquired could be taken back, the memberships are those from before and the outcome is the
block's; a failure stays one, and tells what could not be taken back. -/
theorem elevatedAll_unwinds {roles : List String} {actor : String} {block : Task σ α}
    (hb : LeavesRoster block) {r : Except Failure α} {k k' : Roster}
    (hg : Goes (elevatedAll (roles.map .text) (.text actor) block) s t r s')
    (hk : Serves k t k') : ∃ entry inside exit o,
    Unwinds (targets roles) (.text actor) block s t r s' k k' entry inside exit o :=
  exists_unwinds hb (elevatedAll_texts roles _ block ▸ hg) hk

/-! ## A removal that is refused -/

def removal : Task Unit Unit := Catalog.change (.dropSchema "s" false) "dropping schema s"

theorem leavesRoster_removal : LeavesRoster removal :=
  Block.leavesRoster (a := ⟨fun c => c = .dropSchema "s" false, False, False, False⟩)
    (fun _ hc _ => hc ▸ rfl) id id (.send rfl _)

def inUse : DriverError := ⟨some { message := "schema s is in use" }⟩

def readOnly : DriverError := ⟨some { message := "read only" }⟩

/-- Neither the schema nor a membership can be taken away. -/
def keepingAnswer : (q : Request) → q.Answer
  | .execute (.change (.dropSchema ..)) => .error inUse
  | .execute (.change (.revokeMembership ..)) => .error readOnly
  | q => q.granted

def keptRun : List Exchange :=
  [⟨.execute (.query (.hasRole (.text "me") (.text "a"))), .ok [[.bool false]]⟩,
    ⟨.execute (.query (.revocableMembership (.text "me") (.text "a"))), .ok [[.bool false]]⟩,
    ⟨.execute (.change (.grantMembership ["a"] "me")), .ok []⟩, ⟨.mark .savepoint, .ok ()⟩,
    ⟨.execute (.query (.hasRole (.text "me") (.text "b"))), .ok [[.bool false]]⟩,
    ⟨.execute (.query (.revocableMembership (.text "me") (.text "b"))), .ok [[.bool false]]⟩,
    ⟨.execute (.change (.grantMembership ["b"] "me")), .ok []⟩, ⟨.mark .savepoint, .ok ()⟩,
    ⟨.execute (.change (.dropSchema "s" false)), .error inUse⟩, ⟨.mark .rollbackTo, .ok ()⟩,
    ⟨.execute (.change (.revokeMembership ["b"] "me")), .error readOnly⟩,
    ⟨.mark .rollbackTo, .ok ()⟩,
    ⟨.execute (.change (.revokeMembership ["a"] "me")), .error readOnly⟩]

/-- The schema is in use, and both memberships stay. -/
def keptFailure : Failure :=
  ⟨.statement "dropping schema s" "schema s is in use",
    ["Error revoking membership in role b from role me: read only",
      "Error revoking membership in role a from role me: read only"]⟩

theorem targets_kept : targets ["b", "", "me", "a", "b"] = ["a", "b", "me"].map .text := by
  have hnamed : (["b", "", "me", "a", "b"].filter fun role : String => !role.isEmpty).eraseDups =
      ["b", "me", "a"] := by decide
  rw [targets, hnamed]
  simp [sortNames, List.mergeSort]

theorem goes_keptRun : Goes (elevatedAll (["b", "", "me", "a", "b"].map .text) (.text "me") removal)
    { session := {}, work := () } keptRun (.error keptFailure) { session := {}, work := () } := by
  rw [elevatedAll_texts, targets_kept]
  exact goes_exchanges keepingAnswer _ _

/-- Nobody was a member of anything. -/
def newRoster : Roster := ⟨∅, []⟩

theorem serves_keptRun : ∃ k', Serves newRoster keptRun k' := by
  have untrue {k : Roster} {group : String} (h : (group, "me") ∉ k.members) :
      k.Tells (.revocableMembership (.text "me") (.text group)) [[.bool false]] := fun v hv => by
    cases hv
    exact iff_of_false (by decide) h
  refine ⟨_, .cons ⟨rfl, trivial⟩ (.cons ⟨rfl, untrue ?_⟩ (.cons rfl (.cons ⟨rfl, rfl⟩ (.cons
    ⟨rfl, trivial⟩ (.cons ⟨rfl, untrue ?_⟩ (.cons rfl (.cons ⟨rfl, rfl⟩ (.cons rfl (.cons ⟨rfl, rfl⟩
    (.cons rfl (.cons ⟨rfl, rfl⟩ (.cons rfl .nil))))))))))))⟩
  · exact fun h => h
  · simp [Roster.save, Roster.after, Roster.inAll, newRoster]

theorem elevatedAll_unwinds_kept : ∃ k' entry inside exit o,
    Unwinds (targets ["b", "", "me", "a", "b"]) (.text "me") removal { session := {}, work := () }
      keptRun (.error keptFailure) { session := {}, work := () } newRoster k'
      entry inside exit o := by
  obtain ⟨k', hk⟩ := serves_keptRun
  exact ⟨k', elevatedAll_unwinds leavesRoster_removal goes_keptRun hk⟩

end Task

end DeclaredAccess
