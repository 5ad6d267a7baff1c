import DeclaredAccess.Proofs.Operation.Accounting
import DeclaredAccess.Proofs.Operation.Failure
import DeclaredAccess.Proofs.Operation.Nesting

/-! What the operations may fail with. No resource and no server brings one into conflict with
itself; and where the server keeps to what it is asked for, every error of the driver comes out of
the operation as the error that stands for it, unless the driver has nothing to say. -/

namespace DeclaredAccess

open DeclaredAccess.Task (Goes Surfaces Forgives Forgiven)

variable {k : Prop} {c : Client}

namespace Operation

/-- Whether what is missing is no failure of the operation. -/
def forgives : Operation → Bool
  | deleteGrant | deleteSchema | deleteExtension => true
  | _ => false

theorem surfaces_quiet {s : Standing Resource} {x : Task Resource Unit}
    (h : Surfaces k x s fun _ => True) : Surfaces k (run.quiet x) s fun _ => True :=
  .bind h fun _ _ _ => .pure trivial

theorem surfaces_run {s : Standing Resource} (hc : k → c.Writable) (hs : k → s.work.Typed)
    {op : Operation} (h : op.forgives = false) : Surfaces k (op.run c) s fun _ => True := by
  cases op with
  | createGrant | updateGrant => exact surfaces_quiet (Grant.surfaces_create hc hs)
  | readGrant => exact surfaces_quiet (Grant.surfaces_read hs)
  | createSchema => exact surfaces_quiet (Schema.surfaces_create hc hs)
  | readSchema => exact surfaces_quiet (Schema.surfaces_read hc hs)
  | updateSchema => exact surfaces_quiet (Schema.surfaces_update hc hs)
  | schemaExists => exact Schema.surfaces_exists hc hs
  | createMembership => exact surfaces_quiet (Membership.surfaces_create hs)
  | readMembership => exact surfaces_quiet (Membership.surfaces_read hs)
  | updateMembership => exact surfaces_quiet (Membership.surfaces_update hs)
  | deleteMembership => exact surfaces_quiet (Membership.surfaces_delete hs)
  | createExtension => exact surfaces_quiet (Extension.surfaces_create hc hs)
  | readExtension => exact surfaces_quiet (Extension.surfaces_read hc hs)
  | updateExtension => exact surfaces_quiet (Extension.surfaces_update hc hs)
  | extensionExists =>
    exact .bind (Extension.surfaces_exists hc hs) fun _ _ _ => .pure trivial
  | deleteGrant | deleteSchema | deleteExtension => cases h

theorem forgives_run {s : Standing Resource} (hc : k → c.Writable) (hs : k → s.work.Typed)
    {op : Operation} (h : op.forgives = true) :
    ∃ x, op.run c = run.quiet x ∧ Forgives k x s := by
  cases op with
  | deleteGrant => exact ⟨_, rfl, Grant.forgives_delete hc hs⟩
  | deleteSchema => exact ⟨_, rfl, Schema.forgives_delete hc hs⟩
  | deleteExtension => exact ⟨_, rfl, Extension.forgives_delete hc hs⟩
  | _ => cases h

/-- However an operation goes, it does not fail with a conflict, and where `k` holds, its outcome is
accounted for. -/
theorem outcome_run {s s' : Standing Resource} {t : List Exchange} {r : Except Failure Value}
    {op : Operation} (hc : k → c.Writable) (hs : k → s.work.Typed) (hg : Goes (op.run c) s t r s')
    (hr : k → ∀ y ∈ t, y.IsRegular) : match r with
      | .ok _ => k → faults t = [] ∨ op.forgives = true ∧ Forgiven (faults t)
      | .error f => Fails k (faults t) f := by
  cases h : op.forgives with
  | false =>
    have hrun := surfaces_run hc hs h _ _ _ hg hr
    cases r with
    | ok v => exact fun hk => .inl (hrun.1 hk)
    | error f => exact hrun
  | true =>
    obtain ⟨x, hx, hforgives⟩ := forgives_run (s := s) hc hs h
    rw [hx] at hg
    cases r with
    | ok v =>
      have hrun := hforgives _ _ _ (goes_quiet_ok hg) hr
      exact fun hk => (hrun hk).imp_right fun hf => ⟨rfl, hf⟩
    | error f => exact hforgives _ _ _ (goes_quiet_error hg) hr

/-- No operation ends in a conflict, whatever its resource and whatever is answered: the check of
an access control list succeeds for every entry and for every declaration, those of one role can
be merged, and what is granted can be held where it is granted. -/
theorem never_conflicting (op : Operation) (c : Client) (s s' : Standing Resource)
    (t : List Exchange) (f : Failure) (h : Goes (op.run c) s t (.error f) s') :
    f.error.isConflict = false ∧
    (∀ (role grantor : String) (held : List (Privilege × Bool)),
      Acl.make role (.ofList (held.map (·.1))) (.ofList ((held.filter (·.2)).map (·.1))) grantor =
        .ok (Acl.Entry.ofHoldings role held grantor)) ∧
    (∀ acls : List Acl, ∃ m, Acl.byRole acls = .ok m) ∧
    (∀ v ds, Declaration.ofBlocks v = .ok ds → ∃ m, Declaration.byRole ds = .ok m ∧
      ∀ e ∈ m, ∀ name, ∃ a l, e.2.toAcl = .ok a ∧ a.grants (Schema.target name) = .ok l) ∧
    ∀ (r : Resource) (g : Grant),
      Grant.applied r = .ok g ∨ (∃ named, Grant.ofResource r named = .ok g) →
      ∃ a l, g.declaration.toAcl = .ok a ∧ a.grants g.target = .ok l := by
  have run : Fails False (faults t) f := outcome_run False.elim False.elim h False.elim
  refine ⟨run.1, fun role grantor held => Acl.make_eq_ok_iff.mpr ⟨rfl, rfl, rfl, rfl⟩,
    Acl.exists_byRole, fun v ds hds => ?_, fun r g hg => ?_⟩
  · obtain ⟨m, hm, hi⟩ := Declaration.exists_byRole (Declaration.ofPolicy_of_ofBlocks hds)
    refine ⟨m, hm, fun e he name => ?_⟩
    have fits : e.2.Fits (Schema.target name).kind := (hi.entry e he).2.fits
    obtain ⟨a, ha, _, hl⟩ := Declaration.exists_toAcl fits
    exact ⟨a, _, ha, hl⟩
  · have placed : g.privileges ⊆ g.kind.allowed := by
      rcases hg with hg | ⟨named, hg⟩
      · exact (Grant.placed_of_applied hg).1
      · exact (Grant.placed_of_declared hg).1
    obtain ⟨a, ha⟩ := g.exists_toAcl
    obtain ⟨l, hl⟩ := Grant.exists_grants placed ha
    exact ⟨a, l, ha, hl⟩

/-- A server that holds a list of entries for one role in two spellings, and no text as the owner. -/
def ownerlessEntries : (q : Request) → q.Answer
  | .execute (.query (.schema _)) =>
    .ok [[.int 5, .list [.text "app=U*/owner", .text "APP=C/owner"]]]
  | q => q.granted

def failedReading : List Exchange :=
  [⟨.acquire .read, ()⟩, ⟨.openEngine "app" (some ⟨4, 0, 180, "sync-grants"⟩), ()⟩,
    ⟨.connect "app", .ok ⟨"postgresql", "psycopg", some [16, 2]⟩⟩, ⟨.mark .begin, .ok ()⟩,
    ⟨.execute (.query (.schema (.text "s"))),
      .ok [[.int 5, .list [.text "app=U*/owner", .text "APP=C/owner"]]]⟩,
    ⟨.mark .rollback, .ok ()⟩, ⟨.disconnect, ()⟩, ⟨.release .read, ()⟩]

theorem goes_failedReading : Goes (readSchema.run .admin) ownedSchema failedReading
    (.error (Failure.of (.shape (.noLetters (.int 5)))))
    { session := { engines := [("app", 0)], engineCount := 1 }, work := ownedSchema.work } :=
  Task.goes_exchanges ownerlessEntries _ _

/-- The entries of one role are merged before the reading fails. -/
theorem never_conflicting_read :
    (Error.shape (.noLetters (.int 5))).isConflict = false ∧
      ∃ m, Acl.byRole [{ role := "app" }, { role := "APP" }] = .ok m :=
  have h := never_conflicting _ _ _ _ _ _ goes_failedReading
  ⟨h.1, h.2.2.1 _⟩

/-- The driver's errors come out of every operation as the errors that stand for them, unless the
driver was silent: then, and only then, the failure is that there was no line to quote. -/
theorem faults_surface (op : Operation) (c : Client) (s s' : Standing Resource)
    (t : List Exchange) (r : Except Failure Value) (hc : c.Writable) (hs : s.work.Typed)
    (hr : ∀ y ∈ t, y.IsRegular) (h : Goes (op.run c) s t r s') :
    ((∃ y ∈ faults t, y.isSilent = true) ↔ ∃ f, r = .error f ∧ f.error = .shape .noLine) ∧
    ((∀ y ∈ faults t, y.isSilent = false) → match r with
      | .ok _ => faults t = [] ∨ op.forgives = true ∧ Forgiven (faults t)
      | .error f => f.error.isFinding = true ∧ Translates (faults t) f) := by
  have run := outcome_run (k := True) (fun _ => hc) (fun _ => hs) h fun _ => hr
  cases r with
  | ok v =>
    have clean := run trivial
    refine ⟨iff_of_false ?_ fun ⟨f, hf, _⟩ => (nomatch hf), fun _ => clean⟩
    rintro ⟨y, hy, hsilent⟩
    rcases clean with hnil | ⟨_, haudible, _⟩
    · rw [hnil] at hy
      cases hy
    · cases hsilent.symm.trans (haudible y hy)
  | error f =>
    rcases run.2 trivial with ⟨⟨y, hy, hsilent⟩, he⟩ | htr
    · refine ⟨iff_of_true ⟨y, hy, hsilent⟩ ⟨f, rfl, he⟩, fun haudible => ?_⟩
      cases hsilent.symm.trans (haudible y hy)
    · refine ⟨iff_of_false ?_ ?_, fun _ => ⟨htr.isFinding, htr⟩⟩
      · rintro ⟨y, hy, hsilent⟩
        cases hsilent.symm.trans (htr.audible y hy)
      · rintro ⟨f', hf, he⟩
        cases hf
        have finding := htr.isFinding
        rw [he] at finding
        cases finding

/-- The server's word that objects in the schema are in the way, and that the connection is over. -/
def objectsLeft : DriverError :=
  ⟨some { message := "cannot drop schema s\nDETAIL: table a depends on it", sqlstate := "2BP01" }⟩

def terminated : DriverError :=
  ⟨some { message := "terminating connection", sqlstate := "57P01" }⟩

/-- A server that drops no schema and revokes no membership. -/
def refusingAnswer : (q : Request) → q.Answer
  | .execute (.change (.dropSchema ..)) => .error objectsLeft
  | .execute (.change (.revokeMembership ..)) => .error terminated
  | q => q.granted

def refusedRemoval : List Exchange :=
  [⟨.acquire .write, ()⟩, ⟨.openEngine "app" (some ⟨4, 0, 180, "sync-grants"⟩), ()⟩,
    ⟨.connect "app", .ok ⟨"postgresql", "psycopg", some [16, 2]⟩⟩, ⟨.mark .begin, .ok ()⟩,
    ⟨.execute (.query (.hasRole (.text "admin") (.text "owner"))), .ok [[.bool false]]⟩,
    ⟨.execute (.query (.revocableMembership (.text "admin") (.text "owner"))), .ok [[.bool false]]⟩,
    ⟨.execute (.change (.grantMembership ["owner"] "admin")), .ok []⟩, ⟨.mark .savepoint, .ok ()⟩,
    ⟨.execute (.change (.dropSchema "s" false)), .error objectsLeft⟩, ⟨.mark .rollbackTo, .ok ()⟩,
    ⟨.execute (.change (.revokeMembership ["owner"] "admin")), .error terminated⟩,
    ⟨.mark .rollback, .ok ()⟩, ⟨.disconnect, ()⟩, ⟨.release .write, ()⟩]

def refusal : Failure :=
  ⟨.statement "dropping schema s" "cannot drop schema s",
    ["Error revoking membership in role owner from role admin: terminating connection"]⟩

theorem goes_refusedRemoval : Goes (deleteSchema.run .admin) ownedSchema refusedRemoval
    (.error refusal)
    { session := { engines := [("app", 0)], engineCount := 1 }, work := ownedSchema.work } :=
  Task.goes_exchanges refusingAnswer _ _

theorem writable_admin : Client.admin.Writable := ⟨by decide, by decide⟩

theorem typed_ownedSchema : ownedSchema.work.Typed where
  id := by decide
  values := Fields.typed_of_texts (List.forall_mem_cons.mpr ⟨⟨by decide, "s", rfl, by decide⟩,
    List.forall_mem_singleton.mpr ⟨by decide, "owner", rfl, by decide⟩⟩)
  previous _ h := nomatch h

theorem regular_refusedRemoval : ∀ y ∈ refusedRemoval, y.IsRegular := by
  simp only [refusedRemoval, List.forall_mem_cons]
  exact ⟨trivial, trivial, ⟨_, rfl, rfl⟩, .inr rfl, ⟨_, rfl⟩, ⟨_, rfl⟩, trivial, .inr rfl, trivial,
    .inr rfl, trivial, .inr rfl, trivial, trivial, nofun⟩

/-- The schema that cannot be dropped is the failure, and the membership that cannot be taken back
a note to it. -/
theorem faults_surface_refused : refusal.error.isFinding = true ∧
    Translates [.statement (.change (.dropSchema "s" false)) objectsLeft,
      .statement (.change (.revokeMembership ["owner"] "admin")) terminated] refusal :=
  (faults_surface _ _ _ _ _ _ writable_admin typed_ownedSchema regular_refusedRemoval
    goes_refusedRemoval).2 (by decide)

/-- An extension, as it was last applied. -/
def appliedExtension : Standing Resource where
  session := {}
  work := { id := "app.hstore", values := [("name", .text "hstore"), ("database", .text "app")] }

/-- The server's word that something is missing, without a text. -/
def unnamed : DriverError := ⟨some { message := "", sqlstate := "42704" }⟩

def silentAnswer : (q : Request) → q.Answer
  | .execute (.change (.dropExtension _)) => .error unnamed
  | q => q.granted

def silentRemoval : List Exchange :=
  [⟨.openEngine "app" (some ⟨4, 0, 180, "sync-grants"⟩), ()⟩,
    ⟨.connect "app", .ok ⟨"postgresql", "psycopg", some [16, 2]⟩⟩, ⟨.disconnect, ()⟩,
    ⟨.acquire .write, ()⟩, ⟨.connect "app", .ok ⟨"postgresql", "psycopg", some [16, 2]⟩⟩,
    ⟨.mark .begin, .ok ()⟩, ⟨.execute (.change (.dropExtension "hstore")), .error unnamed⟩,
    ⟨.mark .rollback, .ok ()⟩, ⟨.disconnect, ()⟩, ⟨.release .write, ()⟩]

theorem goes_silentRemoval : Goes (deleteExtension.run .admin) appliedExtension silentRemoval
    (.error (Failure.of (.shape .noLine)))
    { session := { version := some ⟨16, 2, 0⟩, engines := [("app", 0)], engineCount := 1 }
      work := appliedExtension.work } :=
  Task.goes_exchanges silentAnswer _ _

/-- An extension that is missing, as the server says without a text, is no finding: the removal
fails for want of a line to quote. -/
theorem silent_fault_is_no_finding : ¬∀ (op : Operation) (c : Client) (s s' : Standing Resource)
    (t : List Exchange) (f : Failure), c.Writable → s.work.Typed → (∀ y ∈ t, y.IsRegular) →
    Goes (op.run c) s t (.error f) s' → f.error.isFinding = true := by
  intro h
  have typed : appliedExtension.work.Typed :=
    ⟨by decide, Fields.typed_of_texts (List.forall_mem_cons.mpr ⟨⟨by decide, "hstore", rfl,
      by decide⟩, List.forall_mem_singleton.mpr ⟨by decide, "app", rfl, by decide⟩⟩), nofun⟩
  have regular : ∀ y ∈ silentRemoval, y.IsRegular := by
    simp only [silentRemoval, List.forall_mem_cons]
    exact ⟨trivial, ⟨_, rfl, rfl⟩, trivial, trivial, ⟨_, rfl, rfl⟩, .inr rfl, trivial, .inr rfl,
      trivial, trivial, nofun⟩
  have finding := h _ _ _ _ _ _ writable_admin typed regular goes_silentRemoval
  cases finding

end Operation

end DeclaredAccess
