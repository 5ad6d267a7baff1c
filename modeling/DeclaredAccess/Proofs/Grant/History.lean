import DeclaredAccess.Proofs.Grant.Steps
import DeclaredAccess.Proofs.Session.Transcript

/-! A grant's identifier and what the role holds, over every run of operations on one resource. The
identifier tells the target that privileges were last granted on, and a removal takes them from there
alone. An update grants on the new target and takes nothing from the old one, so what it leaves
behind is covered no longer; and a removal takes anything that is said to be missing for a sign that
nothing is left. Only in these two ways can a step leave something held that the identifier does not
cover. -/

namespace DeclaredAccess

open DeclaredAccess.Task (Goes)
open Ledger (Follows)
open Server (serves_append)

variable {c : Client} {p : Scope} {k k' : Ledger} {t : List Exchange} {s s' : Standing Resource}

/-- One operation on a resource, with what was held before it and after it. -/
structure Step where
  operation : Operation
  before : Resource
  held : String → Prop
  exchanges : List Exchange
  outcome : Except Failure Value
  after : Resource
  held' : String → Prop

namespace Step

def Returned (st : Step) : Prop := ∃ v, st.outcome = .ok v

def Covered (p : Scope) (st : Step) : Prop := DeclaredAccess.Covered p st.after.id st.held'

/-- The step has made its grant while something was held that the new identifier does not cover. -/
def Strands (p : Scope) (st : Step) : Prop :=
  ¬Uncommitted st.exchanges ∧
    ∃ g, Grant.ofResource st.before = .ok g ∧ ∃ o, st.held o ∧ ¬Covers p g.id o

/-- The step has returned and taken nothing of what was held, since it was told that something other
than its target is missing. -/
def Forgets (st : Step) : Prop :=
  st.Returned ∧ Uncommitted st.exchanges ∧ FindsOtherMissing st.exchanges ∧ ∃ o, st.held o

def Lapses (p : Scope) (st : Step) : Prop :=
  match st.operation with
  | .createGrant | .updateGrant => st.Strands p
  | .deleteGrant => st.Forgets
  | _ => False

/-- Where the condition holds the step leaves something uncovered, and elsewhere it keeps the
record. -/
def HingesOn (p : Scope) (st : Step) (l : Prop) : Prop :=
  (¬l → Recorded p st.after.id st.held') ∧ (l → ¬st.Covered p)

theorem hingesOn_of_not {st : Step} {l : Prop} (hr : Recorded p st.after.id st.held') (hl : ¬l) :
    st.HingesOn p l :=
  ⟨fun _ => hr, fun h => absurd h hl⟩

end Step

/-- The operations on grants. -/
def Operation.onGrant : List Operation := [.createGrant, .readGrant, .updateGrant, .deleteGrant]

/-- `Run c p steps r held`: from a time when nothing was held, the steps have led to the resource `r`
and to what is held now. Between two steps a declaration may become any other one in the scope, and
only these steps change what is held. -/
inductive Run (c : Client) (p : Scope) : List Step → Resource → (String → Prop) → Prop
  | start (r : Resource) : Run c p [] r fun _ => False
  | step {steps : List Step} {r : Resource} {held : String → Prop} (h : Run c p steps r held)
    {op : Operation} (hop : op ∈ Operation.onGrant) {s s' : Standing Resource}
    (hid : s.work.id = r.id) (hd : p.Describes s.work) {t : List Exchange}
    {o : Except Failure Value} (hg : Goes (op.run c) s t o s') {k : Ledger}
    (hk : Follows p { kept := held } t k) :
    Run c p (steps ++ [⟨op, s.work, held, t, o, s'.work, k.kept⟩]) s'.work k.kept

namespace Operation

variable {op : Operation} {o : Except Failure Value}

theorem create_hinges (hd : p.Describes s.work) (hg : Goes (run.quiet (Grant.create c)) s t o s')
    (hk : Follows p k t k') (hr : Recorded p s.work.id k.kept) :
    let st : Step := ⟨op, s.work, k.kept, t, o, s'.work, k'.kept⟩
    st.HingesOn p (st.Strands p) := by
  obtain ⟨r, h, _⟩ := goes_quiet_iff.mp hg
  rcases Grant.create_step hd h hk hr with ⟨hu, hrec⟩ | ⟨hu, g, hx, hkeep, hlose⟩
  · exact Step.hingesOn_of_not hrec fun hl => hl.1 hu
  · constructor
    · intro hn
      refine hkeep fun q hq => Classical.byContradiction fun hc => ?_
      exact hn ⟨hu, g, hx, q, hq, hc⟩
    · intro ⟨_, g', hx', q, hq, hc⟩
      cases hx.symm.trans hx'
      exact hlose q hq hc

theorem delete_hinges (hd : p.Describes s.work) (hg : Goes (run.quiet (Grant.delete c)) s t o s')
    (hk : Follows p k t k') (hr : Recorded p s.work.id k.kept) :
    let st : Step := ⟨op, s.work, k.kept, t, o, s'.work, k'.kept⟩
    st.HingesOn p st.Forgets := by
  obtain ⟨r, h, rfl⟩ := goes_quiet_iff.mp hg
  rcases Grant.delete_step hd h hk hr with ⟨⟨f, rfl⟩, hrec⟩ | ⟨rfl, hi, ⟨hz, hn⟩ | ⟨hu, hm, hh⟩⟩
  · refine Step.hingesOn_of_not hrec fun ⟨⟨_, hv⟩, _⟩ => ?_
    cases hv
  · exact Step.hingesOn_of_not (.inl hz) fun ⟨_, hu, _, q, hq⟩ => hn hu q hq
  · constructor
    · intro hn
      show Recorded p _ k'.kept
      rw [hh]
      exact .inl fun q hq => hn ⟨⟨.null, rfl⟩, hu, hm, q, hq⟩
    · intro ⟨_, _, _, q, hq⟩ hcov
      have hheld : k'.kept q := hh ▸ hq
      exact hcov.2 hi q hheld

theorem grant_hinges (hop : op ∈ onGrant) (hd : p.Describes s.work)
    (hg : Goes (op.run c) s t o s') (hk : Follows p k t k') (hr : Recorded p s.work.id k.kept) :
    let st : Step := ⟨op, s.work, k.kept, t, o, s'.work, k'.kept⟩
    st.HingesOn p (st.Lapses p) := by
  cases op with
  | createGrant => exact create_hinges hd hg hk hr
  | updateGrant => exact create_hinges hd hg hk hr
  | readGrant =>
    obtain ⟨r, h, _⟩ := goes_quiet_iff.mp hg
    exact Step.hingesOn_of_not (Grant.read_step hd h hk hr) id
  | deleteGrant => exact delete_hinges hd hg hk hr
  | _ => exact absurd hop (by decide)

end Operation

namespace Run

theorem recorded {steps : List Step} {r : Resource} {held : String → Prop}
    (h : Run c p steps r held) (hn : ∀ st ∈ steps, ¬st.Lapses p) : Recorded p r.id held := by
  induction h with
  | start r => exact .inl fun _ h => h
  | step h hop hid hd hg hk ih =>
    have hr := ih fun st hst => hn st (List.mem_append_left _ hst)
    rw [← hid] at hr
    exact (Operation.grant_hinges hop hd hg hk hr).1 (hn _ (by simp))

/-- A run is covered wherever one looks exactly if no step lapses, so long as one looks at the steps
that do. -/
theorem covered_where_iff {q : Step → Prop} {steps : List Step} {r : Resource}
    {held : String → Prop} (h : Run c p steps r held) (hq : ∀ st ∈ steps, st.Lapses p → q st) :
    (∀ st ∈ steps, q st → st.Covered p) ↔ ∀ st ∈ steps, ¬st.Lapses p := by
  induction h with
  | start r => simp
  | step h hop hid hd hg hk ih =>
    simp only [List.forall_mem_append, List.forall_mem_singleton] at hq ⊢
    rw [ih hq.1]
    refine and_congr_right fun hn => ?_
    have hr := h.recorded hn
    rw [← hid] at hr
    obtain ⟨hkeep, hlose⟩ := Operation.grant_hinges hop hd hg hk hr
    exact ⟨fun hc hl => hlose hl (hc (hq.2 hl)), fun hl _ => (hkeep hl).covered⟩

/-- In every run, what is held is covered by the identifier after every step exactly if no step
lapses. Where no step lapses and then raises, this is so already of the steps that return. -/
theorem covered_iff_no_lapse {steps : List Step} {r : Resource} {held : String → Prop}
    (h : Run c p steps r held) :
    ((∀ st ∈ steps, st.Covered p) ↔ ∀ st ∈ steps, ¬st.Lapses p) ∧
      ((∀ st ∈ steps, st.Lapses p → st.Returned) →
        ((∀ st ∈ steps, st.Returned → st.Covered p) ↔ ∀ st ∈ steps, ¬st.Lapses p)) := by
  refine ⟨?_, h.covered_where_iff⟩
  have all := h.covered_where_iff (q := fun _ => True) fun _ _ _ => trivial
  simpa only [forall_const] using all

end Run

/-! ## A grant that moves to another table -/

namespace Ledger

theorem answers_revokeAll {t : Target} {role : String} {rows : List Row}
    (hc : p.Concerns k.database t role) :
    (server p).answers k ⟨.execute (.change (.revokeAll t role)), .ok rows⟩
      (k.write fun o => k.seen o ∧ ¬t.Includes o) := by
  show Alters p k (.revokeAll t role) _
  simp only [Alters, hc, if_true]

theorem answers_grant {privileges : PrivilegeSet} {t : Target} {role : String} {option : Bool}
    {rows : List Row} (hc : p.Concerns k.database t role) :
    (server p).answers k ⟨.execute (.change (.grant privileges t role option)), .ok rows⟩
      (k.write fun o => k.seen o ∨ o ∈ t.objects) := by
  show Alters p k (.grant privileges t role option) _
  simp only [Alters, hc, if_true]
  exact ⟨(· ∈ t.objects), fun _ h => h, fun _ h => .inr h, rfl⟩

theorem not_denies_true : ¬Denies [[.bool true]] := by
  intro h
  obtain ⟨v, hv, ht⟩ := h
  cases hv
  cases ht

end Ledger

/-- The role `alice` on the tables of a schema. -/
def aliceTables : Scope := ⟨"alice", "app", .table, "s"⟩

/-- A grant to `alice` on one table. -/
def tableGrant (id table : String) : Standing Resource where
  session := { version := some .assumed, engines := [("app", 0)], engineCount := 1 }
  work := { id, values := [("role", .text "alice"), ("database", .text "app"),
    ("object_type", .text "table"), ("schema", .text "s"), ("objects", .list [.text table]),
    ("privileges", .list [.text "SELECT"])] }

/-- A transaction on the database of `aliceTables`. -/
def transactionOn (u : List Exchange) (m : Marker) : List Exchange :=
  ⟨.connect "app", .ok ⟨"postgresql", "psycopg", some [16, 2]⟩⟩ :: ⟨.mark .begin, .ok ()⟩ ::
    (u ++ [⟨.mark m, .ok ()⟩, ⟨.disconnect, ()⟩])

def making (table : String) : List Exchange :=
  let t := aliceTables.target [table]
  [⟨.execute (.query (.relationOwners "s")), .ok []⟩,
    ⟨.execute (.query (.schema (.text "s"))), .ok []⟩,
    ⟨.execute (.change (.revokeAll t "alice")), .ok []⟩,
    ⟨.execute (.change (.grant ((∅ ∪ .ofList [.select]) \ ∅) t "alice" false)), .ok []⟩]

def lookingForRole : List Exchange :=
  [⟨.execute (.query (.roleExists "alice")), .ok [[.bool true]]⟩,
    ⟨.execute (.query (.databaseExists (.text "app"))), .ok [[.bool true]]⟩]

def lookingForSchema : List Exchange :=
  [⟨.execute (.query (.schemaExists (.text "s"))), .ok [[.bool true]]⟩]

def lookingForTable (table : String) : List Exchange :=
  [⟨.execute (.query (.objectPrivileges "alice" (aliceTables.target [table]))),
    .ok [[.text table, .text "SELECT", .bool false]]⟩]

/-- What is asked and answered when the grant is made on one table. -/
def grantExchanges (table : String) : List Exchange :=
  ⟨.acquire .write, ()⟩ :: (transactionOn (making table) .commit ++
    (transactionOn lookingForRole .rollback ++ (transactionOn lookingForSchema .rollback ++
      (transactionOn (lookingForTable table) .rollback ++ [⟨.release .write, ()⟩]))))

/-- A server on which everything exists, and every table that is asked for can be selected from. -/
def selectAnswer : (q : Request) → q.Answer
  | .execute (.query (.objectPrivileges _ t)) =>
    .ok (t.objects.map fun o => [.text o, .text "SELECT", .bool false])
  | q => q.granted

unseal List.mergeSort in
theorem goes_createGrant : Goes (Operation.createGrant.run .admin) (tableGrant "" "a")
    (grantExchanges "a") (.ok .null) (tableGrant "app.alice:table:s:a:SELECT" "a") :=
  Task.goes_exchanges selectAnswer _ _

unseal List.mergeSort in
theorem goes_updateGrant : Goes (Operation.updateGrant.run .admin)
    (tableGrant "app.alice:table:s:a:SELECT" "b") (grantExchanges "b") (.ok .null)
    (tableGrant "app.alice:table:s:b:SELECT" "b") :=
  Task.goes_exchanges selectAnswer _ _

namespace Ledger

theorem follows_transactionOn {u : List Exchange} {m : Marker} (h : Follows p (k.begun "app") u k') :
    Follows p k (transactionOn u m) (k'.mark m).closed :=
  .cons rfl (.cons rfl (serves_append.mpr ⟨k', h, .cons rfl (.cons rfl .nil)⟩))

theorem follows_looking {u : List Exchange} (h : Follows p (k.begun "app") u (k.begun "app")) :
    ∃ k', Follows p k (transactionOn u .rollback) k' ∧ k'.kept = k.kept :=
  ⟨_, follows_transactionOn h, rfl⟩

theorem follows_making (k : Ledger) (table : String) :
    Follows aliceTables (k.begun "app") (making table) ((k.begun "app").write fun o =>
      (k.kept o ∧ ¬(aliceTables.target [table]).Includes o) ∨ o ∈ [table]) :=
  .cons ⟨rfl, trivial⟩ (.cons ⟨rfl, trivial⟩ (.cons (answers_revokeAll ⟨rfl, rfl, .inr rfl⟩)
    (.cons (answers_grant ⟨rfl, rfl, .inr rfl⟩) .nil)))

theorem follows_lookingForTable (k : Ledger) (table : String) :
    Follows aliceTables (k.begun "app") (lookingForTable table) (k.begun "app") := by
  refine .cons ⟨rfl, fun _ o _ ho => ⟨_, List.mem_cons_self, ?_⟩⟩ .nil
  rcases ho with ho | ho
  · cases ho
  · rw [List.mem_singleton.mp ho]
    rfl

theorem follows_grantExchanges (held : String → Prop) (table : String) :
    ∃ k, Follows aliceTables { kept := held } (grantExchanges table) k ∧
      k.kept = fun o => (held o ∧ ¬(aliceTables.target [table]).Includes o) ∨ o ∈ [table] := by
  have role (k : Ledger) : Follows aliceTables (k.begun "app") lookingForRole (k.begun "app") :=
    .cons ⟨rfl, fun _ h => absurd h not_denies_true⟩
      (.cons ⟨rfl, fun _ h => absurd h not_denies_true⟩ .nil)
  have schema (k : Ledger) :
      Follows aliceTables (k.begun "app") lookingForSchema (k.begun "app") :=
    .cons ⟨rfl, fun _ _ _ h => absurd h not_denies_true⟩ .nil
  have made := follows_transactionOn (m := .commit) (follows_making { kept := held } table)
  obtain ⟨k₁, h₁, hk₁⟩ := follows_looking (role _)
  obtain ⟨k₂, h₂, hk₂⟩ := follows_looking (schema k₁)
  obtain ⟨k₃, h₃, hk₃⟩ := follows_looking (follows_lookingForTable k₂ table)
  refine ⟨k₃, .cons rfl (serves_append.mpr ⟨_, made, serves_append.mpr ⟨k₁, h₁,
    serves_append.mpr ⟨k₂, h₂, serves_append.mpr ⟨k₃, h₃, .cons rfl .nil⟩⟩⟩⟩), ?_⟩
  rw [hk₃, hk₂, hk₁]
  rfl

end Ledger

unseal List.mergeSort in
theorem describes_tableGrant (id : String) :
    ∀ table ∈ ["a", "b"], aliceTables.Describes (tableGrant id table).work := by
  intro table ht b g hg
  have hd : Grant.ofResource (tableGrant id table).work b =
      .ok ⟨"alice", "app", .table, ∅ ∪ .ofList [.select], "s", [table], false⟩ := by
    simp only [List.mem_cons, List.not_mem_nil, or_false] at ht
    rcases ht with rfl | rfl <;> cases b <;> rfl
  rw [hd] at hg
  cases hg
  rfl

/-- The grant is made on one table and then moved to another one. -/
def movingSteps (held₁ held₂ : String → Prop) : List Step :=
  [⟨.createGrant, (tableGrant "" "a").work, fun _ => False, grantExchanges "a", .ok .null,
      (tableGrant "app.alice:table:s:a:SELECT" "a").work, held₁⟩,
    ⟨.updateGrant, (tableGrant "app.alice:table:s:a:SELECT" "b").work, held₁,
      grantExchanges "b", .ok .null, (tableGrant "app.alice:table:s:b:SELECT" "b").work, held₂⟩]

theorem run_moved : ∃ held₁ held₂, held₂ "a" ∧ Run .admin aliceTables
    (movingSteps held₁ held₂) (tableGrant "app.alice:table:s:b:SELECT" "b").work held₂ := by
  obtain ⟨k₁, hk₁, h₁⟩ := Ledger.follows_grantExchanges (fun _ => False) "a"
  obtain ⟨k₂, hk₂, h₂⟩ := Ledger.follows_grantExchanges k₁.kept "b"
  have hcreate : Operation.createGrant ∈ Operation.onGrant := by decide
  have hupdate : Operation.updateGrant ∈ Operation.onGrant := by decide
  have hd₁ := describes_tableGrant "" "a" (by decide)
  have hd₂ := describes_tableGrant "app.alice:table:s:a:SELECT" "b" (by decide)
  have hid : (tableGrant "app.alice:table:s:a:SELECT" "b").work.id =
      (tableGrant "app.alice:table:s:a:SELECT" "a").work.id := rfl
  have made := Run.step (.start (tableGrant "" "a").work) hcreate rfl hd₁ goes_createGrant hk₁
  have moved := Run.step made hupdate hid hd₂ goes_updateGrant hk₂
  have kept : k₂.kept "a" := by
    rw [h₂]
    refine .inl ⟨?_, ?_⟩
    · rw [h₁]
      exact .inr (List.mem_singleton_self _)
    · show ¬(["b"] = [] ∨ "a" ∈ ["b"])
      decide
  exact ⟨k₁.kept, k₂.kept, kept, moved⟩

theorem Run.covered_iff_no_lapse_moved : ∃ steps r held, Run .admin aliceTables steps r held ∧
    (∀ st ∈ steps, st.Returned) ∧ steps.length = 2 ∧
    ((∀ st ∈ steps, st.Covered aliceTables) ↔ ∀ st ∈ steps, ¬st.Lapses aliceTables) ∧
    ((∀ st ∈ steps, st.Returned → st.Covered aliceTables) ↔
      ∀ st ∈ steps, ¬st.Lapses aliceTables) := by
  obtain ⟨held₁, held₂, _, h⟩ := run_moved
  have returned : ∀ st ∈ movingSteps held₁ held₂, st.Returned :=
    List.forall_mem_cons.mpr ⟨⟨.null, rfl⟩, List.forall_mem_singleton.mpr ⟨.null, rfl⟩⟩
  obtain ⟨hall, hreturned⟩ := Run.covered_iff_no_lapse h
  exact ⟨_, _, _, h, returned, rfl, hall, hreturned fun st hst _ => returned st hst⟩

/-- A grant that has moved to another table leaves the privileges on the first one, and its
identifier does not cover them. -/
theorem moved_grant_uncovered : ¬∀ (c : Client) (p : Scope) (steps : List Step) (r : Resource)
    (held : String → Prop), Run c p steps r held →
      ∀ st ∈ steps, st.Returned → st.Covered p := by
  intro h
  obtain ⟨held₁, held₂, ha, hrun⟩ := run_moved
  have hlast := h _ _ _ _ _ hrun _ (List.mem_cons_of_mem _ List.mem_cons_self) ⟨.null, rfl⟩
  obtain ⟨a, hread, _, hm⟩ := hlast.1 "a" ha
  have hobjects : (GrantId.read "app.alice:table:s:b:SELECT").map (·.objects) = .ok ["b"] := by
    rfl
  have hb : a.objects = ["b"] := by
    rw [show GrantId.read "app.alice:table:s:b:SELECT" = .ok a from hread] at hobjects
    exact Except.ok.inj hobjects
  rw [hb] at hm
  revert hm
  decide

end DeclaredAccess
