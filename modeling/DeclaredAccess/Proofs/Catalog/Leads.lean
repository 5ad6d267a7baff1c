import DeclaredAccess.Proofs.Catalog.Site
import DeclaredAccess.Proofs.Session.Willing

/-! What a task does against a server whose rights change. Such a server may answer in many ways, and
in each of them the task has to return and to end as is claimed. It takes every connection and every
marker, so each way of building a task has the rule that it has for all such servers; what is left to
say is what becomes of a change, and which version a client goes by. -/

namespace DeclaredAccess

variable {σ α : Type}

namespace Site

/-- The server that is true to a journal. -/
def willing (site : Site) : Willing Journal where
  reported := site.version
  opened := Stack.opened
  closed := Stack.closed
  mark := Stack.mark
  tells := site.Tells
  makes := site.Makes
  exists_tells := site.exists_tells
  exists_makes _ _ := ⟨.ok [], _, rfl⟩
  closed_rollback _ := rfl

def server (site : Site) : Server Journal := site.willing.server

variable {site : Site} {s : Standing σ} {k : Journal}

/-- A change is made where all that it names is there. -/
theorem leads_change {c : Sql.Change} (hc : c.isVersioned = false)
    (hf : site.Finds k.database c) {intent : String} {Q : Unit → Standing σ → Journal → Prop}
    (h : Q () s (k.write (site.after k.database c k.seen))) :
    site.server.Leads (Catalog.change c intent) s k Q := by
  refine site.willing.leads_change hc fun a k' ha => ?_
  cases a with
  | ok rows =>
    obtain rfl : k' = k.write _ := ha
    exact ⟨⟨rows, rfl⟩, h⟩
  | error e =>
    obtain ⟨_, hn⟩ : k' = k ∧ ¬site.Finds k.database c := ha
    exact absurd hf hn

/-! ## The version of the server -/

/-- The version that a client goes by. -/
def versionFor (site : Site) (known : Session) : Version :=
  known.version.getD ((site.version.bind Version.ofParts?).getD .assumed)

/-- A client finds the features of the version that it goes by. -/
theorem leads_version (c : Client) :
    site.server.Leads c.version s k fun v s' k' => v = site.versionFor s.session ∧ s'.work = s.work ∧
      site.versionFor s'.session = site.versionFor s.session ∧ k'.kept = k.kept := by
  refine (site.willing.leads_version c).mono fun v s' k' hq => ?_
  obtain ⟨hv, hs, hversion, hk⟩ := hq
  refine ⟨hv, hs, ?_, hk.elim (congrArg Stack.kept) (congrArg Stack.kept)⟩
  rw [versionFor, hversion]
  exact hv

theorem leads_require (c : Client) {f : Feature}
    {resource : String} (h : (site.versionFor s.session).supports f = true) :
    site.server.Leads (c.require f resource : Task σ Unit) s k fun _ s' k' => s'.work = s.work ∧
      site.versionFor s'.session = site.versionFor s.session ∧ k'.kept = k.kept := by
  unfold Client.require Client.supports
  refine .bind (.bind ((leads_version c).mono fun v s₁ k₁ hq => .pure ?_))
  obtain ⟨rfl, hrest⟩ := hq
  rw [h]
  exact .pure hrest

end Site

end DeclaredAccess
