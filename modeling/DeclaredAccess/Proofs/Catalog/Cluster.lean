import DeclaredAccess.Proofs.Acl.RoundTrip
import DeclaredAccess.Proofs.Catalog.Site
import DeclaredAccess.Proofs.Policy.Share
import DeclaredAccess.Proofs.Session.Stack
import DeclaredAccess.Proofs.Session.Willing

/-! A server whose schemas come into being. It takes every connection, also while another one is
open, carries out every statement, and answers truly what schemas there are and what is held on
them. What it says of memberships is left open, and so is what a change does that a creation does not
send. -/

namespace DeclaredAccess

open Sql

/-- What a grant gives to a role, as an entry. -/
def Acl.ofGrant (privileges : PrivilegeSet) (role : String) (option : Bool) : Acl where
  role := role
  privileges := privileges
  grantOptions := if option then privileges else ∅
  covered p hp := by
    cases option with
    | true => exact hp
    | false => exact absurd hp PrivilegeSet.mem_empty

/-- A schema as the server keeps it: whose it is, and what was granted on it. -/
structure KeptSchema where
  owner : String
  granted : List Acl := []

namespace KeptSchema

/-- What a role holds on the schema by the grants to the role that is spelt exactly so. -/
def held (x : KeptSchema) (role : String) : Holding :=
  Share.ofRole (x.granted.map Acl.share) role

def give (x : KeptSchema) (a : Acl) : KeptSchema := { x with granted := x.granted ++ [a] }

/-- Entries tell what is held on the schema. Nobody but the owner has an entry that says nothing, and
what the entries say of the owner is left open. -/
structure ListedBy (x : KeptSchema) (acls : List Acl) : Prop where
  held_eq : ∀ role, role ≠ x.owner → Share.ofRole (acls.map Acl.share) role = x.held role
  nonempty : ∀ a ∈ acls, a.role ≠ x.owner → a.privileges ≠ ∅
  allowed : ∀ a ∈ acls, a.role = x.owner → a.privileges ⊆ ObjectKind.schema.allowed

/-- What was granted to others than the owner is a list of entries. -/
theorem exists_listed (x : KeptSchema) : ∃ acls, x.ListedBy acls := by
  let told (y : Share) : Bool := y.role != x.owner && !y.holding.privileges.isEmpty
  have mem {a : Acl} (ha : a ∈ x.granted.filter fun a => told a.share) :
      a.role ≠ x.owner ∧ a.privileges ≠ ∅ := by
    have ht := (List.mem_filter.mp ha).2
    simp only [told, Acl.share, Acl.holding, Bool.and_eq_true, bne_iff_ne, Bool.not_eq_true'] at ht
    exact ⟨ht.1, fun he => by simp [PrivilegeSet.isEmpty_iff.mpr he] at ht⟩
  refine ⟨x.granted.filter fun a => told a.share, fun role hr => ?_, fun a ha _ => (mem ha).2,
    fun a ha ho => absurd ho (mem ha).1⟩
  have hmap : (x.granted.filter fun a => told a.share).map Acl.share =
      (x.granted.map Acl.share).filter told := by
    rw [List.filter_map]
    rfl
  rw [hmap]
  refine Share.ofRole_filter fun y hy hyr ht => ?_
  obtain ⟨a, _, rfl⟩ := List.mem_map.mp hy
  have hne : a.share.role ≠ x.owner := hyr ▸ hr
  have hempty : a.share.holding.privileges.isEmpty = true := by simpa [told, hne] using ht
  exact Acl.holding_eq_empty_iff.mpr (PrivilegeSet.isEmpty_iff.mp hempty)

end KeptSchema

/-- The schemas of all databases. -/
abbrev Schemas := (database name : String) → Option KeptSchema

def Schemas.put (w : Schemas) (database name : String) (x : KeptSchema) : Schemas :=
  fun d n => if d = database ∧ n = name then some x else w d n

/-- The schemas through connections and transactions. -/
abbrev SchemaJournal := Stack Schemas

/-- A server by the role that connects and the version that it reports. -/
structure Cluster where
  user : String
  version : Option (List Int)
  plain_user : '\x00' ∉ user.toList

namespace Cluster

variable (cluster : Cluster)

/-- The owner of a schema that is created: the connecting role, unless one is given. -/
def ownerOr (owner : String) : String := if owner.isEmpty then cluster.user else owner

/-- `Makes database c w w'`: over a connection to the database, `c` turns the schemas `w` into `w'`. -/
def Makes (database : String) (c : Change) (w w' : Schemas) : Prop := match c with
  | .createSchema name owner _ =>
    w database name = none → w' = w.put database name { owner := cluster.ownerOr owner }
  | .grant privileges t role option => ∀ x, t.kind = .schema → w database t.name = some x →
    w' = w.put database t.name (x.give (.ofGrant privileges role option))
  | .grantMembership .. | .revokeMembership .. => w' = w
  | _ => True

/-- The answer to a question is true. -/
def Tells (k : SchemaJournal) (q : Query) (rows : List Row) : Prop := match q with
  | .currentUser => Catalog.firstCell rows = .ok (.text cluster.user)
  | .schemaExists (.text n) => Site.Says rows (k.seen k.database n).isSome
  | .hasRole .. | .revocableMembership .. => ∃ v, Catalog.firstCell rows = .ok v
  | .schema (.text n) => match k.seen k.database n with
    | none => rows = []
    | some x => ∃ (texts : List String) (acls : List Acl),
      rows = [[.text x.owner, .list (texts.map .text)]] ∧
        texts.mapM Acl.Entry.read = .ok acls ∧ x.ListedBy acls
  | _ => True

theorem exists_tells (k : SchemaJournal) (q : Query) : ∃ rows, cluster.Tells k q rows := by
  cases q with
  | currentUser => exact ⟨[[.text cluster.user]], rfl⟩
  | schemaExists v => cases v with
    | text n => exact Site.exists_truth _
    | _ => exact ⟨[], trivial⟩
  | hasRole | revocableMembership => exact ⟨[[.bool false]], _, rfl⟩
  | schema v => cases v with
    | text n =>
      simp only [Tells]
      cases k.seen k.database n with
      | none => exact ⟨[], rfl⟩
      | some x =>
        obtain ⟨acls, h⟩ := x.exists_listed
        exact ⟨_, acls.map Acl.Entry.write, acls, rfl, Acl.Entry.mapM_read_write acls, h⟩
    | _ => exact ⟨[], trivial⟩
  | _ => exact ⟨[], trivial⟩

theorem exists_makes (database : String) (c : Change) (w : Schemas) :
    ∃ w', cluster.Makes database c w w' := by
  cases c with
  | createSchema => exact ⟨_, fun _ => rfl⟩
  | grant privileges t role option =>
    cases hx : w database t.name with
    | none => exact ⟨w, fun x _ h => by cases hx.symm.trans h⟩
    | some x =>
      refine ⟨w.put database t.name (x.give (.ofGrant privileges role option)), fun y _ h => ?_⟩
      cases hx.symm.trans h
      rfl
  | grantMembership | revokeMembership => exact ⟨w, rfl⟩
  | _ => exact ⟨w, trivial⟩

/-- The server carries out every change. -/
def willing : Willing SchemaJournal where
  reported := cluster.version
  opened := Stack.opened
  closed := Stack.closed
  mark := Stack.mark
  tells := cluster.Tells
  makes k c a k' :=
    (∃ rows, a = .ok rows) ∧ ∃ w, cluster.Makes k.database c k.seen w ∧ k' = k.write w
  exists_tells := cluster.exists_tells
  exists_makes k c := by
    obtain ⟨w, hw⟩ := cluster.exists_makes k.database c k.seen
    exact ⟨_, _, ⟨[], rfl⟩, w, hw, rfl⟩
  closed_rollback _ := rfl

def server : Server SchemaJournal := cluster.willing.server

variable {cluster} {σ : Type} {s : Standing σ} {k : SchemaJournal}

theorem leads_change {c : Change} (hc : c.isVersioned = false) {intent : String}
    {Q : Unit → Standing σ → SchemaJournal → Prop}
    (h : ∀ w, cluster.Makes k.database c k.seen w → Q () s (k.write w)) :
    cluster.server.Leads (Catalog.change c intent) s k Q := by
  refine cluster.willing.leads_change hc fun a k' ha => ?_
  obtain ⟨ok, w, hw, rfl⟩ := ha
  exact ⟨ok, h w hw⟩

/-- To find out what the server supports leaves the schemas as they are. -/
theorem leads_supports (c : Client) (f : Feature) :
    cluster.server.Leads (c.supports f : Task σ Bool) s k fun _ s' k' => s'.work = s.work ∧ k' = k :=
  .bind ((cluster.willing.leads_version c).mono fun _ _ _ ⟨_, hs, _, hk⟩ => .pure ⟨hs, hk.elim id id⟩)

end Cluster

end DeclaredAccess
