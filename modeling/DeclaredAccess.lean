import DeclaredAccess.Operation
import DeclaredAccess.Proofs.Acl.Grammar
import DeclaredAccess.Proofs.Acl.Union
import DeclaredAccess.Proofs.Catalog.Directory
import DeclaredAccess.Proofs.Grant.Overloads
import DeclaredAccess.Proofs.Grant.Reached
import DeclaredAccess.Proofs.Grant.Removal
import DeclaredAccess.Proofs.Grant.Reread
import DeclaredAccess.Proofs.Lock.Settling
import DeclaredAccess.Proofs.Membership.Converge
import DeclaredAccess.Proofs.Membership.Reread
import DeclaredAccess.Proofs.Membership.Served
import DeclaredAccess.Proofs.Operation.Dropping
import DeclaredAccess.Proofs.Operation.Interleaving
import DeclaredAccess.Proofs.Operation.Occupancy
import DeclaredAccess.Proofs.Operation.Outcome
import DeclaredAccess.Proofs.Policy.Transition
import DeclaredAccess.Proofs.Schema.Accepted
import DeclaredAccess.Proofs.Schema.Address
import DeclaredAccess.Proofs.Schema.Reordered
import DeclaredAccess.Proofs.Schema.Reread
import DeclaredAccess.Proofs.Schema.Withdrawn
import DeclaredAccess.Proofs.Session.Unwinding
import DeclaredAccess.Proofs.Sql.Unambiguous
