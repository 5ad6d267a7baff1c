import DeclaredAccess.Proofs.Sql.Select
import DeclaredAccess.Session.Dialogue

/-! What can be seen of an exchange: what was asked for, and whether it was granted. -/

namespace DeclaredAccess

/-- Whether the driver says that something a statement names does not exist. -/
def DriverError.isMissing (e : DriverError) : Bool :=
  e.cause.any fun c => c.sqlstate.any (notFoundStates.contains ·)

theorem DriverError.isMissing_of_isNotFound {e : DriverError} {intent : String}
    (h : (e.toError intent).isNotFound = true) : e.isMissing = true := by
  unfold toError at h
  unfold isMissing
  cases hc : e.cause with
  | none => rw [hc] at h; cases h
  | some cause =>
    rw [hc] at h
    dsimp only at h
    split at h
    · cases h
    · split at h
      · rename_i hs
        simpa using hs
      · cases h

theorem DriverError.isNotFound_toCommitError (e : DriverError) :
    e.toCommitError.isNotFound = false := by
  unfold toCommitError
  split
  · rfl
  · split
    · rfl
    · rfl

namespace Exchange

/-- Whether the catalog is asked, by a statement that selects. -/
def isQuestion : Exchange → Bool
  | ⟨.execute (.query q), _⟩ => Sql.Statement.isSelect (.query q)
  | _ => false

/-- Whether a statement was answered by that something it names does not exist. -/
def findsMissing : Exchange → Bool
  | ⟨.execute _, .error e⟩ => e.isMissing
  | _ => false

/-- Whether a commit was tried and succeeded. -/
def isCommitted : Exchange → Bool
  | ⟨.mark .commit, .ok _⟩ => true
  | _ => false

theorem exists_query_of_isQuestion {y : Exchange} (h : y.isQuestion = true) :
    ∃ q a, y = ⟨.execute (.query q), a⟩ := by
  unfold isQuestion at h
  split at h
  · exact ⟨_, _, rfl⟩
  · cases h

end Exchange

end DeclaredAccess
