import Mathlib.Data.List.Forall2
import DeclaredAccess.Proofs.Session.Runs
import DeclaredAccess.Proofs.Sql.Quoted

/-! What becomes of the errors that the driver reports. Statements and commits are translated; where
one of them fails while a membership is taken back, the failure of the block stays and gets a note.
The one error that cannot be translated is one whose message has no line to quote: it takes the
place of everything. So the faults of a run account for its failure. -/

namespace DeclaredAccess

variable {σ α : Type} {t u : List Exchange} {f : Failure}

/-- Whether the error is about a declaration, about what was answered or about the server's version,
and no error of the driver stands behind it. -/
def Error.isOwn : Error → Bool
  | entry .. | config _ | unsupported .. => true
  | _ => false

def Error.isConflict : Error → Bool
  | conflict _ => true
  | _ => false

theorem Error.isFinding_of_isOwn {e : Error} (h : e.isOwn = true) : e.isFinding = true := by
  cases e <;> first | rfl | cases h

theorem Error.isConflict_of_isOwn {e : Error} (h : e.isOwn = true) : e.isConflict = false := by
  cases e <;> first | rfl | cases h

namespace DriverError

/-- What an error quotes of the driver's message: its first line, or the given text where no error
of the server is wrapped. -/
def line? (unwrapped : String) (e : DriverError) : Option String := match e.cause with
  | none => some unwrapped
  | some cause => Text.firstLine? cause.message

/-- Whether the driver's message has no line that could be quoted. -/
def isSilent (e : DriverError) : Bool := e.cause.any fun c => (Text.firstLine? c.message).isNone

theorem toError_eq (e : DriverError) (intent : String) : e.toError intent =
    match e.line? "DBAPIError" with
    | none => .shape .noLine
    | some detail => if e.isMissing then .notFound intent detail else .statement intent detail := by
  unfold toError line? isMissing
  cases e.cause with
  | none => rfl
  | some cause =>
    dsimp only
    cases Text.firstLine? cause.message with
    | none => rfl
    | some detail => rfl

theorem toCommitError_eq (e : DriverError) : e.toCommitError =
    match e.line? "None" with
    | none => .shape .noLine
    | some detail => .statement "committing transaction" detail := by
  unfold toCommitError line?
  cases e.cause with
  | none => rfl
  | some cause => rfl

theorem isSilent_iff {e : DriverError} (unwrapped : String) :
    e.isSilent = true ↔ e.line? unwrapped = none := by
  unfold isSilent line?
  cases e.cause with
  | none => exact iff_of_false Bool.false_ne_true nofun
  | some cause => exact Option.isNone_iff_eq_none

theorem line?_cases (e : DriverError) (unwrapped : String) :
    (e.isSilent = true ∧ e.line? unwrapped = none) ∨
      (e.isSilent = false ∧ ∃ detail, e.line? unwrapped = some detail) := by
  cases h : e.line? unwrapped with
  | none => exact .inl ⟨(isSilent_iff _).mpr h, rfl⟩
  | some detail =>
    refine .inr ⟨Bool.eq_false_iff.mpr fun hs => ?_, detail, rfl⟩
    cases h.symm.trans ((isSilent_iff _).mp hs)

end DriverError

/-- A statement or a commit that the driver says has failed. -/
inductive Fault
  | statement (st : Sql.Statement) (e : DriverError)
  | commit (e : DriverError)

namespace Fault

def error : Fault → DriverError
  | statement _ e | commit e => e

/-- Whether the driver says nothing that could be quoted. -/
def isSilent (y : Fault) : Bool := y.error.isSilent

/-- Whether a statement has failed because something it names does not exist. -/
def isMissing : Fault → Bool
  | statement _ e => e.isMissing
  | commit _ => false

/-- Whether a membership could not be taken back. -/
def isTakingBack : Fault → Bool
  | statement (.change (.revokeMembership ..)) _ => true
  | _ => false

/-- The errors that stand for the fault: one that something is not found exactly where a statement
was answered so, and else one of a statement. -/
def Becomes : Fault → Error → Prop
  | statement _ e, x => ∃ intent detail, e.line? "DBAPIError" = some detail ∧
      x = if e.isMissing then .notFound intent detail else .statement intent detail
  | commit e, x => ∃ detail, e.line? "None" = some detail ∧
      x = .statement "committing transaction" detail

theorem Becomes.isFinding {y : Fault} {x : Error} (h : y.Becomes x) : x.isFinding = true := by
  cases y with
  | statement st e =>
    obtain ⟨intent, detail, _, rfl⟩ := h
    split <;> rfl
  | commit e =>
    obtain ⟨detail, _, rfl⟩ := h
    rfl

theorem Becomes.exists_message {y : Fault} {x : Error} (h : y.Becomes x) :
    ∃ note, x.message? = some note := by
  cases y with
  | statement st e =>
    obtain ⟨intent, detail, _, rfl⟩ := h
    split <;> exact ⟨_, rfl⟩
  | commit e =>
    obtain ⟨detail, _, rfl⟩ := h
    exact ⟨_, rfl⟩

theorem Becomes.isNotFound {y : Fault} {x : Error} (h : y.Becomes x) :
    x.isNotFound = y.isMissing := by
  cases y with
  | statement st e =>
    obtain ⟨intent, detail, _, rfl⟩ := h
    show Error.isNotFound _ = e.isMissing
    split
    · exact (‹e.isMissing = true›).symm
    · exact (Bool.eq_false_iff.mpr ‹_›).symm
  | commit e =>
    obtain ⟨detail, _, rfl⟩ := h
    rfl

/-- A statement that fails raises the error that stands for it, unless the driver is silent. -/
theorem toError_cases (st : Sql.Statement) (e : DriverError) (intent : String) :
    (e.isSilent = true ∧ e.toError intent = .shape .noLine) ∨
      (e.isSilent = false ∧ (statement st e).Becomes (e.toError intent)) := by
  rcases e.line?_cases "DBAPIError" with ⟨hs, h⟩ | ⟨hs, detail, h⟩
  · exact .inl ⟨hs, by rw [e.toError_eq, h]⟩
  · exact .inr ⟨hs, intent, detail, h, by rw [e.toError_eq, h]⟩

theorem toCommitError_cases (e : DriverError) :
    (e.isSilent = true ∧ e.toCommitError = .shape .noLine) ∨
      (e.isSilent = false ∧ (commit e).Becomes e.toCommitError) := by
  rcases e.line?_cases "None" with ⟨hs, h⟩ | ⟨hs, detail, h⟩
  · exact .inl ⟨hs, by rw [e.toCommitError_eq, h]⟩
  · exact .inr ⟨hs, detail, h, by rw [e.toCommitError_eq, h]⟩

end Fault

theorem DriverError.isConflict_toError (e : DriverError) (intent : String) :
    (e.toError intent).isConflict = false := by
  rw [e.toError_eq]
  split
  · rfl
  · split <;> rfl

theorem DriverError.isConflict_toCommitError (e : DriverError) :
    e.toCommitError.isConflict = false := by
  rw [e.toCommitError_eq]
  split <;> rfl

/-- The fault that an exchange is. -/
def Exchange.fault? : Exchange → Option Fault
  | ⟨.execute st, .error e⟩ => some (.statement st e)
  | ⟨.mark .commit, .error e⟩ => some (.commit e)
  | _ => none

def faults (t : List Exchange) : List Fault := t.filterMap Exchange.fault?

@[simp] theorem faults_nil : faults [] = [] := rfl

@[simp] theorem faults_append (t u : List Exchange) : faults (t ++ u) = faults t ++ faults u :=
  List.filterMap_append

theorem faults_cons_of_none {y : Exchange} (h : y.fault? = none) : faults (y :: t) = faults t :=
  List.filterMap_cons_none h

/-- The notes tell of the faults, one after the other. -/
def Noted (ys : List Fault) (notes : List String) : Prop :=
  List.Forall₂ (fun y note => ∃ x, y.Becomes x ∧ x.message? = some note) ys notes

/-- The first fault is the failure, or the failure is none of the driver's and all faults came after
it; those that came after it are memberships that could not be taken back, and are noted. -/
structure Translates (ys : List Fault) (f : Failure) : Prop where
  audible : ∀ y ∈ ys, y.isSilent = false
  accounted : ∃ later, (ys = later ∧ f.error.isOwn = true ∨
      ∃ y, ys = y :: later ∧ y.Becomes f.error) ∧
    (∀ y ∈ later, y.isTakingBack = true) ∧ Noted later f.notes

/-- The failure that the faults lead to: where the driver was silent once, that hides all else. -/
def AccountsFor (ys : List Fault) (f : Failure) : Prop :=
  (∃ y ∈ ys, y.isSilent = true) ∧ f.error = .shape .noLine ∨ Translates ys f

theorem Translates.isFinding {ys : List Fault} (h : Translates ys f) : f.error.isFinding = true := by
  obtain ⟨later, ⟨_, ho⟩ | ⟨y, _, hy⟩, _⟩ := h.accounted
  · exact Error.isFinding_of_isOwn ho
  · exact hy.isFinding

theorem Translates.own {e : Error} (h : e.isOwn = true) : Translates [] (Failure.of e) where
  audible _ hy := nomatch hy
  accounted := ⟨[], .inl ⟨rfl, h⟩, fun _ hy => (nomatch hy), .nil⟩

theorem Translates.first {y : Fault} {e : Error} (hs : y.isSilent = false) (hy : y.Becomes e) :
    Translates [y] (Failure.of e) where
  audible := List.forall_mem_singleton.mpr hs
  accounted := ⟨[], .inr ⟨y, rfl, hy⟩, fun _ hy => (nomatch hy), .nil⟩

/-- A membership that cannot be taken back after a failure adds a note to it. -/
theorem Translates.note {ys : List Fault} {y : Fault} {e : Error} {note : String}
    (h : Translates ys f) (hs : y.isSilent = false) (ht : y.isTakingBack = true)
    (hy : y.Becomes e) (hn : e.message? = some note) :
    Translates (ys ++ [y]) { f with notes := f.notes ++ [note] } where
  audible := List.forall_mem_append.mpr ⟨h.audible, List.forall_mem_singleton.mpr hs⟩
  accounted := by
    obtain ⟨later, hfirst, hback, hnoted⟩ := h.accounted
    refine ⟨later ++ [y], ?_, ?_, ?_⟩
    · rcases hfirst with ⟨rfl, ho⟩ | ⟨z, rfl, hz⟩
      · exact .inl ⟨rfl, ho⟩
      · exact .inr ⟨z, rfl, hz⟩
    · exact List.forall_mem_append.mpr ⟨hback, List.forall_mem_singleton.mpr ht⟩
    · exact List.rel_append hnoted (.cons ⟨e, hy, hn⟩ .nil)

/-- A lone fault accounts for what it is translated into. -/
theorem AccountsFor.lone {y : Fault} {e : Error} (h : (y.isSilent = true ∧ e = .shape .noLine) ∨
    (y.isSilent = false ∧ y.Becomes e)) : AccountsFor [y] (Failure.of e) := by
  rcases h with ⟨hs, he⟩ | ⟨hs, hy⟩
  · exact .inl ⟨⟨_, List.mem_singleton_self _, hs⟩, he⟩
  · exact .inr (.first hs hy)

theorem AccountsFor.of_statement (st : Sql.Statement) (e : DriverError) (intent : String) :
    AccountsFor [.statement st e] (Failure.of (e.toError intent)) :=
  .lone (Fault.toError_cases st e intent)

theorem AccountsFor.of_commit (e : DriverError) :
    AccountsFor [.commit e] (Failure.of e.toCommitError) :=
  .lone (Fault.toCommitError_cases e)

end DeclaredAccess
