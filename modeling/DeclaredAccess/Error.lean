import DeclaredAccess.Acl.Entry
import DeclaredAccess.Sql.Constant
import DeclaredAccess.Text.Line
import DeclaredAccess.Value.Display
import DeclaredAccess.Version

/-! Everything that can go wrong, by cause, with the message of each cause. -/

namespace DeclaredAccess

/-- A resource as it is named in messages. -/
inductive ResourceKind
  | grant | schema | roleMembership | extension
  deriving DecidableEq

def ResourceKind.label : ResourceKind → String
  | grant => "grant"
  | schema => "schema"
  | roleMembership => "role membership"
  | extension => "extension"

/-- A declaration or option that is refused. -/
inductive ConfigError
  | unknownPrivilege (name : String)
  | privilegeNotAllowed (name : String) (kind : ObjectKind)
  | missing (resource : ResourceKind) (key : String)
  | notText (key : String) (given : Value)
  | notTexts (key : String) (given : List Value)
  | objectType (given : String)
  | databaseObjects
  | schemaMissing (kind : ObjectKind)
  | noPrivileges
  | noMembers
  | databaseWithPoint (database : String)
  /-- A point or colon in a database that is part of an identifier. -/
  | databaseMarks (resource : ResourceKind) (database : String)
  /-- A colon or comma in a part of a grant's identifier. -/
  | marks (key : String) (item : String)
  | policyOverlap (plain withGrant : String)
  | policyRole (given : Value)
  | grantId (id : String)
  | schemaId (id : String)
  | ownerCleared
  | extensionSchemaCleared
  | version (given : String)
  | noVersion
  | maxConnections (given : Int)
  | connectTimeout (given : Int)

def ConfigError.message : ConfigError → String
  | unknownPrivilege name => "Unknown privilege " ++ Text.quoted name
  | privilegeNotAllowed name kind =>
    "Invalid privilege type " ++ name ++ " for object type " ++ kind.name ++ "; allowed: " ++
      ", ".intercalate (kind.allowed.keywords ++ ["ALL"])
  | missing resource key => resource.label ++ ": \"" ++ key ++ "\" is required"
  | notText key given => "\"" ++ key ++ "\" must be a string, got " ++ given.quoted
  | notTexts key given =>
    "\"" ++ key ++ "\" must be a list of strings, got " ++ (Value.list given).quoted
  | objectType given =>
    "grant: \"object_type\" must be one of " ++
      ", ".intercalate (ObjectKind.grantable.map ObjectKind.name) ++ ", got " ++ Text.quoted given
  | databaseObjects => "grant: \"objects\" cannot be set when \"object_type\" is database"
  | schemaMissing kind => "grant: \"schema\" is required when \"object_type\" is " ++ kind.name
  | noPrivileges => "grant: at least one privilege is required"
  | noMembers => "role membership: at least one member is required"
  | databaseWithPoint database =>
    "grant: \"database\" cannot contain \".\", got " ++ Text.quoted database
  | databaseMarks resource database =>
    resource.label ++ ": \"database\" cannot contain \".\" or \":\", got " ++ Text.quoted database
  | marks key item =>
    "grant: \"" ++ key ++ "\" cannot contain \":\" or \",\", got " ++ Text.quoted item
  | policyOverlap plain withGrant =>
    "schema policy: \"" ++ plain ++ "\" conflicts with \"" ++ withGrant ++ "\""
  | policyRole given => "schema policy: \"role\" must be a string, got " ++ given.quoted
  | grantId id =>
    "Grant ID " ++ Text.quoted id ++
      " has not the expected format \"database.role:type:schema:objects:privileges\""
  | schemaId id =>
    "Schema ID " ++ Text.quoted id ++ " has not the expected format \"database.schema\""
  | ownerCleared => "Error setting schema owner to an empty string"
  | extensionSchemaCleared => "Error setting extension schema to an empty string"
  | version given => "Invalid PostgreSQL version " ++ Text.quoted given
  | noVersion => "Invalid PostgreSQL version ()"
  | maxConnections given => "max_connections can not be less than 1, got " ++ toString given
  | connectTimeout given => "connect_timeout can not be less than 0, got " ++ toString given

/-- A value or an answer that has not the shape it is used in. -/
inductive ShapeError
  /-- Neither a list nor a text nor an object. -/
  | notAList (given : Value)
  | notAnObject (given : Value)
  /-- Something that cannot name an object of the catalog. -/
  | notAName (given : Value)
  /-- Something without letters where they are asked for. -/
  | noLetters (given : Value)
  /-- An object where something at a place in a row is asked for. -/
  | noPlaces (given : Value)
  /-- Lists and objects cannot be members of a set. -/
  | notAMember (given : Value)
  /-- Values of different types have no order. -/
  | noOrder
  | rowWidth
  | noRow
  /-- The driver's message has no line that could be quoted. -/
  | noLine

/-- What the driver says about a failed statement. -/
structure DriverCause where
  message : String
  sqlstate : Option String := none
  deriving DecidableEq

/-- A failed statement or marker, with the server's cause where there is one. -/
structure DriverError where
  cause : Option DriverCause := none
  deriving DecidableEq

inductive Error
  | entry (given : Value) (cause : EntryError)
  | config (cause : ConfigError)
  | conflict (cause : Conflict)
  /-- A statement failed; the intent says what it was for. -/
  | statement (intent detail : String)
  /-- A statement failed because something it names does not exist. -/
  | notFound (intent detail : String)
  | unsupported (resource : String) (version : Version)
  | dialect (name : String)
  | driver (name : String)
  | url (given : String)
  | shape (cause : ShapeError)
  /-- A value that cannot be a constant in a statement. -/
  | constant (cause : Sql.ConstantError)
  /-- An error of the driver that no statement accounts for. -/
  | database (cause : DriverError)
  /-- An error of the caller's own. -/
  | raised (message : String)

namespace Error

/-- The message, where the error has one of its own. -/
def message? : Error → Option String
  | entry given cause => some (cause.message given.quoted)
  | config cause => some cause.message
  | conflict cause => some cause.message
  | statement intent detail =>
    some (if detail.isEmpty then "Error " ++ intent else "Error " ++ intent ++ ": " ++ detail)
  | notFound intent detail => some ("Error " ++ intent ++ ": " ++ detail)
  | unsupported resource version =>
    some (resource ++ " resource is not supported for this Postgres version (" ++ version.text ++
      ")")
  | dialect name => some ("Unsupported database dialect: " ++ name)
  | driver name => some ("Unsupported database driver: " ++ name)
  | raised message => some message
  | url _ | shape _ | constant _ | database _ => none

/-- Whether the error is a finding about declarations, statements or the server, and not a fault
of shape or of the connection. -/
def isFinding : Error → Bool
  | entry .. | config _ | conflict _ | statement .. | notFound .. | unsupported .. => true
  | dialect _ | driver _ | url _ | shape _ | constant _ | database _ | raised _ => false

def isNotFound : Error → Bool
  | notFound .. => true
  | _ => false

end Error

/-- The privilege that a name spells. -/
def Privilege.named (name : String) : Except Error Privilege := match ofName? name with
  | some p => .ok p
  | none => .error (.config (.unknownPrivilege name))

/-- The version that a text tells. -/
def Version.ofText (s : String) : Except Error Version := match ofText? s with
  | some v => .ok v
  | none => .error (.config (.version s))

/-- The version that numbers tell. -/
def Version.ofParts (parts : List Int) : Except Error Version := match ofParts? parts with
  | some v => .ok v
  | none => .error (.config .noVersion)

/-- The states that say that a named thing does not exist: an object, a schema, a table, a
function or a database. -/
def notFoundStates : List String := ["42704", "3F000", "42P01", "42883", "3D000"]

/-- What a failed statement means. -/
def DriverError.toError (e : DriverError) (intent : String) : Error := match e.cause with
  | none => .statement intent "DBAPIError"
  | some cause => match Text.firstLine? cause.message with
    | none => .shape .noLine
    | some detail =>
      if cause.sqlstate.any (notFoundStates.contains ·) then .notFound intent detail
      else .statement intent detail

/-- What a failed commit means; whatever its state says, nothing is missing. -/
def DriverError.toCommitError (e : DriverError) : Error :=
  match e.cause with
  | none => .statement "committing transaction" "None"
  | some cause => match Text.firstLine? cause.message with
    | none => .shape .noLine
    | some detail => .statement "committing transaction" detail

/-- An error with the notes that were added to it on its way out. -/
structure Failure where
  error : Error
  notes : List String := []

instance : Coe Error Failure := ⟨fun e => ⟨e, []⟩⟩

end DeclaredAccess
