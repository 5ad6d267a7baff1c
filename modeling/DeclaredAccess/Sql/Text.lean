import DeclaredAccess.Sql.Constant
import DeclaredAccess.Sql.Statement

/-! The text of each statement. A statement is a list of pieces whose fixed parts depend only on
its shape, so a name or constant can only stand where the shape has a place for one. -/

namespace DeclaredAccess.Sql

/-- Lists of pieces with a comma between each two. -/
def commaSeparated (items : List Piece) : List Piece := items.intersperse (.fixed ",")

def constants (texts : List String) : List Piece :=
  commaSeparated (texts.map fun (s : String) => .constant s)

def names (xs : List String) : List Piece := commaSeparated (xs.map .name)

/-- The role of a privilege statement: `PUBLIC` is a keyword there. -/
def role (r : String) : Piece := if r.isEmpty then .fixed "PUBLIC" else .name r

/-- An object by its schema and name. -/
def qualified (schema object : String) : List Piece := [.name schema, .fixed ".", .name object]

/-- What a privilege statement applies to. -/
def target (t : Target) : List Piece :=
  if !t.kind.inSchema then [.fixed (t.kind.keyword ++ " "), .name t.name]
  else if t.objects.isEmpty then
    [.fixed ("ALL " ++ t.kind.plural ++ " IN SCHEMA "), .name t.schema]
  else
    .fixed (t.kind.keyword ++ " ") ::
      ((t.objects.map (qualified t.schema)).intersperse [.fixed ","]).flatten

/-- The kinds of relation that privileges on tables cover: ordinary and partitioned tables, views,
materialized views and foreign tables. -/
def tableKinds : List String := ["r", "p", "v", "m", "f"]

def sequenceKinds : List String := ["S"]

/-- The relations of some kinds in a schema, with their access control lists and owners. -/
def relations (schema : String) (kinds : List String) : List Piece :=
  [.fixed ("\n                SELECT c.relname AS name, c.relacl AS acl, c.relowner AS owner" ++
    "\n                FROM pg_class c" ++
    "\n                INNER JOIN pg_namespace n ON n.oid = c.relnamespace" ++
    "\n                WHERE n.nspname = "), .constant schema,
    .fixed "\n                  AND c.relkind IN ("] ++ constants kinds ++ [.fixed ")\n            "]

/-- The functions in a schema, with their access control lists and owners. -/
def functions (schema : String) : List Piece :=
  [.fixed ("\n                SELECT p.proname AS name, p.proacl AS acl, p.proowner AS owner" ++
    "\n                FROM pg_proc p" ++
    "\n                INNER JOIN pg_namespace n ON n.oid = p.pronamespace" ++
    "\n                WHERE n.nspname = "), .constant schema, .fixed "\n            "]

/-- A restriction to the listed objects, where some are listed. -/
def listed (column : String) (objects : List String) : List Piece :=
  if objects.isEmpty then []
  else [.fixed " AND ", .name column, .fixed " IN ("] ++ constants objects ++ [.fixed ")"]

/-- The objects of a target, with their access control lists and owners. -/
def objects (t : Target) : List Piece := match t.kind with
  | .database =>
    [.fixed ("SELECT datname AS name, datacl AS acl, datdba AS owner FROM pg_database " ++
      "WHERE datname = "), .constant t.name]
  | .function => functions t.schema ++ listed "proname" t.objects
  | .sequence => relations t.schema sequenceKinds ++ listed "relname" t.objects
  | .table | .schema => relations t.schema tableKinds ++ listed "relname" t.objects

/-- The letter under which the server keeps the default privileges of a kind. -/
def defaultsLetter : ObjectKind → String
  | .database => "d"
  | .function => "f"
  | .sequence => "s"
  | .table | .schema => "r"

/-- The grantee's number; `PUBLIC` has number zero. -/
def grantee (r : String) : List Piece :=
  if r.isEmpty then [.fixed "0"]
  else [.fixed "(SELECT oid FROM pg_roles WHERE rolname = ", .constant r, .fixed ")"]

def Query.pieces : Query → List Piece
  | currentUser => [.fixed "SELECT CURRENT_USER"]
  | roleExists r =>
    [.fixed "SELECT EXISTS (SELECT 1 FROM pg_roles WHERE rolname = ", .constant r, .fixed ")"]
  | databaseExists d =>
    [.fixed "SELECT EXISTS (SELECT 1 FROM pg_database WHERE datname = ", .constant d, .fixed ")"]
  | schemaExists s =>
    [.fixed "SELECT EXISTS (SELECT 1 FROM pg_namespace WHERE nspname = ", .constant s, .fixed ")"]
  | hasRole member r =>
    [.fixed "SELECT pg_has_role(", .constant member, .fixed ", ", .constant r,
      .fixed ", 'USAGE')"]
  | revocableMembership member r =>
    [.fixed ("\n            SELECT EXISTS (" ++
      "\n                SELECT 1" ++
      "\n                FROM pg_auth_members m" ++
      "\n                WHERE m.roleid = (SELECT oid FROM pg_roles WHERE rolname = "), .constant r,
      .fixed ")\n                AND m.member = (SELECT oid FROM pg_roles WHERE rolname = ",
      .constant member,
      .fixed (")\n                AND (" ++
      "\n                    current_setting('server_version_num')::int < 160000" ++
      "\n                    OR m.grantor = " ++
      "(SELECT oid FROM pg_roles WHERE rolname = current_user)" ++
      "\n                )" ++
      "\n            )" ++
      "\n        ")]
  | schema s =>
    [.fixed ("\n            SELECT pg_get_userbyid(nspowner), " ++
      "COALESCE(nspacl, '\x7b\x7d'::aclitem[])::text[]" ++
      "\n            FROM pg_namespace" ++
      "\n            WHERE nspname = "), .constant s, .fixed "\n        "]
  | relationOwners s =>
    [.fixed ("\n            SELECT DISTINCT pg_get_userbyid(c.relowner)" ++
      "\n            FROM pg_class c" ++
      "\n            INNER JOIN pg_namespace n ON n.oid = c.relnamespace" ++
      "\n            WHERE n.nspname = "), .constant s,
      .fixed "\n              AND c.relkind IN ("] ++ constants (tableKinds ++ sequenceKinds) ++
      [.fixed ")\n            ORDER BY 1\n        "]
  | objectPrivileges r t =>
    [.fixed ("\nSELECT o.name, acl.privilege_type, acl.is_grantable" ++
      "\nFROM (" ++
      "\n    ")] ++ objects t ++
    [.fixed ("\n) o" ++
      "\nLEFT JOIN LATERAL (" ++
      "\n    SELECT privilege_type, is_grantable" ++
      "\n    FROM aclexplode(COALESCE(o.acl, acldefault("), .constant (defaultsLetter t.kind),
      .fixed (", o.owner)))" ++
      "\n    WHERE grantee = ")] ++ grantee r ++
    [.fixed ("\n) acl ON true" ++
      "\nORDER BY o.name" ++
      "\n")]
  | roleMembers r =>
    [.fixed ("\n            SELECT members.rolname" ++
      "\n            FROM pg_auth_members am" ++
      "\n            INNER JOIN pg_roles groups ON groups.oid = am.roleid" ++
      "\n            INNER JOIN pg_roles members ON members.oid = am.member" ++
      "\n            WHERE groups.rolname = "), .constant r,
      .fixed "\n            ORDER BY 1\n        "]
  | extension name =>
    [.fixed ("\n            SELECT n.nspname, e.extversion" ++
      "\n            FROM pg_extension e" ++
      "\n            INNER JOIN pg_namespace n ON n.oid = e.extnamespace" ++
      "\n            WHERE e.extname = "), .constant name, .fixed "\n        "]

/-- A clause that is there only where its text is not empty. -/
def clause (keyword : String) (piece : String → Piece) (text : String) : List Piece :=
  if text.isEmpty then [] else [.fixed keyword, piece text]

def Change.pieces : Change → List Piece
  | grant privileges t r withGrantOption =>
    [.fixed ("GRANT " ++ ",".intercalate privileges.keywords ++ " ON ")] ++ target t ++
      [.fixed " TO ", role r] ++ if withGrantOption then [.fixed " WITH GRANT OPTION"] else []
  | revokeAll t r => [.fixed "REVOKE ALL PRIVILEGES ON "] ++ target t ++ [.fixed " FROM ", role r]
  | grantMembership roles member =>
    [.fixed "GRANT "] ++ names roles ++ [.fixed " TO ", .name member]
  | revokeMembership roles member =>
    [.fixed "REVOKE "] ++ names roles ++ [.fixed " FROM ", .name member]
  | createSchema name owner ifNotExists =>
    [.fixed (if ifNotExists then "CREATE SCHEMA IF NOT EXISTS " else "CREATE SCHEMA "),
      .name name] ++ clause " AUTHORIZATION " .name owner
  | renameSchema name newName =>
    [.fixed "ALTER SCHEMA ", .name name, .fixed " RENAME TO ", .name newName]
  | setSchemaOwner name owner =>
    [.fixed "ALTER SCHEMA ", .name name, .fixed " OWNER TO ", .name owner]
  | dropSchema name cascade =>
    [.fixed "DROP SCHEMA ", .name name, .fixed (if cascade then " CASCADE" else " RESTRICT")]
  | createExtension name schema version =>
    [.fixed "CREATE EXTENSION IF NOT EXISTS ", .name name] ++ clause " SCHEMA " .name schema ++
      clause " VERSION " (fun v => .constant v) version
  | setExtensionSchema name schema =>
    [.fixed "ALTER EXTENSION ", .name name, .fixed " SET SCHEMA ", .name schema]
  | updateExtension name version =>
    [.fixed "ALTER EXTENSION ", .name name, .fixed " UPDATE"] ++
      clause " TO " (fun v => .constant v) version
  | dropExtension name => [.fixed "DROP EXTENSION ", .name name]

def Statement.pieces : Statement → List Piece
  | query q => q.pieces
  | change c => c.pieces
  | raw text => [.fixed text]

/-- The characters of pieces in a row, unless one of them cannot be written. -/
def write (pieces : List Piece) : Except ConstantError (List Char) := do
  return (← pieces.mapM Piece.write).flatten

/-- The text of a statement. -/
def Statement.text (s : Statement) : Except ConstantError String := do
  return String.ofList (← write s.pieces)

end DeclaredAccess.Sql
