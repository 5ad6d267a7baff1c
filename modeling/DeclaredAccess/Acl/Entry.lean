import DeclaredAccess.Acl
import DeclaredAccess.Text.Case
import DeclaredAccess.Text.Digit

/-! The text of an access control list's entry: the grantee, `=`, a letter for each privilege
with a star for its grant option, and `/` with the grantor. A name stands in double quotes, with
each quote inside it written twice, unless it is made of lower-case letters, digits and
underscores. -/

namespace DeclaredAccess

/-- Why a text is no entry. -/
inductive EntryError
  | openQuote
  | noEquals
  | strayStar
  | unknownLetter (c : Char)
  /-- Something in the place of a letter, as it stands in messages. -/
  | unknownItem (item : String)
  | trailing
  deriving DecidableEq

/-- The message about an entry, which is given as it stands in messages. -/
def EntryError.message (entry : String) : EntryError → String
  | openQuote => "Unterminated quoted role name in ACL entry " ++ entry
  | noEquals => "Missing \"=\" in ACL entry " ++ entry
  | strayStar => "Grant option marker without a privilege in ACL entry " ++ entry
  | unknownLetter c =>
    "Unknown privilege " ++ Text.quoted (String.singleton c) ++ " in ACL entry " ++ entry
  | unknownItem item => "Unknown privilege " ++ item ++ " in ACL entry " ++ entry
  | trailing => "Unexpected trailing characters in ACL entry " ++ entry

namespace Acl.Entry

/-- A quoted name after its opening quote, and what follows the closing one. -/
def closeQuote? : List Char → Option (List Char × List Char)
  | [] => none
  | '"' :: '"' :: r => (closeQuote? r).map fun x => ('"' :: x.1, x.2)
  | '"' :: r => some ([], r)
  | c :: r => (closeQuote? r).map fun x => (c :: x.1, x.2)

/-- A name in front of a text, and what follows it: a bare name goes on up to `stop`. -/
def name (stop : Char) : List Char → Except EntryError (List Char × List Char)
  | '"' :: r => match closeQuote? r with
    | some x => .ok x
    | none => .error .openQuote
  | cs => .ok (cs.takeWhile (· != stop), cs.dropWhile (· != stop))

/-- Privilege letters, each with whether a star follows it. -/
def holdings : List Char → Except EntryError (List (Privilege × Bool))
  | [] => .ok []
  | c :: r =>
    if c = '*' then .error .strayStar
    else match Privilege.ofLetter? c with
      | none => .error (.unknownLetter c)
      | some p => match r with
        | '*' :: r => (holdings r).map ((p, true) :: ·)
        | r => (holdings r).map ((p, false) :: ·)

/-- What a role holds by a list of privileges, each with or without grant option. -/
def ofHoldings (role : String) (held : List (Privilege × Bool)) (grantor : String) : Acl where
  role := role
  privileges := .ofList (held.map (·.1))
  grantOptions := .ofList ((held.filter (·.2)).map (·.1))
  grantor := grantor
  covered := fun p hp => by
    simp only [PrivilegeSet.mem_ofList, List.mem_map, List.mem_filter] at hp ⊢
    obtain ⟨x, ⟨hx, _⟩, e⟩ := hp
    exact ⟨x, hx, e⟩

/-- The grantor in what follows the privileges, empty where none is given. -/
def grantor : List Char → Except EntryError (List Char)
  | [] => .ok []
  | _ :: r => do
    let (granter, rest) ← name '/' r
    if rest.isEmpty then .ok granter else .error .trailing

def readChars (cs : List Char) : Except EntryError Acl := do
  let (role, r) ← name '=' cs
  match r with
  | '=' :: r =>
    let held ← holdings (r.takeWhile (· != '/'))
    let granter ← grantor (r.dropWhile (· != '/'))
    return ofHoldings (String.ofList role) held (String.ofList granter)
  | _ => .error .noEquals

/-- The entry that a text denotes. -/
def read (entry : String) : Except EntryError Acl := readChars entry.toList

/-- A character that needs no quotes around it. -/
def isPlain (c : Char) : Bool := Text.isLower c || Text.isDigit c || c == '_'

/-- The characters of a quoted name, without the quotes around it. -/
def doubleQuotes (cs : List Char) : List Char :=
  cs.flatMap fun c => if c = '"' then ['"', '"'] else [c]

def writeName (cs : List Char) : List Char :=
  if cs.all isPlain then cs else '"' :: doubleQuotes cs ++ ['"']

def writeHoldings (a : Acl) : List Char :=
  a.privileges.toList.flatMap fun p => if p ∈ a.grantOptions then [p.letter, '*'] else [p.letter]

def writeChars (a : Acl) : List Char :=
  writeName a.role.toList ++ '=' :: writeHoldings a ++
    if a.grantor.isEmpty then [] else '/' :: writeName a.grantor.toList

/-- The entry as text. -/
def write (a : Acl) : String := String.ofList (writeChars a)

end Acl.Entry

end DeclaredAccess
