import DeclaredAccess.Error

/-! An entry of an access control list that comes cut into items. The items stand for the entry's
characters, and one of several characters is part of a name like any other. Two things differ from
a text: no quote can stand inside a quoted name, and only a quoted name becomes a text, so that an
entry with a bare role has no key. -/

namespace DeclaredAccess.Acl

namespace Items

def mark (c : Char) : Value := .text (String.singleton c)

/-- The items before the quote that closes a name, and those after it. -/
def closeQuote? : List Value → Option (List Value × List Value)
  | [] => none
  | v :: r =>
    if v == mark '"' then some ([], r) else (closeQuote? r).map fun x => (v :: x.1, x.2)

/-- A quoted name after its opening quote, and what follows it. -/
def quotedName (entry : Value) (items : List Value) : Except Error (Value × List Value) :=
  match closeQuote? items with
  | none => .error (.entry entry .openQuote)
  | some (inside, r) => match inside.mapM Value.text? with
    | some parts => .ok (.text (String.join parts), r)
    | none => .error (.shape (.notAName (.list inside)))

/-- Whether a bare name goes on with an item: it ends at `stop` and at an empty text. -/
def continues (stop : Char) : Value → Bool
  | .text s => s != String.singleton stop && !s.isEmpty
  | _ => false

/-- A bare name, which stays a list of items, and what follows it. -/
def bareName (stop : Char) (items : List Value) : Except Error (Value × List Value) :=
  let found : Value := .list (items.takeWhile (continues stop))
  match items.dropWhile (continues stop) with
  | [] => .ok (found, [])
  | .text s :: r => .ok (found, .text s :: r)
  | v :: _ => .error (.shape (.notAName v))

def name (entry : Value) (stop : Char) (items : List Value) : Except Error (Value × List Value) :=
  match items with
  | v :: r => if v == mark '"' then quotedName entry r else bareName stop items
  | [] => bareName stop items

/-- The privilege whose letter an item is. -/
def letter (entry v : Value) : Except Error Privilege :=
  if v.isCollection then .error (.shape (.notAMember v))
  else match Privilege.all.find? fun p => v == mark p.letter with
    | some p => .ok p
    | none => .error (.entry entry (.unknownItem v.quoted))

/-- Privilege letters, each with whether a star follows it; a star may come first only where
`starred` allows it, which is after a letter. -/
def holdings (entry : Value) (starred : Bool) : List Value → Except Error (List (Privilege × Bool))
  | [] => .ok []
  | v :: r =>
    if v == mark '*' then
      if starred then holdings entry false r else .error (.entry entry .strayStar)
    else do
      let p ← letter entry v
      let held ← holdings entry true r
      return (p, r.head? == some (mark '*')) :: held

/-- The grantor in what follows the privileges: a bare one is no text and is not kept. -/
def grantor (entry : Value) : List Value → Except Error String
  | [] => .ok ""
  | _ :: r => do
    let (granter, rest) ← name entry '/' r
    if rest.isEmpty then return granter.text?.getD "" else throw (.entry entry .trailing)

def read (entry : Value) (items : List Value) : Except Error Acl := do
  let (role, r) ← name entry '=' items
  if r.head? != some (mark '=') then throw (.entry entry .noEquals)
  let rest := r.drop 1
  let held ← holdings entry false (rest.takeWhile (· != mark '/'))
  let granter ← grantor entry (rest.dropWhile (· != mark '/'))
  match role with
  | .text role => return Entry.ofHoldings role held granter
  | role => throw (.shape (.noLetters role))

end Items

/-- What the catalog gives as an entry of an access control list. -/
def ofEntry (entry : Value) : Except Error Acl := match entry with
  | .text s => match Entry.read s with
    | .ok a => .ok a
    | .error e => .error (.entry entry e)
  | .list items => Items.read entry items
  | .object (_ :: _) => .error (.shape (.noPlaces entry))
  | _ => .error (.shape (.notAList entry))

end DeclaredAccess.Acl
