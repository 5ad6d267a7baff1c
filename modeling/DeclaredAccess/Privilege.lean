import DeclaredAccess.Text.Blank
import DeclaredAccess.Text.Keyword

/-! The privileges that can be granted, with the keyword and the letter that denote each. -/

namespace DeclaredAccess

/-- A privilege on a database or on an object in it. -/
inductive Privilege
  | select | insert | update | delete | truncate | references | trigger | create | connect
  | temporary | execute | usage | set | alterSystem | maintain
  deriving DecidableEq, Repr

namespace Privilege

/-- Every privilege, in the order in which statements name them. -/
def all : List Privilege :=
  [select, insert, update, delete, truncate, references, trigger, create, connect, temporary,
    execute, usage, set, alterSystem, maintain]

theorem mem_all (p : Privilege) : p ∈ all := by cases p <;> decide

/-- The keyword in statements. -/
def keyword : Privilege → String
  | select => "SELECT"
  | insert => "INSERT"
  | update => "UPDATE"
  | delete => "DELETE"
  | truncate => "TRUNCATE"
  | references => "REFERENCES"
  | trigger => "TRIGGER"
  | create => "CREATE"
  | connect => "CONNECT"
  | temporary => "TEMPORARY"
  | execute => "EXECUTE"
  | usage => "USAGE"
  | set => "SET"
  | alterSystem => "ALTER SYSTEM"
  | maintain => "MAINTAIN"

/-- The letter in an entry of an access control list. -/
def letter : Privilege → Char
  | select => 'r'
  | insert => 'a'
  | update => 'w'
  | delete => 'd'
  | truncate => 'D'
  | references => 'x'
  | trigger => 't'
  | create => 'C'
  | connect => 'c'
  | temporary => 'T'
  | execute => 'X'
  | usage => 'U'
  | set => 's'
  | alterSystem => 'A'
  | maintain => 'm'

def ofLetter? (c : Char) : Option Privilege := all.find? (·.letter == c)

/-- The privilege that a name spells: letter case and white space at the ends do not matter, a
blank may be written as an underscore, and the short form of `TEMPORARY` is known. -/
def ofName? (name : String) : Option Privilege :=
  let spelt := String.ofList
    ((Text.keyword (Text.trim name)).toList.map fun c => if c = '_' then ' ' else c)
  if spelt = "TEMP" then some temporary else all.find? (·.keyword == spelt)

theorem ofLetter?_letter (p : Privilege) : ofLetter? p.letter = some p := by cases p <;> decide

theorem ofLetter?_eq_some_iff {c : Char} {p : Privilege} : ofLetter? c = some p ↔ c = p.letter := by
  refine ⟨fun h => ?_, fun h => h ▸ ofLetter?_letter p⟩
  have := List.find?_some h
  exact (beq_iff_eq.mp this).symm

theorem keyword_injective {p q : Privilege} (h : p.keyword = q.keyword) : p = q := by
  cases p <;> cases q <;> first | rfl | exact absurd h (by decide)

end Privilege

end DeclaredAccess
