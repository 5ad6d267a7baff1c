import DeclaredAccess.Text.Case

/-! Names of roles. The empty name stands for `PUBLIC`, every role at once. -/

namespace DeclaredAccess.Role

/-- The key of a role: two spellings that differ in letter case have one key, and `PUBLIC` keeps
a key of its own. -/
def key (role : String) : String := Text.lower role

/-- The role in running text. -/
def label (role : String) : String := if role.isEmpty then "PUBLIC" else role

end DeclaredAccess.Role
