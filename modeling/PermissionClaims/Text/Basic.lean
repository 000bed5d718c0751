import PermissionClaims.LogLevel
import PermissionClaims.Text.Quoted

/-!
# Texts

A text is made of plain characters, or is a log level, which has the characters of its name and is
told from them only by how it is written.
-/

namespace PermissionClaims

inductive Text where
  | plain (content : String)
  | level (level : LogLevel)
  deriving DecidableEq, Repr

namespace Text

/-- The characters of a text. Texts are compared by them. -/
def content : Text → String
  | plain s => s
  | level l => l.name

/-- A text as it stands within another: a level in full, by the name of its type and its own. -/
def display : Text → List Char
  | plain s => s.toList
  | level l => "LogLevel.".toList ++ l.name.toList

def render : Text → List Char
  | plain s => quoted s.toList
  | level l => '<' :: (display (level l) ++ ": ".toList ++ quoted l.name.toList ++ ['>'])

theorem content_plain (s : String) : (plain s).content = s := rfl

end Text

end PermissionClaims
