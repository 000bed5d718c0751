import PermissionClaims.Named
import PermissionClaims.Number.Binary64
import PermissionClaims.Text.Basic

/-!
# Values

Whatever a caller may hand over where claim text or a setting is expected. An integer is one that
can be written, of at most `Number.maxDigits` digits, so that every value has a text. A dictionary
keeps its entries in the order in which their keys first came.
-/

namespace PermissionClaims

inductive Value where
  | null
  | bool (b : Bool)
  | int (n : Numeral)
  | float (x : Binary64)
  | text (t : Text)
  | bytes (bytes : List UInt8)
  | list (items : List Value)
  | tuple (items : List Value)
  | dict (entries : List (Value × Value))

namespace Value

def plain (s : String) : Value :=
  text (.plain s)

def level (l : LogLevel) : Value :=
  text (.level l)

def asText? : Value → Option Text
  | text t => some t
  | _ => none

def kind : Value → String
  | null => "NoneType"
  | bool _ => "bool"
  | int _ => "int"
  | float _ => "float"
  | text (.plain _) => "str"
  | text (.level _) => "LogLevel"
  | bytes _ => "bytes"
  | list _ => "list"
  | tuple _ => "tuple"
  | dict _ => "dict"

/-- Whether a value counts as given where there is a default. -/
def isTruthy : Value → Bool
  | null => false
  | bool b => b
  | int n => n.toInt ≠ 0
  | float (.finite _ m _) => m ≠ 0
  | float _ => true
  | text t => t.content ≠ ""
  | bytes b => b ≠ []
  | list items => !items.isEmpty
  | tuple items => !items.isEmpty
  | dict entries => !entries.isEmpty

end Value

abbrev Fields := Named Value

end PermissionClaims
