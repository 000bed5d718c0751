import PermissionClaims.Number.Layout
import PermissionClaims.Value.Basic

/-!
# The text of a value

`render` writes a value so that its kind can be told: texts and bytes are quoted, lists stand in
brackets, tuples in parentheses and dictionaries in braces. `display` differs from it on texts
alone, which it leaves bare.
-/

namespace PermissionClaims.Value

def separator : List Char :=
  [',', ' ']

mutual

def render : Value → List Char
  | null => "None".toList
  | bool true => "True".toList
  | bool false => "False".toList
  | int n => n.toList
  | float x => x.render
  | text t => t.render
  | bytes b => Text.quotedBytes b
  | list items => '[' :: (separator.intercalate (renderAll items) ++ [']'])
  | tuple items =>
    let final := if items.length = 1 then [','] else []
    '(' :: (separator.intercalate (renderAll items) ++ final ++ [')'])
  | dict entries => '\x7b' :: (separator.intercalate (renderEntries entries) ++ ['\x7d'])

def renderAll : List Value → List (List Char)
  | [] => []
  | v :: vs => render v :: renderAll vs

def renderEntries : List (Value × Value) → List (List Char)
  | [] => []
  | (k, v) :: rest => (render k ++ [':', ' '] ++ render v) :: renderEntries rest

end

def display : Value → List Char
  | text t => t.display
  | v => render v

def rendered (v : Value) : String :=
  String.ofList v.render

def displayed (v : Value) : String :=
  String.ofList v.display

end PermissionClaims.Value
