import PermissionClaims.Value.Render

/-!
# Previews

What a log line shows of a value from outside: its rendered form, with line breaks written out, cut
to a number of characters, of which the last is then an ellipsis. Nothing is shown of no value.
-/

namespace PermissionClaims.Log

def ellipsis : Char := '…'

/-- The first `n` characters; for a negative `n`, all but the last `-n`. -/
def firstChars (n : Int) (cs : List Char) : List Char :=
  cs.take (if 0 ≤ n then n else cs.length + n).toNat

def cutTo (limit : Int) (cs : List Char) : List Char :=
  if limit < cs.length then firstChars (limit - 1) cs ++ [ellipsis] else cs

def escapeBreak (c : Char) : List Char :=
  if c = '\n' then ['\\', 'n'] else if c = '\r' then ['\\', 'r'] else [c]

def oneLine (cs : List Char) : List Char :=
  cs.flatMap escapeBreak

def defaultLimit : Int := 240

def preview (limit : Int) : Value → List Char
  | .null => []
  | v => cutTo limit (oneLine v.render)

end PermissionClaims.Log
