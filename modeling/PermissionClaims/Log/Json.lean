import PermissionClaims.Named
import PermissionClaims.Text.Quoted

/-!
# Texts in JSON

A text stands between double quotes. Within it a quote and a backslash get a backslash, and a
control character is written by its letter or, if it has none, by its code point; anything else is
left as it is.
-/

namespace PermissionClaims.Log.Json

def escapeChar (c : Char) : List Char :=
  if c = Text.doubleQuote ∨ c = '\\' then ['\\', c]
  else if c = '\n' then ['\\', 'n']
  else if c = '\r' then ['\\', 'r']
  else if c = '\t' then ['\\', 't']
  else if c = '\x0c' then ['\\', 'f']
  else if c = '\x08' then ['\\', 'b']
  else if c.toNat < 0x20 then '\\' :: 'u' :: Text.hexDigits 4 c.toNat
  else [c]

def ofText (cs : List Char) : List Char :=
  Text.doubleQuote :: (cs.flatMap escapeChar ++ [Text.doubleQuote])

def member (name text : String) : List Char :=
  ofText name.toList ++ [':', ' '] ++ ofText text.toList

def ofEntries (entries : Named String) : List Char :=
  '\x7b' :: ([',', ' '].intercalate (entries.map fun e => member e.1 e.2) ++ ['\x7d'])

end PermissionClaims.Log.Json
