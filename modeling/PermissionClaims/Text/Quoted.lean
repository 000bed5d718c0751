import PermissionClaims.Text.Printable

/-!
# Quoted texts

A quoted text stands between two equal quotes, single ones unless it holds a single quote and no
double one. A quote of that kind and a backslash get a backslash; a character that does not show as
itself is written by its code point, in two, four or eight hexadecimal digits, whichever is the
least that will do, or as `\n`, `\r` or `\t`. So every character of the written form is printable.
-/

namespace PermissionClaims.Text

/-- The last `width` hexadecimal digits of `n`, the most significant first. -/
def hexDigits : (width n : Nat) → List Char
  | 0, _ => []
  | width + 1, n => hexDigits width (n / 16) ++ [Nat.digitChar (n % 16)]

def codeEscape (c : Char) : List Char :=
  let n := c.toNat
  if n < 0x100 then '\\' :: 'x' :: hexDigits 2 n
  else if n < 0x10000 then '\\' :: 'u' :: hexDigits 4 n
  else '\\' :: 'U' :: hexDigits 8 n

/-- A character between quotes `q`, where those that satisfy `raw` show as themselves. -/
def escape (raw : Char → Bool) (q c : Char) : List Char :=
  if c = q ∨ c = '\\' then ['\\', c]
  else if c = '\n' then ['\\', 'n']
  else if c = '\r' then ['\\', 'r']
  else if c = '\t' then ['\\', 't']
  else if raw c then [c]
  else codeEscape c

def singleQuote : Char := '\x27'

def doubleQuote : Char := '\x22'

/-- The quote that saves most escapes, and the single one in doubt. -/
def quoteFor (cs : List Char) : Char :=
  if singleQuote ∈ cs ∧ doubleQuote ∉ cs then doubleQuote else singleQuote

def quotedWith (raw : Char → Bool) (cs : List Char) : List Char :=
  let q := quoteFor cs
  q :: (cs.flatMap (escape raw q) ++ [q])

def quoted (cs : List Char) : List Char :=
  quotedWith isPrintable cs

/-- Bytes are quoted as the characters of their values, after a `b`, and only those of ASCII show
as themselves. -/
def quotedBytes (bytes : List UInt8) : List Char :=
  'b' :: quotedWith isPlainAscii (bytes.map fun b => Char.ofNat b.toNat)

def asciiOnly (cs : List Char) : List Char :=
  cs.flatMap fun c => if c.toNat < 0x80 then [c] else codeEscape c

end PermissionClaims.Text
