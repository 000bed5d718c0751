/-!
# Upper and lower case

Both maps are those of Unicode as far as ASCII is concerned: a character whose image holds an ASCII
character is mapped in full, and any other character, whose image holds none, is left alone. A word
of ASCII letters is therefore the image of exactly the texts it should be.
-/

namespace PermissionClaims.Text

def upperChar (c : Char) : List Char :=
  if c.isLower then [c.toUpper] else
    match c.toNat with
    | 0x00df => ['S', 'S']
    | 0x0131 => ['I']
    | 0x0149 => ['\u02bc', 'N']
    | 0x017f => ['S']
    | 0x01f0 => ['J', '\u030c']
    | 0x1e96 => ['H', '\u0331']
    | 0x1e97 => ['T', '\u0308']
    | 0x1e98 => ['W', '\u030a']
    | 0x1e99 => ['Y', '\u030a']
    | 0x1e9a => ['A', '\u02be']
    | 0xfb00 => ['F', 'F']
    | 0xfb01 => ['F', 'I']
    | 0xfb02 => ['F', 'L']
    | 0xfb03 => ['F', 'F', 'I']
    | 0xfb04 => ['F', 'F', 'L']
    | 0xfb05 => ['S', 'T']
    | 0xfb06 => ['S', 'T']
    | _ => [c]

def lowerChar (c : Char) : List Char :=
  if c.isUpper then [c.toLower] else
    match c.toNat with
    | 0x0130 => ['i', '\u0307']
    | 0x212a => ['k']
    | _ => [c]

def upper (cs : List Char) : List Char :=
  cs.flatMap upperChar

def lower (cs : List Char) : List Char :=
  cs.flatMap lowerChar

end PermissionClaims.Text
