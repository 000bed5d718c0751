import PermissionClaims.Named

/-!
# Patterns

A pattern says how a text can be read on from where a reader stands in it. Where there are several
ways, they come in order of preference: a first choice before a second, and many repetitions before
few. A whole text is matched by the first way that leaves nothing of it.
-/

namespace PermissionClaims

/-- Where a reader stands: how many characters it has read, which ones, the last one first, what is
ahead, and the groups read on the way. -/
structure Cursor where
  position : Nat
  behind : List Char
  ahead : List Char
  groups : Named (List Char)

def Cursor.start (cs : List Char) : Cursor :=
  ⟨0, [], cs, []⟩

def Cursor.since (t s : Cursor) : List Char :=
  s.ahead.take (t.position - s.position)

inductive Pattern where
  | nothing
  | one (isIn : Char → Bool)
  | seq (p q : Pattern)
  | either (p q : Pattern)
  | many (p : Pattern)
  /-- Reads nothing, where a character of a class is next. -/
  | followedBy (isIn : Char → Bool)
  /-- Reads nothing, where a character of a class was last. -/
  | precededBy (isIn : Char → Bool)
  | group (name : String) (p : Pattern)

namespace Pattern

def char (c : Char) : Pattern :=
  one (· = c)

def atLeastOnce (p : Pattern) : Pattern :=
  seq p (many p)

def optional (p : Pattern) : Pattern :=
  either p nothing

/-- Where a step leads when it is taken up to `n` times. A step that reads nothing does not
count. -/
def repeated (step : Cursor → List Cursor) : Nat → Cursor → List Cursor
  | 0, s => [s]
  | n + 1, s =>
    ((step s).filter fun t => s.position < t.position).flatMap (repeated step n) ++ [s]

/-- Where a reader may stand after a pattern. -/
def ends : Pattern → Cursor → List Cursor
  | nothing, s => [s]
  | one isIn, s =>
    match s.ahead with
    | [] => []
    | c :: rest => if isIn c then [⟨s.position + 1, c :: s.behind, rest, s.groups⟩] else []
  | seq p q, s => (p.ends s).flatMap q.ends
  | either p q, s => p.ends s ++ q.ends s
  | many p, s => repeated p.ends s.ahead.length s
  | followedBy isIn, s => if s.ahead.head?.any isIn then [s] else []
  | precededBy isIn, s => if s.behind.head?.any isIn then [s] else []
  | group name p, s => (p.ends s).map fun t => { t with groups := t.groups.set name (t.since s) }

/-- The groups of the first match of a whole text. -/
def fullMatch? (p : Pattern) (cs : List Char) : Option (Named (List Char)) :=
  ((p.ends (.start cs)).find? fun t => t.ahead.isEmpty).map (·.groups)

def accepts (p : Pattern) (cs : List Char) : Bool :=
  (p.fullMatch? cs).isSome

end Pattern

end PermissionClaims
