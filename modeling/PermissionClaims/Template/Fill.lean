import PermissionClaims.Template.Conversion

/-!
# Filling a template with values

Values come one after the other, or as one dictionary, which a place can ask for a value by name; a
dictionary can also be a value itself, once and as the whole. All values have to be used, except
those that have names.
-/

namespace PermissionClaims.Template

/-- The values left to fill a template with. With names there is at most one left, the dictionary
or the value that was last asked for. -/
structure Values where
  named : Option (List (Value × Value))
  left : List Value

namespace Values

/-- A single dictionary that is not empty is one of names. -/
def ofList : List Value → Values
  | [.dict (e :: es)] => ⟨some (e :: es), [.dict (e :: es)]⟩
  | vs => ⟨none, vs⟩

def next (vs : Values) : Except Fault (Value × Values) :=
  match vs.left with
  | [] => .error .tooFewValues
  | v :: rest => .ok (v, { vs with left := rest })

def look (vs : Values) : Key → Except Fault Values
  | .none => .ok vs
  | key =>
    match vs.named, key with
    | none, _ => .error .noNames
    | some entries, .named name =>
      match Value.entry? (String.ofList name) entries with
      | some v => .ok { vs with left := [v] }
      | none => .error (.unknownName (String.ofList name))
    | some _, _ => .error .unclosedName

end Values

def maxWidth : Int := 0x7fffffffffffffff

def maxPrecision : Int := 0x7fffffff

def maxLength : Nat := 0xffffffff

/-- The size of a number as a width. The least of the numbers has none. -/
def sizeOf (n : Int) : Nat :=
  if n < -maxWidth then 0 else n.natAbs

/-- The width of a place. A negative number stands for its size, and for the value on the left. -/
def width (vs : Values) : Option Amount → Except Fault (Nat × Bool × Values)
  | none => .ok (0, false, vs)
  | some (.given n) => if maxWidth < n then .error .widthTooBig else .ok (n, false, vs)
  | some .taken => do
    let (v, vs) ← vs.next
    match v.asInt? with
    | none => throw .starNotWhole
    | some n =>
      if n < -maxWidth - 1 ∨ maxWidth < n then throw .starWidthTooLarge
      return (sizeOf n, n < 0, vs)

/-- The precision of a place; a negative number counts as zero. -/
def precision (vs : Values) : Option Amount → Except Fault (Option Nat × Values)
  | none => .ok (none, vs)
  | some (.given n) => if maxPrecision < n then .error .precisionTooBig else .ok (some n, vs)
  | some .taken => do
    let (v, vs) ← vs.next
    match v.asInt? with
    | none => throw .starNotWhole
    | some n =>
      if n < -maxPrecision - 1 ∨ maxPrecision < n then throw .starPrecisionTooLarge
      return (some n.toNat, vs)

def fillPlace (p : Place) (vs : Values) : Except Fault (List Char × Values) := do
  let vs ← vs.look p.key
  let (width, turned, vs) ← width vs p.width
  let (precision, vs) ← precision vs p.precision
  match p.letter with
  | none => throw .cutOff
  | some letter =>
    let (v, vs) ← vs.next
    let (written, isNumber) ← write p precision letter v
    if maxLength < width then throw .textTooLong
    return (written.fill (p.flags.left || turned) (isNumber && p.flags.zero) width, vs)

def fillPieces : List Piece → Values → Except Fault (List Char)
  | [], vs => if vs.named.isNone ∧ vs.left ≠ [] then .error .tooManyValues else .ok []
  | .literal c :: rest, vs => do return c :: (← fillPieces rest vs)
  | .place p :: rest, vs => do
    let (text, vs) ← fillPlace p vs
    if vs.named.isSome ∧ !vs.left.isEmpty then throw .tooManyValues
    return text ++ (← fillPieces rest vs)

def fill (template : List Char) (values : List Value) : Except Fault (List Char) :=
  fillPieces (pieces template) (Values.ofList values)

end PermissionClaims.Template
