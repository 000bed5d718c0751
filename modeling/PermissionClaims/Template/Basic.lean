import PermissionClaims.Number.Decimal

/-!
# Templates

A template is a text in which a percent sign starts a place where a value is put. A place may name
the value in parentheses, and goes on with flags, a width, a precision and a letter that says how
the value is written; a star for width or precision takes the number from the values. Two percent
signs next to each other stand for one; a percent sign is no letter of a place.

A template is read into pieces without regard to any values, so that what is wrong with it shows
where it is reached and not before.
-/

namespace PermissionClaims.Template

structure Flags where
  left : Bool
  plus : Bool
  blank : Bool
  alternate : Bool
  zero : Bool
  deriving DecidableEq, Repr

/-- A number that a place has, or takes from the values. -/
inductive Amount where
  | given (n : Nat)
  | taken
  deriving DecidableEq, Repr

/-- The name of a value: none, one that is complete, or one that the template ends within. -/
inductive Key where
  | none
  | named (name : List Char)
  | unclosed
  deriving DecidableEq, Repr

/-- A place for a value. The letter is absent if the template ends before it; `index` says where in
the template it stands. -/
structure Place where
  key : Key
  flags : Flags
  width : Option Amount
  precision : Option Amount
  letter : Option Char
  index : Nat
  deriving Repr

inductive Piece where
  | literal (c : Char)
  | place (p : Place)
  deriving Repr

/-- A name up to the parenthesis that closes it, past `depth` further ones; within it parentheses
are balanced. -/
def spanKey (depth : Nat) : List Char → Option (List Char × List Char)
  | [] => none
  | c :: cs =>
    if c = ')' then
      match depth with
      | 0 => some ([], cs)
      | depth + 1 => (spanKey depth cs).map fun (key, rest) => (c :: key, rest)
    else
      (spanKey (if c = '(' then depth + 1 else depth) cs).map fun (key, rest) => (c :: key, rest)

def readKey : List Char → Key × List Char
  | '(' :: cs =>
    match spanKey 0 cs with
    | some (key, rest) => (.named key, rest)
    | none => (.unclosed, [])
  | cs => (.none, cs)

def isFlag (c : Char) : Bool :=
  c = '-' || c = '+' || c = ' ' || c = '#' || c = '0'

def flagsOf (cs : List Char) : Flags :=
  ⟨'-' ∈ cs, '+' ∈ cs, ' ' ∈ cs, '#' ∈ cs, '0' ∈ cs⟩

def readWidth : List Char → Option Amount × List Char
  | '*' :: cs => (some .taken, cs)
  | cs =>
    let ds := cs.takeWhile Char.isDigit
    (if ds = [] then none else some (.given (Number.ofDigits ds)), cs.dropWhile Char.isDigit)

/-- A precision comes after a point; without digits it is zero. -/
def readPrecision : List Char → Option Amount × List Char
  | '.' :: '*' :: cs => (some .taken, cs)
  | '.' :: cs =>
    (some (.given (Number.ofDigits (cs.takeWhile Char.isDigit))), cs.dropWhile Char.isDigit)
  | cs => (none, cs)

/-- One letter for the size of a number may stand before the last letter and says nothing. -/
def skipSize : List Char → List Char
  | 'h' :: cs => cs
  | 'l' :: cs => cs
  | 'L' :: cs => cs
  | cs => cs

/-- The place that starts after a percent sign, and what comes after it, in a template of a given
length. -/
def readPlace (length : Nat) (cs : List Char) : Place × List Char :=
  let (key, cs) := readKey cs
  let flags := flagsOf (cs.takeWhile isFlag)
  let (width, cs) := readWidth (cs.dropWhile isFlag)
  let (precision, cs) := readPrecision cs
  match skipSize cs with
  | [] => (⟨key, flags, width, precision, none, length⟩, [])
  | c :: rest => (⟨key, flags, width, precision, some c, length - rest.length - 1⟩, rest)

theorem length_spanKey_le {depth : Nat} {cs key rest : List Char}
    (h : spanKey depth cs = some (key, rest)) : rest.length ≤ cs.length := by
  fun_induction spanKey depth cs generalizing key rest with
  | case1 => simp at h
  | case2 cs => simp_all
  | case3 cs depth ih =>
    obtain ⟨⟨key', rest'⟩, hr, he⟩ := Option.map_eq_some_iff.1 h
    cases he
    exact Nat.le_succ_of_le (ih hr)
  | case4 depth c cs hc ih =>
    obtain ⟨⟨key', rest'⟩, hr, he⟩ := Option.map_eq_some_iff.1 h
    cases he
    exact Nat.le_succ_of_le (ih hr)

theorem length_readKey_le (cs : List Char) : (readKey cs).2.length ≤ cs.length := by
  unfold readKey
  split
  · split
    · rename_i h
      exact Nat.le_succ_of_le (length_spanKey_le h)
    · simp
  · simp

theorem length_dropWhile_le {p : Char → Bool} (cs : List Char) :
    (cs.dropWhile p).length ≤ cs.length :=
  (List.dropWhile_sublist p).length_le

theorem length_readWidth_le (cs : List Char) : (readWidth cs).2.length ≤ cs.length := by
  unfold readWidth
  split
  · simp
  · exact length_dropWhile_le cs

theorem length_readPrecision_le (cs : List Char) : (readPrecision cs).2.length ≤ cs.length := by
  unfold readPrecision
  split
  · simp only [List.length_cons]
    omega
  · exact Nat.le_succ_of_le (length_dropWhile_le _)
  · simp

theorem length_skipSize_le (cs : List Char) : (skipSize cs).length ≤ cs.length := by
  unfold skipSize
  split <;> simp

theorem length_readPlace_le (length : Nat) (cs : List Char) :
    (readPlace length cs).2.length ≤ cs.length := by
  have h₁ := length_readKey_le cs
  have h₂ := length_dropWhile_le (p := isFlag) (readKey cs).2
  have h₃ := length_readWidth_le ((readKey cs).2.dropWhile isFlag)
  have h₄ := length_readPrecision_le (readWidth ((readKey cs).2.dropWhile isFlag)).2
  have h₅ := length_skipSize_le (readPrecision (readWidth ((readKey cs).2.dropWhile isFlag)).2).2
  simp only [readPlace]
  split
  · simp
  · rename_i h
    simp only [h, List.length_cons] at h₅
    simp only
    omega

def piecesFrom (length : Nat) : List Char → List Piece
  | [] => []
  | '%' :: '%' :: cs => .literal '%' :: piecesFrom length cs
  | '%' :: cs =>
    have := length_readPlace_le length cs
    .place (readPlace length cs).1 :: piecesFrom length (readPlace length cs).2
  | c :: cs => .literal c :: piecesFrom length cs
termination_by cs => cs.length
decreasing_by all_goals (simp only [List.length_cons]; omega)

def pieces (template : List Char) : List Piece :=
  piecesFrom template.length template

end PermissionClaims.Template
