import Mathlib.Tactic.SplitIfs
import PermissionClaims.Proofs.JsonReading

/-!
# Quoted texts read back

A quoted text is read from its first quote to the next one that has no backslash before it. What is
written of a character within the quotes is read as that character (`readQuoted_escape`), whichever
of them show as themselves, so two texts are never quoted alike (`quotedWith_injective`).
-/

namespace PermissionClaims.Text

open Log.Json (ofHex? ofHex?_hexDigits)

/-- The number of digits that a letter after a backslash announces. -/
def codeWidth? (letter : Char) : Option Nat :=
  [('x', 2), ('u', 4), ('U', 8)].lookup letter

/-- What a character stands for after a backslash, if it announces no digits. -/
def unescaped? (letter : Char) : Option Char :=
  [(singleQuote, singleQuote), (doubleQuote, doubleQuote), ('\\', '\\'), ('n', '\n'), ('r', '\r'),
    ('t', '\t')].lookup letter

/-- The text before a closing quote `q`, behind which there is nothing. -/
def readQuoted (q : Char) : List Char → Option (List Char)
  | [] => none
  | '\\' :: letter :: cs =>
    match codeWidth? letter with
    | some width => do
      let c ← ofHex? (cs.take width)
      (readQuoted q (cs.drop width)).map (c :: ·)
    | none => do
      let c ← unescaped? letter
      (readQuoted q cs).map (c :: ·)
  | c :: cs =>
    if c = q then if cs = [] then some [] else none
    else (readQuoted q cs).map (c :: ·)
termination_by cs => cs.length

def isQuote (c : Char) : Bool :=
  c = singleQuote || c = doubleQuote

def unquoted? : List Char → Option (List Char)
  | [] => none
  | q :: cs => if isQuote q then readQuoted q cs else none

theorem isQuote_iff {c : Char} : isQuote c = true ↔ c = singleQuote ∨ c = doubleQuote := by
  rw [isQuote, Bool.or_eq_true, decide_eq_true_eq, decide_eq_true_eq]

theorem isQuote_quoteFor (cs : List Char) : isQuote (quoteFor cs) = true := by
  unfold quoteFor
  split <;> decide

theorem length_hexDigits : ∀ width n : Nat, (hexDigits width n).length = width
  | 0, _ => rfl
  | width + 1, n => by
    rw [hexDigits, List.length_append, length_hexDigits width]
    rfl

variable {q letter c : Char}

theorem readQuoted_code {width : Nat} (hl : codeWidth? letter = some width)
    (hc : c.toNat < 16 ^ width) (rest : List Char) :
    readQuoted q ('\\' :: letter :: (hexDigits width c.toNat ++ rest))
      = (readQuoted q rest).map (c :: ·) := by
  have hlen := length_hexDigits width c.toNat
  rw [readQuoted, hl]
  simp [List.take_left' hlen, List.drop_left' hlen, ofHex?_hexDigits hc]

theorem readQuoted_letter (hw : codeWidth? letter = none) (hl : unescaped? letter = some c)
    (rest : List Char) :
    readQuoted q ('\\' :: letter :: rest) = (readQuoted q rest).map (c :: ·) := by
  rw [readQuoted, hw, hl]
  rfl

theorem readQuoted_codeEscape (q c : Char) (rest : List Char) :
    readQuoted q (codeEscape c ++ rest) = (readQuoted q rest).map (c :: ·) := by
  have hlarge : c.toNat < 0x110000 := by
    have := c.valid
    simp only [UInt32.isValidChar, Nat.isValidChar] at this
    simp only [Char.toNat]
    omega
  simp only [codeEscape]
  split_ifs with h₂ h₄
  · exact readQuoted_code rfl (by omega) rest
  · exact readQuoted_code rfl (by omega) rest
  · exact readQuoted_code rfl (by omega) rest

/-- What is written of a character between quotes is read as that character. -/
theorem readQuoted_escape (raw : Char → Bool) (hq : isQuote q = true) (c : Char)
    (rest : List Char) :
    readQuoted q (escape raw q c ++ rest) = (readQuoted q rest).map (c :: ·) := by
  unfold escape
  split_ifs with h hn hr ht hraw
  · rcases h with rfl | rfl
    · obtain rfl | rfl := isQuote_iff.1 hq
      · exact readQuoted_letter rfl rfl rest
      · exact readQuoted_letter rfl rfl rest
    · exact readQuoted_letter rfl rfl rest
  · exact hn ▸ readQuoted_letter rfl rfl rest
  · exact hr ▸ readQuoted_letter rfl rfl rest
  · exact ht ▸ readQuoted_letter rfl rfl rest
  · obtain ⟨hcq, hb⟩ := not_or.1 h
    rw [List.singleton_append, readQuoted, if_neg hcq]
    exact fun _ _ hb' _ => hb hb'
  · exact readQuoted_codeEscape q c rest

theorem readQuoted_flatMap (raw : Char → Bool) (hq : isQuote q = true) : ∀ cs : List Char,
    readQuoted q (cs.flatMap (escape raw q) ++ [q]) = some cs
  | [] => by simp [readQuoted]
  | c :: cs => by
    rw [List.flatMap_cons, List.append_assoc, readQuoted_escape raw hq, readQuoted_flatMap raw hq]
    rfl

theorem unquoted?_quotedWith (raw : Char → Bool) (cs : List Char) :
    unquoted? (quotedWith raw cs) = some cs := by
  have hq := isQuote_quoteFor cs
  rw [quotedWith, unquoted?, if_pos hq, readQuoted_flatMap raw hq]

theorem quotedWith_injective (raw : Char → Bool) : Function.Injective (quotedWith raw) := by
  intro cs ds h
  have hd := unquoted?_quotedWith raw ds
  rw [← h, unquoted?_quotedWith] at hd
  exact Option.some.inj hd

end PermissionClaims.Text
