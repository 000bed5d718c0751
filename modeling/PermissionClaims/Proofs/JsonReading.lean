import Mathlib.Algebra.Group.Nat.Defs
import Mathlib.Tactic.SplitIfs
import PermissionClaims.Log.Json

/-!
# JSON read back

A JSON text is cut into tokens, the texts in it and the signs between them, and an object whose
members are texts is read off those. Entries that are written as an object are read back as they
are (`Json.read_ofEntries`): what is written of a character within a text reads as that character
(`Json.tokensFrom_escapeChar`), so a text does not end before its own closing quote.
-/

namespace PermissionClaims.Log.Json

/-- A text, or a sign of the structure around it. -/
inductive Token where
  | text (cs : List Char)
  | sign (c : Char)
  deriving DecidableEq, Repr

def openBrace : Char := '\x7b'

def closeBrace : Char := '\x7d'

def signs : List Char :=
  [openBrace, closeBrace, ':', ',']

def blanks : List Char :=
  [' ', '\t', '\n', '\r']

def hexValue? (c : Char) : Option Nat :=
  if '0' ≤ c ∧ c ≤ '9' then some (c.toNat - '0'.toNat)
  else if 'a' ≤ c ∧ c ≤ 'f' then some (c.toNat - 'a'.toNat + 10)
  else if 'A' ≤ c ∧ c ≤ 'F' then some (c.toNat - 'A'.toNat + 10)
  else none

/-- The character with these digits as its code point. Half a surrogate pair is none. -/
def ofHex? (digits : List Char) : Option Char := do
  let values ← digits.mapM hexValue?
  let n := values.foldl (fun n d => 16 * n + d) 0
  if n.isValidChar then some (Char.ofNat n) else none

/-- What a letter stands for after a backslash. -/
def unescaped? (c : Char) : Option Char :=
  [(Text.doubleQuote, Text.doubleQuote), ('\\', '\\'), ('/', '/'), ('b', '\x08'), ('f', '\x0c'),
    ('n', '\n'), ('r', '\r'), ('t', '\t')].lookup c

mutual

def tokens : List Char → Option (List Token)
  | [] => some []
  | c :: cs =>
    if c = Text.doubleQuote then tokensFrom [] cs
    else if c ∈ signs then (tokens cs).map (.sign c :: ·)
    else if c ∈ blanks then tokens cs
    else none

/-- The tokens from within a text, of which a part is read. -/
def tokensFrom (part : List Char) : List Char → Option (List Token)
  | [] => none
  | '\x22' :: cs => (tokens cs).map (.text part :: ·)
  | '\\' :: 'u' :: a :: b :: c :: d :: cs => do
    let x ← ofHex? [a, b, c, d]
    tokensFrom (part ++ [x]) cs
  | '\\' :: c :: cs => do
    let x ← unescaped? c
    tokensFrom (part ++ [x]) cs
  | c :: cs => if c.toNat < 0x20 then none else tokensFrom (part ++ [c]) cs

end

def membersOf : List Token → Option (Named String)
  | [.text name, .sign ':', .text text, .sign '\x7d'] =>
    some [(String.ofList name, String.ofList text)]
  | .text name :: .sign ':' :: .text text :: .sign ',' :: ts =>
    (membersOf ts).map ((String.ofList name, String.ofList text) :: ·)
  | _ => none

/-- The members of an object of texts, in their order. -/
def read (cs : List Char) : Option (Named String) := do
  match ← tokens cs with
  | .sign '\x7b' :: ts => if ts = [.sign closeBrace] then some [] else membersOf ts
  | _ => none

theorem hexValue?_digitChar {n : Nat} (h : n < 16) : hexValue? (Nat.digitChar n) = some n := by
  have hall : ∀ n < 16, hexValue? (Nat.digitChar n) = some n := by decide
  exact hall n h

/-- Digits are read as the number they were written for, as far as there was room for it. -/
theorem exists_values_hexDigits : ∀ width n : Nat,
    ∃ values, (Text.hexDigits width n).mapM hexValue? = some values
      ∧ values.foldl (fun n d => 16 * n + d) 0 = n % 16 ^ width
  | 0, n => ⟨[], rfl, by rw [Nat.pow_zero, Nat.mod_one]; rfl⟩
  | width + 1, n => by
    obtain ⟨values, hv, hn⟩ := exists_values_hexDigits width (n / 16)
    refine ⟨values ++ [n % 16], ?_, ?_⟩
    · rw [Text.hexDigits, List.mapM_append, hv, List.mapM_cons,
        hexValue?_digitChar (Nat.mod_lt n (by decide))]
      rfl
    · rw [List.foldl_append, hn, Nat.pow_succ', Nat.mod_mul]
      exact Nat.add_comm _ _

theorem ofHex?_hexDigits {width : Nat} {c : Char} (h : c.toNat < 16 ^ width) :
    ofHex? (Text.hexDigits width c.toNat) = some c := by
  obtain ⟨values, hv, hn⟩ := exists_values_hexDigits width c.toNat
  rw [Nat.mod_eq_of_lt h] at hn
  have hc : c.toNat.isValidChar := c.valid
  simp [ofHex?, hv, hn, hc]

theorem tokensFrom_escaped {letter c : Char} (hu : letter ≠ 'u')
    (h : unescaped? letter = some c) (part cs : List Char) :
    tokensFrom part ('\\' :: letter :: cs) = tokensFrom (part ++ [c]) cs := by
  simp [tokensFrom, hu, h]

/-- What is written of a character within a text reads as that character. -/
theorem tokensFrom_escapeChar (part : List Char) (c : Char) (cs : List Char) :
    tokensFrom part (escapeChar c ++ cs) = tokensFrom (part ++ [c]) cs := by
  unfold escapeChar
  split_ifs with hq hn hr ht hf hb hc
  · rcases hq with rfl | rfl <;> exact tokensFrom_escaped (by decide) rfl part cs
  · exact hn ▸ tokensFrom_escaped (by decide) rfl part cs
  · exact hr ▸ tokensFrom_escaped (by decide) rfl part cs
  · exact ht ▸ tokensFrom_escaped (by decide) rfl part cs
  · exact hf ▸ tokensFrom_escaped (by decide) rfl part cs
  · exact hb ▸ tokensFrom_escaped (by decide) rfl part cs
  · have hx : ofHex? (Text.hexDigits 4 c.toNat) = some c :=
      ofHex?_hexDigits (Nat.lt_trans hc (by decide))
    obtain ⟨x₁, x₂, x₃, x₄, hd⟩ : ∃ x₁ x₂ x₃ x₄, Text.hexDigits 4 c.toNat = [x₁, x₂, x₃, x₄] :=
      ⟨_, _, _, _, rfl⟩
    rw [hd] at hx
    simp [hd, tokensFrom, hx]
  · obtain ⟨hq, hs⟩ := not_or.1 hq
    have hq : c ≠ '\x22' := hq
    simp [tokensFrom, hs, hc]

theorem tokensFrom_flatMap (rest : List Char) : ∀ part cs : List Char,
    tokensFrom part (cs.flatMap escapeChar ++ Text.doubleQuote :: rest)
      = (tokens rest).map (.text (part ++ cs) :: ·)
  | part, [] => by simp [tokensFrom, Text.doubleQuote]
  | part, c :: cs => by
    rw [List.flatMap_cons, List.append_assoc, tokensFrom_escapeChar, tokensFrom_flatMap]
    simp

theorem tokens_ofText (cs rest : List Char) :
    tokens (ofText cs ++ rest) = (tokens rest).map (.text cs :: ·) := by
  rw [ofText, List.cons_append, List.append_assoc, tokens, if_pos rfl, List.singleton_append,
    tokensFrom_flatMap, List.nil_append]

theorem tokens_member (name text : String) (rest : List Char) :
    tokens (member name text ++ rest)
      = (tokens rest).map (.text name.toList :: .sign ':' :: .text text.toList :: ·) := by
  have hs (cs : List Char) : tokens (':' :: ' ' :: cs) = (tokens cs).map (.sign ':' :: ·) := by
    simp [tokens, signs, blanks, Text.doubleQuote, openBrace, closeBrace]
  rw [member, List.append_assoc, List.append_assoc, tokens_ofText, List.cons_append,
    List.singleton_append, hs, tokens_ofText]
  simp [Function.comp_def]

theorem exists_members : ∀ (e : String × String) (entries : Named String),
    ∃ ts, tokens ([',', ' '].intercalate ((e :: entries).map fun e => member e.1 e.2)
        ++ [closeBrace]) = some ts ∧ membersOf ts = some (e :: entries)
  | e, [] => by
    refine ⟨_, by rw [List.map_singleton, List.intercalate_singleton, tokens_member]; rfl, ?_⟩
    simp [membersOf, closeBrace]
  | e, e' :: entries => by
    obtain ⟨ts, ht, hm⟩ := exists_members e' entries
    have hs (cs : List Char) : tokens (',' :: ' ' :: cs) = (tokens cs).map (.sign ',' :: ·) := by
      simp [tokens, signs, blanks, Text.doubleQuote, openBrace, closeBrace]
    refine ⟨.text e.1.toList :: .sign ':' :: .text e.2.toList :: .sign ',' :: ts, ?_, ?_⟩
    · rw [List.map_cons] at ht
      rw [List.map_cons, List.map_cons, List.intercalate_cons_cons, List.append_assoc,
        List.append_assoc, tokens_member, List.cons_append, List.singleton_append, hs, ht]
      rfl
    · rw [membersOf, hm, String.ofList_toList, String.ofList_toList]
      rfl

/-- Entries that are written as an object are read back as they are. -/
theorem read_ofEntries : ∀ entries : Named String, read (ofEntries entries) = some entries
  | [] => by simp [read, ofEntries, tokens, signs, openBrace, closeBrace, Text.doubleQuote]
  | e :: entries => by
    obtain ⟨ts, ht, hm⟩ := exists_members e entries
    have hts : ts ≠ [.sign closeBrace] := by
      rintro rfl
      simp [membersOf] at hm
    have ho : tokens (ofEntries (e :: entries)) = some (.sign openBrace :: ts) := by
      rw [ofEntries, tokens, if_neg (by decide), if_pos (by decide)]
      exact congrArg _ ht
    rw [read, ho]
    exact (if_neg hts).trans hm

theorem read_ofList_ofEntries (entries : Named String) :
    read (String.ofList (ofEntries entries)).toList = some entries := by
  rw [String.toList_ofList, read_ofEntries]

end PermissionClaims.Log.Json
