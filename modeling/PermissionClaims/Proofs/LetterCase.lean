import Mathlib
import PermissionClaims.LogLevel
import PermissionClaims.Text.CaseMap
import PermissionClaims.Text.Printable

/-!
# Words in any case

Where characters are written in another case, some have several characters for their image and some
a letter of ASCII though they are none themselves. The words that are looked for are such that only
single letters lead to them (`flatMap_eq_iff_map_eq`): a word is the image of just the texts that
are that word letter by letter. The names of the levels are reached from one more letter than those
of ASCII, the dotless `ı`, whose capital is `I`.
-/

namespace PermissionClaims.Text

/-- Two maps of characters lead to the same texts of a word, if one of them is the other or, on
characters that the other leaves outside of ASCII, has an image that the word does not hold. -/
theorem flatMap_eq_iff_map_eq {f : Char → List Char} {g : Char → Char} {strays : List (List Char)}
    {word : List Char} (hfg : ∀ c, f c = [g c] ∨ f c ∈ strays ∧ isPlainAscii (g c) = false)
    (hstrays : ∀ s ∈ strays, ¬ s <:+: word) (hascii : word.all isPlainAscii = true)
    (cs : List Char) : cs.flatMap f = word ↔ cs.map g = word := by
  have hmap (h : ∀ c ∈ cs, f c = [g c]) : cs.flatMap f = cs.map g := by
    rw [List.map_eq_flatMap]
    exact List.flatMap_congr h
  constructor
  · rintro rfl
    refine (hmap fun c hc => (hfg c).resolve_right fun h => ?_).symm
    exact hstrays _ h.1 (List.infix_flatMap_of_mem hc f)
  · rintro rfl
    refine hmap fun c hc => (hfg c).resolve_right fun h => ?_
    exact Bool.false_ne_true (h.2.symm.trans (List.all_eq_true.1 hascii _ (List.mem_map_of_mem hc)))

theorem eq_ofNat_of_toNat_eq {c : Char} {n : Nat} (h : c.toNat = n) : c = Char.ofNat n := by
  rw [← h, Char.ofNat_toNat]

/-- The letter of a level's name that a character stands for. -/
def nameLetter (c : Char) : Char :=
  if c = 'ı' then 'I' else c.toUpper

/-- The images of the characters that are no letter of a level's name and become one, or several
characters, as capitals. -/
def upperStrays : List (List Char) :=
  [['S', 'S'], ['\u02bc', 'N'], ['S'], ['J', '\u030c'], ['H', '\u0331'], ['T', '\u0308'],
    ['W', '\u030a'], ['Y', '\u030a'], ['A', '\u02be'], ['F', 'F'], ['F', 'I'], ['F', 'L'],
    ['F', 'F', 'I'], ['F', 'F', 'L'], ['S', 'T']]

def lowerStrays : List (List Char) :=
  [['i', '\u0307'], ['k']]

theorem upperChar_cases (c : Char) :
    upperChar c = [nameLetter c]
      ∨ upperChar c ∈ upperStrays ∧ isPlainAscii (nameLetter c) = false := by
  by_cases hl : c.isLower = true
  · have hi : c ≠ 'ı' := by
      rintro rfl
      exact absurd hl (by decide)
    exact .inl (by rw [upperChar, if_pos hl, nameLetter, if_neg hi])
  · have hu := Char.toUpper_eq_of_not_isLower hl
    rw [upperChar, if_neg hl]
    split
    case h_18 =>
      have hn : c.toNat ≠ 0x131 := ‹c.toNat = 0x131 → False›
      have hi : c ≠ 'ı' := by
        rintro rfl
        exact hn rfl
      exact .inl (by rw [nameLetter, if_neg hi, hu])
    all_goals
      rename_i h
      obtain rfl := eq_ofNat_of_toNat_eq h
      decide

theorem lowerChar_cases (c : Char) :
    lowerChar c = [c.toLower] ∨ lowerChar c ∈ lowerStrays ∧ isPlainAscii c.toLower = false := by
  by_cases hl : c.isUpper = true
  · exact .inl (by rw [lowerChar, if_pos hl])
  · have hu := Char.toLower_eq_of_not_isUpper hl
    rw [lowerChar, if_neg hl]
    split
    case h_3 => exact .inl (by rw [hu])
    all_goals
      rename_i h
      obtain rfl := eq_ofNat_of_toNat_eq h
      decide

theorem upper_eq_name_iff (l : LogLevel) (cs : List Char) :
    upper cs = l.name.toList ↔ cs.map nameLetter = l.name.toList := by
  refine flatMap_eq_iff_map_eq upperChar_cases ?_ ?_ cs
  · cases l <;> decide
  · cases l <;> decide

end PermissionClaims.Text
