import PermissionClaims.Proofs.LevelNames

/-!
# What stands for a setting

Which values stand for a level or a flag is said by rules (`IsLevel`, `IsFlag`), and so is what is
wrong with the others (`LevelFault`, `FlagFault`). The readers keep to these rules in both ways
(`readLevel_eq_ok_iff` and `readLevel_eq_error_iff`, `readFlag_eq_ok_iff` and
`readFlag_eq_error_iff`), so a value stands for something or has one fault.
-/

namespace PermissionClaims

namespace Binary64

/-- A number equals at most one integer: the one that is left of it without its fraction. -/
theorem equalsInt_finite_iff {negative : Bool} {m : Nat} {e n : Int} :
    (finite negative m e).equalsInt n = true ↔
      n = truncate negative m e
        ∧ (finite negative m e).equalsInt (truncate negative m e) = true := by
  simp only [equalsInt, Bool.and_eq_true, decide_eq_true_eq, and_true]
  rw [and_comm, eq_comm]

end Binary64

namespace Config

variable {v : Value} {l : LogLevel} {b : Bool} {n : Int} {cause : Cause}

/-! ## Levels -/

/-- A value stands for a level that it is or whose name it is in capitals. -/
inductive IsLevel (l : LogLevel) : Value → Prop
  | level : IsLevel l (.level l)
  | name {s : String} (capitals : Text.upper s.toList = l.name.toList) : IsLevel l (.plain s)

inductive LevelFault : Value → Cause → Prop
  | unknown {s : String} (noName : ∀ l, ¬ IsLevel l (.plain s)) :
    LevelFault (.plain s) (.unknownLevel s)
  | noText {v : Value} (noText : v.asText? = none) : LevelFault v .notALevel

theorem readLevel_eq_ok_iff : readLevel v = .ok l ↔ IsLevel l v := by
  constructor
  · intro h
    rcases v with _ | _ | _ | _ | (s | l') | _ | _ | _ | _
    case text.plain => exact .name (readLevel_plain_upper_iff.1 h)
    case text.level =>
      cases h
      exact .level
    all_goals cases h
  · rintro (_ | hname)
    · rfl
    · exact readLevel_plain_upper_iff.2 hname

theorem readLevel_eq_error_iff : readLevel v = .error cause ↔ LevelFault v cause := by
  have hunknown : ∀ s, readLevel (.plain s) = .error (.unknownLevel s)
      ↔ ∀ l, ¬ IsLevel l (.plain s) := by
    intro s
    simp only [readLevel_plain_unknown_iff, ne_eq, readLevel_eq_ok_iff]
  constructor
  · intro h
    rcases v with _ | _ | _ | _ | (s | l) | _ | _ | _ | _
    case text.plain =>
      have hs : readLevel (.plain s) = .error (.unknownLevel s) :=
        readLevel_plain_unknown_iff.2 fun l hl => nomatch h.symm.trans hl
      obtain rfl := Except.error.inj (hs.symm.trans h)
      exact .unknown ((hunknown s).1 hs)
    case text.level => cases h
    all_goals
      cases h
      exact .noText rfl
  · rintro (hno | ht)
    · exact (hunknown _).2 hno
    · rcases v with _ | _ | _ | _ | _ | _ | _ | _ | _
      case text => cases ht
      all_goals rfl

/-! ## Flags -/

def words (b : Bool) : List String :=
  if b then trueWords else falseWords

def number (b : Bool) : Int :=
  if b then 1 else 0

/-- The characters of a text, or of bytes with each of them taken for one. -/
def letters? : Value → Option (List Char)
  | .text t => some t.content.toList
  | .bytes b => some (b.map fun x => Char.ofNat x.toNat)
  | _ => none

/-- A value stands for a flag that it is or whose number it is, or as one of the words for it in
any case of the letters of ASCII. -/
inductive IsFlag (b : Bool) : Value → Prop
  | bool : IsFlag b (.bool b)
  | int {n : Numeral} (equal : n.toInt = number b) : IsFlag b (.int n)
  | float {x : Binary64} (equal : x.equalsInt (number b) = true) : IsFlag b (.float x)
  | word {v : Value} {cs : List Char} {w : String} (letters : letters? v = some cs)
    (mem : w ∈ words b) (same : cs.map Char.toLower = w.toList) : IsFlag b v

/-- The values that are read for a flag, whether they stand for one or not. -/
inductive IsReadable : Value → Prop
  | bool {b : Bool} : IsReadable (.bool b)
  | int {n : Numeral} (fits : fitsWord n.toInt = true) : IsReadable (.int n)
  | float {x : Binary64} {n : Int} (equal : x.equalsInt n = true) (within : withinWord n = true) :
    IsReadable (.float x)
  | letters {v : Value} {cs : List Char} (letters : letters? v = some cs) : IsReadable v

inductive FlagFault : Value → Cause → Prop
  | unreadable {v : Value} (noFlag : ∀ b, ¬ IsFlag b v) (readable : IsReadable v) :
    FlagFault v .unreadableFlag
  | notAFlag {v : Value} (noFlag : ∀ b, ¬ IsFlag b v) (unread : ¬ IsReadable v) :
    FlagFault v .notAFlag

theorem readWord_eq_ok_iff {cs : List Char} :
    readWord cs = .ok b ↔ ∃ w ∈ words b, cs.map Char.toLower = w.toList := by
  have hmem : ∀ ws : List String, (∃ w ∈ ws, cs.map Char.toLower = w.toList)
      ↔ String.ofList (cs.map Char.toLower) ∈ ws := by
    intro ws
    constructor
    · rintro ⟨w, hw, h⟩
      rwa [h, String.ofList_toList]
    · intro h
      exact ⟨_, h, String.toList_ofList.symm⟩
  -- the words for no are looked at first, so none of those for yes may be among them
  have hdisjoint : ∀ w ∈ trueWords, w ∉ falseWords := by decide
  rw [hmem]
  unfold readWord
  cases b with
  | false =>
    simp only [words, Bool.false_eq_true, ↓reduceIte]
    split_ifs <;> simp_all
  | true =>
    simp only [words, ↓reduceIte]
    split_ifs with hf ht
    · simpa using fun ht => hdisjoint _ ht hf
    · simp [ht]
    · simp [ht]

theorem readNumber_eq_ok_iff : readNumber n = .ok b ↔ n = number b := by
  unfold readNumber number
  cases b <;> split_ifs <;> simp_all

/-- A number with a point is read as the integer it equals. -/
theorem readFlag_float {x : Binary64} (h : x.equalsInt n = true) :
    readFlag (.float x) = if withinWord n then readNumber n else .error .notAFlag := by
  rcases x with _ | _ | ⟨negative, m, e⟩
  · cases h
  · cases h
  · obtain ⟨rfl, hi⟩ := Binary64.equalsInt_finite_iff.1 h
    simp [readFlag, hi]

theorem readFlag_float_of_fraction {x : Binary64} (h : ∀ n, ¬ x.equalsInt n = true) :
    readFlag (.float x) = .error .notAFlag := by
  rcases x with _ | _ | ⟨negative, m, e⟩
  · rfl
  · rfl
  · simp [readFlag, h]

theorem readFlag_letters {cs : List Char} (h : letters? v = some cs) :
    readFlag v = readWord cs := by
  cases v <;> cases h <;> rfl

theorem readFlag_eq_ok_iff : readFlag v = .ok b ↔ IsFlag b v := by
  have hword : ∀ cs, letters? v = some cs → (readWord cs = .ok b → IsFlag b v) := by
    intro cs hl h
    obtain ⟨w, hw, hs⟩ := readWord_eq_ok_iff.1 h
    exact .word hl hw hs
  constructor
  · intro h
    cases v with
    | bool b' =>
      obtain rfl : b' = b := Except.ok.inj h
      exact .bool
    | int n =>
      simp only [readFlag] at h
      split_ifs at h
      exact .int (readNumber_eq_ok_iff.1 h)
    | float x =>
      by_cases hx : ∃ n, x.equalsInt n = true
      · obtain ⟨n, hn⟩ := hx
        rw [readFlag_float hn] at h
        split_ifs at h
        exact .float (readNumber_eq_ok_iff.1 h ▸ hn)
      · rw [readFlag_float_of_fraction (not_exists.1 hx)] at h
        cases h
    | text t => exact hword _ rfl h
    | bytes bs => exact hword _ rfl h
    | _ => cases h
  · rintro (_ | hn | hx | ⟨hl, hw, hs⟩)
    · rfl
    · simp only [readFlag, hn]
      cases b <;> rfl
    · rw [readFlag_float hx]
      cases b <;> rfl
    · rw [readFlag_letters hl]
      exact readWord_eq_ok_iff.2 ⟨_, hw, hs⟩

theorem readWord_eq_error {cs : List Char} (h : readWord cs = .error cause) :
    cause = .unreadableFlag := by
  unfold readWord at h
  simp only at h
  split_ifs at h
  exact (Except.error.inj h).symm

theorem readNumber_eq_error (h : readNumber n = .error cause) : cause = .unreadableFlag := by
  unfold readNumber at h
  split_ifs at h
  exact (Except.error.inj h).symm

theorem readFlag_error_of_readable (hr : IsReadable v) (h : readFlag v = .error cause) :
    cause = .unreadableFlag := by
  cases hr with
  | bool => cases h
  | int fits =>
    simp only [readFlag, fits, ↓reduceIte] at h
    exact readNumber_eq_error h
  | float equal within =>
    rw [readFlag_float equal, if_pos within] at h
    exact readNumber_eq_error h
  | letters hl =>
    rw [readFlag_letters hl] at h
    exact readWord_eq_error h

theorem readFlag_of_not_readable (hr : ¬ IsReadable v) : readFlag v = .error .notAFlag := by
  cases v with
  | bool b => exact absurd .bool hr
  | int n =>
    have hn : ¬ fitsWord n.toInt = true := fun h => hr (.int h)
    simp [readFlag, hn]
  | float x =>
    by_cases hx : ∃ n, x.equalsInt n = true
    · obtain ⟨n, hn⟩ := hx
      rw [readFlag_float hn, if_neg fun h => hr (.float hn h)]
    · exact readFlag_float_of_fraction (not_exists.1 hx)
  | text t => exact absurd (.letters rfl) hr
  | bytes bs => exact absurd (.letters rfl) hr
  | _ => rfl

theorem readFlag_eq_error_iff : readFlag v = .error cause ↔ FlagFault v cause := by
  have hno : (∀ b, ¬ IsFlag b v) ↔ ∃ cause, readFlag v = .error cause := by
    simp only [← readFlag_eq_ok_iff]
    rcases readFlag v with cause | b <;> simp
  constructor
  · intro h
    by_cases hr : IsReadable v
    · obtain rfl := readFlag_error_of_readable hr h
      exact .unreadable (hno.2 ⟨_, h⟩) hr
    · obtain rfl := Except.error.inj ((readFlag_of_not_readable hr).symm.trans h)
      exact .notAFlag (hno.2 ⟨_, h⟩) hr
  · rintro (⟨hb, hr⟩ | ⟨hb, hr⟩)
    · obtain ⟨cause, h⟩ := hno.1 hb
      rw [h, readFlag_error_of_readable hr h]
    · exact readFlag_of_not_readable hr

end Config

end PermissionClaims
