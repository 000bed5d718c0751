import PermissionClaims.Config.Basic
import PermissionClaims.Proofs.LetterCase

/-!
# Levels by name

A level is given by a text that is its name in any case (`Config.readLevel_plain_iff`), which is to
say letter by letter and without blanks around it. The case is that of Unicode, so besides the
letters of ASCII in both cases a dotless `ı` passes for the letter that is its capital, and nothing
else does.
-/

namespace PermissionClaims.Config

open Text (nameLetter)

variable {s : String} {l : LogLevel}

theorem readLevel_plain (s : String) :
    readLevel (.plain s) = match LogLevel.ofName? (String.ofList (Text.upper s.toList)) with
      | some l => .ok l
      | none => .error (.unknownLevel s) := rfl

theorem readLevel_plain_upper_iff :
    readLevel (.plain s) = .ok l ↔ Text.upper s.toList = l.name.toList := by
  have hname : l.name = String.ofList (Text.upper s.toList)
      ↔ Text.upper s.toList = l.name.toList := by
    rw [← String.toList_inj, String.toList_ofList, eq_comm]
  rw [← hname, ← LogLevel.ofName?_eq_some_iff, readLevel_plain]
  cases LogLevel.ofName? (String.ofList (Text.upper s.toList)) <;> simp

theorem readLevel_plain_iff :
    readLevel (.plain s) = .ok l ↔ s.toList.map nameLetter = l.name.toList := by
  rw [readLevel_plain_upper_iff, Text.upper_eq_name_iff]

theorem readLevel_plain_unknown_iff :
    readLevel (.plain s) = .error (.unknownLevel s) ↔ ∀ l, readLevel (.plain s) ≠ .ok l := by
  rw [readLevel_plain]
  cases LogLevel.ofName? (String.ofList (Text.upper s.toList)) <;> simp

theorem readLevel_plain_error_iff :
    readLevel (.plain s) = .error (.unknownLevel s)
      ↔ ∀ l : LogLevel, s.toList.map nameLetter ≠ l.name.toList := by
  simp only [readLevel_plain_unknown_iff, ne_eq, readLevel_plain_iff]

theorem ofFields_level (v : Value) :
    ofFields [("log_level", v)] = match readLevel v with
      | .ok l => .ok { logLevel := l }
      | .error cause => .error ⟨[⟨"log_level", v, cause⟩]⟩ := by
  have hr : read readLevel "log_level" .info [("log_level", v)]
      = (readLevel v).mapError fun cause => ⟨"log_level", v, cause⟩ := rfl
  rw [ofFields, hr]
  cases readLevel v <;> rfl

/-- A text that is given for the level makes a configuration if it is the name of a level letter by
letter, in either case and with a dotless `ı` for an `I` or not, and the level is that one. Any
other text is a fault of the level. -/
theorem level_by_name_iff (s : String) :
    (∀ c : Config, ofFields [("log_level", .plain s)] = .ok c
        ↔ ∃ l : LogLevel, s.toList.map nameLetter = l.name.toList ∧ c = { logLevel := l })
      ∧ (ofFields [("log_level", .plain s)]
          = .error ⟨[⟨"log_level", .plain s, .unknownLevel s⟩]⟩
        ↔ ∀ l : LogLevel, s.toList.map nameLetter ≠ l.name.toList) := by
  rw [ofFields_level, ← readLevel_plain_error_iff]
  simp only [← readLevel_plain_iff]
  rcases readLevel (.plain s) with cause | l
  · simp
  · simp [eq_comm]

/-- A text that is no level's name in any case of ASCII letters can be taken for one. -/
theorem dotless_level_accepted :
    ofFields [("log_level", .plain "ınfo")] = .ok { logLevel := .info }
      ∧ ∀ l : LogLevel, "ınfo".toList.map Char.toUpper ≠ l.name.toList := by
  refine ⟨rfl, fun l => ?_⟩
  cases l <;> decide

end PermissionClaims.Config
