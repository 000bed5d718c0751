import PermissionClaims.Proofs.ClaimText
import PermissionClaims.Proofs.Segments

/-!
# Which claims their texts are faithful to

A level passes as a component by the characters of its name, and is written by them and the name of
its type. So the text of a claim is read as that claim only if its components are plain
(`exact_parse_toText_iff`): with a level for its verb it is no claim text, because of the dot, and
with one for its subject it is the text of a claim on something else. Claims that are the same by
their characters have the same text only if they are made of the same components
(`toText_eq_iff_of_exact`).
-/

namespace PermissionClaims

open Grammar

namespace Text

theorem display_level_ne (l : LogLevel) : (level l).display ≠ l.name.toList := by
  cases l <;> decide

/-- A text that is the same by its characters and is written the same is the same. -/
theorem eq_of_display {t u : Text} (hc : t.content = u.content) (hd : t.display = u.display) :
    t = u := by
  cases t with
  | plain s =>
    cases u with
    | plain s' => exact congrArg plain hc
    | level l =>
      have hl : (level l).display = l.name.toList := hd.symm.trans (congrArg String.toList hc)
      exact absurd hl (display_level_ne l)
  | level l =>
    cases u with
    | plain s =>
      have hl : (level l).display = l.name.toList := hd.trans (congrArg String.toList hc.symm)
      exact absurd hl (display_level_ne l)
    | level l' => exact congrArg level (LogLevel.name_inj.1 hc)

theorem eq_plain_of_content_eq_empty {t : Text} (h : t.content = "") : t = plain "" := by
  cases t with
  | plain s => exact congrArg plain h
  | level l => cases l <;> simp [content, LogLevel.name] at h

theorem colon_notMem_display {t : Text} (h : isVerb t.content.toList = true) :
    ':' ∉ t.display := by
  cases t with
  | plain s => exact (isVerb_iff.1 h).notMem (by decide)
  | level l => cases l <;> decide

end Text

namespace Claim

variable {d : Dialect} {c c' : Claim} {v s : String} {l : LogLevel} {t : Text}

theorem toText_inj_iff : c.toText = c'.toText ↔ c.text = c'.text :=
  ofList_injective.eq_iff

/-- The same claim by its characters is written the same only if it is made of the same texts. -/
theorem toText_eq_iff_of_exact (hc : c.WellFormed) (hc' : c'.WellFormed)
    (h : c.exact c' = true) : c.toText = c'.toText ↔ c = c' := by
  refine ⟨fun ht => ?_, congrArg toText⟩
  rw [exact, Bool.and_eq_true, decide_eq_true_eq, decide_eq_true_eq] at h
  obtain ⟨hverb, hsubject⟩ := h
  have hglobal : c'.isGlobal = c.isGlobal := by rw [isGlobal, isGlobal, hsubject]
  rw [toText_inj_iff, text, text, hglobal] at ht
  obtain ⟨hv, hs⟩ := append_cons_inj (Text.colon_notMem_display hc.1)
    (Text.colon_notMem_display hc'.1) ht
  have hsame : c.subject = c'.subject := by
    by_cases hg : c.isGlobal = true
    · have hempty : c.subject.content = "" := of_decide_eq_true hg
      have hempty' : c'.subject.content = "" := hsubject.symm.trans hempty
      rw [Text.eq_plain_of_content_eq_empty hempty, Text.eq_plain_of_content_eq_empty hempty']
    · rw [if_neg hg, if_neg hg] at hs
      exact Text.eq_of_display hsubject hs
  cases c
  cases c'
  exact congrArg₂ Claim.mk (Text.eq_of_display hverb hv) hsame

/-- The dot in the written form of a level does not pass in a verb. -/
theorem not_isValid_toText_of_level (h : c.verb = .level l) (d : Dialect) :
    isValid d (.plain c.toText) = false := by
  by_contra hv
  obtain ⟨σ, hσ, ht⟩ := isValid_text_iff.1 (Bool.eq_true_of_not_eq_false hv)
  have hcolon : ':' ∉ c.verb.display := by
    rw [h]
    cases l <;> decide
  have htext : σ.text = c.text := by rw [ht, Text.content_plain, toText, String.toList_ofList]
  rw [Spelling.text, text] at htext
  obtain ⟨hverb, -⟩ := append_cons_inj hσ.colon_notMem hcolon htext
  have hdot : '.' ∈ c.verb.display := by
    rw [h]
    cases l <;> decide
  exact hσ.verb.notMem (by decide) (hverb ▸ hdot)

/-- With a level for its subject a claim is written as one on the written form of the level. -/
theorem parse_toText_level (hv : isVerb v.toList = true) (l : LogLevel) (d : Dialect) :
    (parse d (.plain (⟨.plain v, .level l⟩ : Claim).toText)).value
      = .ok ⟨.plain v, .plain (String.ofList (Text.level l).display)⟩ := by
  have hs : isSubject (String.ofList (Text.level l).display).toList = true := by
    cases l <;> decide
  have ht : (⟨.plain v, .level l⟩ : Claim).toText
      = (⟨.plain v, .plain (String.ofList (Text.level l).display)⟩ : Claim).toText := by
    cases l <;> rfl
  rw [ht]
  exact parse_toText (create_plain hv hs) d

theorem isValid_toText_iff {verb subject : Value} (h : create verb subject = .ok c) :
    isValid d (.plain c.toText) = true ↔ ∃ v, verb = .plain v := by
  obtain ⟨rfl, rfl, hw⟩ := create_eq_ok_iff.1 h
  obtain ⟨verb, subject⟩ := c
  constructor
  · intro hv
    cases verb with
    | plain v => exact ⟨v, rfl⟩
    | level l => exact absurd hv (by rw [not_isValid_toText_of_level rfl]; exact Bool.false_ne_true)
  · rintro ⟨v, hv⟩
    obtain rfl : verb = .plain v := Value.text.inj hv
    cases subject with
    | plain s => exact isValid_iff_exists_parse.2 ⟨_, parse_toText h d⟩
    | level l => exact isValid_iff_exists_parse.2 ⟨_, parse_toText_level hw.1 l d⟩

/-- A claim is read from its text if it is made of plain components, and only then. -/
theorem exact_parse_toText_iff {verb subject : Value} (h : create verb subject = .ok c) :
    (∃ c', (parse d (.plain c.toText)).value = .ok c' ∧ c'.exact c = true) ↔
      ∃ v s, verb = .plain v ∧ subject = .plain s := by
  constructor
  · rintro ⟨c', hc', he⟩
    obtain ⟨v, hv⟩ := (isValid_toText_iff h).1 (isValid_iff_exists_parse.2 ⟨c', hc'⟩)
    obtain ⟨hverb, rfl, hw⟩ := create_eq_ok_iff.1 h
    obtain ⟨verb, subject⟩ := c
    obtain rfl : verb = .plain v := Value.text.inj (hverb.symm.trans hv)
    cases subject with
    | plain s => exact ⟨v, s, hv, rfl⟩
    | level l =>
      have hname : isVerb v.toList = true := hw.1
      rw [parse_toText_level hname, Except.ok.injEq] at hc'
      subst hc'
      rw [exact, Bool.and_eq_true, decide_eq_true_eq, decide_eq_true_eq] at he
      have hl : (Text.level l).display = l.name.toList := by
        rw [← String.toList_ofList (l := (Text.level l).display)]
        exact congrArg String.toList he.2
      exact absurd hl (Text.display_level_ne l)
  · rintro ⟨v, s, rfl, rfl⟩
    exact ⟨c, parse_toText h d, exact_iff.2 ⟨rfl, rfl⟩⟩

/-- A level makes a claim whose text is no claim text, or the text of another claim, and differs
from that of a claim that is the same. -/
theorem toText_level_unfaithful :
    create (.level .debug) (.plain "a") = .ok ⟨.level .debug, .plain "a"⟩
      ∧ isValid .strict (.plain (⟨.level .debug, .plain "a"⟩ : Claim).toText) = false
      ∧ create (.plain "read") (.level .debug) = .ok ⟨.plain "read", .level .debug⟩
      ∧ (parse .strict (.plain (⟨.plain "read", .level .debug⟩ : Claim).toText)).value
        = .ok ⟨.plain "read", .plain "LogLevel.DEBUG"⟩
      ∧ (⟨.plain "read", .plain "LogLevel.DEBUG"⟩ : Claim).exact ⟨.plain "read", .level .debug⟩
        = false
      ∧ create (.plain "read") (.plain "DEBUG") = .ok ⟨.plain "read", .plain "DEBUG"⟩
      ∧ (⟨.plain "read", .level .debug⟩ : Claim).exact ⟨.plain "read", .plain "DEBUG"⟩ = true
      ∧ (⟨.plain "read", .level .debug⟩ : Claim).toText
        ≠ (⟨.plain "read", .plain "DEBUG"⟩ : Claim).toText := by
  refine ⟨rfl, by decide, rfl, rfl, by decide, rfl, by decide, by decide⟩

/-- Of all the claims that can be made, those of plain components are read from their texts as
themselves and no others are. The text is claim text as soon as the verb is plain, and claims that
are the same by their characters have the same text only if their components are the same, too. -/
theorem toText_faithful_iff_plain :
    ∀ (verb subject : Value) (c : Claim), create verb subject = .ok c →
      (∀ d : Dialect,
        (isValid d (.plain c.toText) = true ↔ ∃ v : String, verb = .plain v)
          ∧ ((∃ c', (parse d (.plain c.toText)).value = .ok c' ∧ c'.exact c = true) ↔
            ∃ v s : String, verb = .plain v ∧ subject = .plain s))
      ∧ ∀ (verb' subject' : Value) (c' : Claim), create verb' subject' = .ok c' →
        c.exact c' = true → (c.toText = c'.toText ↔ verb = verb' ∧ subject = subject') := by
  intro verb subject c h
  refine ⟨fun d => ⟨isValid_toText_iff h, exact_parse_toText_iff h⟩,
    fun verb' subject' c' h' he => ?_⟩
  obtain ⟨rfl, rfl, hw⟩ := create_eq_ok_iff.1 h
  obtain ⟨rfl, rfl, hw'⟩ := create_eq_ok_iff.1 h'
  rw [toText_eq_iff_of_exact hw hw' he, Value.text.injEq, Value.text.injEq]
  cases c
  cases c'
  rw [Claim.mk.injEq]

theorem toText_faithful_iff_plain_debug :
    create (.plain "read") (.plain "DEBUG") = .ok ⟨.plain "read", .plain "DEBUG"⟩
      ∧ (∃ c', (parse .strict (.plain "read:DEBUG")).value = .ok c'
        ∧ c'.exact ⟨.plain "read", .plain "DEBUG"⟩ = true)
      ∧ create (.plain "read") (.level .debug) = .ok ⟨.plain "read", .level .debug⟩
      ∧ (⟨.plain "read", .plain "DEBUG"⟩ : Claim).exact ⟨.plain "read", .level .debug⟩ = true
      ∧ (⟨.plain "read", .plain "DEBUG"⟩ : Claim).toText
        ≠ (⟨.plain "read", .level .debug⟩ : Claim).toText := by
  have hc : create (.plain "read") (.plain "DEBUG") = .ok ⟨.plain "read", .plain "DEBUG"⟩ := rfl
  have hc' : create (.plain "read") (.level .debug) = .ok ⟨.plain "read", .level .debug⟩ := rfl
  have he : (⟨.plain "read", .plain "DEBUG"⟩ : Claim).exact ⟨.plain "read", .level .debug⟩ = true :=
    by decide
  obtain ⟨hread, hsame⟩ := toText_faithful_iff_plain _ _ _ hc
  refine ⟨hc, (hread .strict).2.2 ⟨_, _, rfl, rfl⟩, hc', he, fun ht => ?_⟩
  have hs : Value.plain "DEBUG" = .level .debug := ((hsame _ _ _ hc' he).1 ht).2
  simp [Value.plain, Value.level] at hs

end Claim

end PermissionClaims
