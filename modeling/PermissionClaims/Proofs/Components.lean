import PermissionClaims.Failure
import PermissionClaims.Proofs.ClaimText

/-!
# Components and claim text

A verb and a subject make up a claim if the text they are spelt in is claim text and nothing is
taken off the subject (`exists_create_iff`). The colon in that text is the one between them: a path
has none, so that no verb with a colon in it is mistaken for a shorter one.

The other way round, what is read off a claim text always passes as components
(`create_of_match`). So reading fails in one way only, with a report on the value that was given
(`value_parse_eq_error_iff`).
-/

namespace PermissionClaims

open Grammar

variable {d : Dialect}

namespace Grammar

variable {cs : List Char}

theorem Path.colon_notMem (h : Path cs) : ':' ∉ cs := by
  obtain ⟨segments, -, hs, rfl, -, -⟩ := h
  have hall : ∀ c ∈ ['.'].intercalate segments, c ≠ ':' := by
    refine forall_mem_intercalate (by simp) fun s h c hc he => ?_
    exact (hs s h).notMem (c := ':') (by decide) (he ▸ hc)
  exact fun hc => hall _ hc rfl

theorem Spelling.Fits.colon_notMem_raw {s : Spelling} (h : s.Fits d) : ':' ∉ s.raw := by
  have hsuffix : ∀ x ∈ d.suffixes, ':' ∉ x := by cases d <;> decide
  rcases h.body with ⟨hs, hx⟩ | ⟨hp, hx⟩
  · simp [Spelling.raw, hs, hx]
  · have := hp.colon_notMem
    have := hsuffix _ hx
    simp_all [Spelling.raw]

/-- The colon of a claim text stands between its verb and its subject, wherever a text is cut. -/
theorem Spelling.Fits.eq_of_text_eq {s : Spelling} (h : s.Fits d) {verb raw : List Char}
    (ht : s.text = verb ++ ':' :: raw) : s.verb = verb ∧ s.raw = raw := by
  by_cases hv : ':' ∈ verb
  · exfalso
    obtain ⟨front, back, rfl, hf⟩ := List.eq_append_cons_of_mem hv
    rw [List.append_assoc, List.cons_append] at ht
    have hraw := (append_cons_inj h.colon_notMem hf ht).2
    exact h.colon_notMem_raw (hraw ▸ List.mem_append_right _ List.mem_cons_self)
  · exact append_cons_inj h.colon_notMem hv ht

end Grammar

namespace Claim

variable {c : Claim} {v : Value}

theorem exists_create_plain_iff {verb subject : String} :
    (∃ c, create (.plain verb) (.plain subject) = .ok c) ↔
      Name verb.toList ∧ (subject.toList = [] ∨ Path subject.toList) := by
  rw [← isVerb_iff, ← isSubject_iff]
  refine ⟨fun ⟨c, hc⟩ => ?_, fun ⟨hv, hs⟩ => ⟨_, create_plain hv hs⟩⟩
  obtain ⟨hv, hs, hw⟩ := create_eq_ok_iff.1 hc
  have hv' : Text.plain verb = c.verb := Value.text.inj hv
  have hs' : Text.plain subject = c.subject := Value.text.inj hs
  rwa [WellFormed, ← hv', ← hs'] at hw

/-- Components make up a claim if their text, with a star for no subject, is claim text and the
subject has nothing behind it. -/
theorem exists_create_iff {verb subject : String} :
    (∃ c, create (.plain verb) (.plain subject) = .ok c) ↔
      isValid .strict (.plain (verb ++ ":" ++ if subject = "" then "*" else subject)) = true
        ∧ normalize subject.toList = subject.toList := by
  have htext : (verb ++ ":" ++ if subject = "" then "*" else subject).toList
      = verb.toList ++ ':' :: if subject = "" then ['*'] else subject.toList := by
    split_ifs <;> simp
  rw [exists_create_plain_iff, Value.plain, isValid_text_iff, Text.content_plain, htext]
  refine ⟨fun ⟨hv, hs⟩ => ?_, fun ⟨⟨s, hs, ht⟩, hn⟩ => ?_⟩
  · rcases hs with hs | hp
    · obtain rfl := String.toList_eq_nil_iff.1 hs
      exact ⟨⟨⟨verb.toList, ['*'], []⟩, ⟨hv, Or.inl ⟨rfl, rfl⟩⟩, rfl⟩, by decide⟩
    · have hne : subject ≠ "" := fun he => hp.ne_nil (String.toList_eq_nil_iff.2 he)
      refine ⟨⟨⟨verb.toList, subject.toList, []⟩, ⟨hv, Or.inr ⟨hp, ?_⟩⟩, ?_⟩, ?_⟩
      · exact mem_strict_suffixes.2 (Or.inl rfl)
      · simp [Spelling.text, Spelling.raw, hne]
      · exact normalize_eq_self hp.exists_getLast?
  · obtain ⟨hv, hraw⟩ := hs.eq_of_text_eq ht
    refine ⟨hv ▸ hs.verb, ?_⟩
    by_cases he : subject = ""
    · exact Or.inl (String.toList_eq_nil_iff.2 he)
    · rw [if_neg he] at hraw
      have hm : s.meant = subject.toList := by rw [← hs.normalize_raw, hraw, hn]
      have hstar : s.subject ≠ ['*'] := by
        intro hstar
        rw [Spelling.meant, if_pos hstar] at hm
        exact he (String.toList_eq_nil_iff.1 hm.symm)
      have hp : Path s.subject := (hs.body.resolve_left fun h => hstar h.1).1
      exact Or.inr (hm ▸ Spelling.meant_of_ne hstar ▸ hp)

/-- What a claim text has for a verb and a subject passes as components. -/
theorem create_of_match {verb raw : List Char} (h : matchValue? d v = some (verb, raw)) :
    ∃ c, create (.plain (String.ofList verb)) (.plain (String.ofList (normalize raw))) = .ok c
      ∧ (parse d v).value = .ok c := by
  obtain ⟨t, -, hm⟩ := Option.bind_eq_some_iff.1 h
  obtain ⟨s, hs, -, rfl, rfl⟩ := match?_eq_some_iff.1 hm
  refine ⟨s.claim, ?_, value_parse_of_spelling hs h⟩
  rw [hs.normalize_raw, create_claim hs]

theorem value_parse_of_not_valid (h : isValid d v = false) :
    (parse d v).value = .error (.notClaimText v) :=
  value_parse_of_no_match (by simpa [isValid] using h)

/-- Reading fails on what is not claim text, and says so of the value that was given. -/
theorem value_parse_eq_error_iff {fault : ClaimFault} :
    (parse d v).value = .error fault ↔ isValid d v = false ∧ fault = .notClaimText v := by
  cases hv : isValid d v
  · rw [value_parse_of_not_valid hv]
    simp [eq_comm]
  · obtain ⟨c, hc⟩ := isValid_iff_exists_parse.1 hv
    simp [hc]

/-- Components are a claim if they are spelt as one, and claim text is read if it is one. What is
read off it always passes as components, and any other value is reported as it was given. -/
theorem components_agree_with_text :
    (∀ verb subject : String,
      (∃ c, create (.plain verb) (.plain subject) = .ok c) ↔
        isValid .strict (.plain (verb ++ ":" ++ if subject = "" then "*" else subject)) = true
          ∧ normalize subject.toList = subject.toList)
      ∧ ∀ (d : Dialect) (v : Value),
        ((∃ c, (parse d v).value = .ok c) ↔ isValid d v = true)
          ∧ (∀ verb raw : List Char, matchValue? d v = some (verb, raw) →
            ∃ c, create (.plain (String.ofList verb)) (.plain (String.ofList (normalize raw)))
                = .ok c
              ∧ (parse d v).value = .ok c)
          ∧ (isValid d v = false → (parse d v).value = .error (.notClaimText v))
          ∧ ∀ fault : ClaimFault, (parse d v).value = .error fault →
            ∃ r : Report, (Failure.claim fault).report? = some r
              ∧ r.kind = .claim ∧ r.kind.name = "ClaimSyntaxError"
              ∧ r.given? = some v ∧ r.details = [("claim", v)]
              ∧ ∀ verb subject : Value, fault ≠ .components verb subject := by
  refine ⟨fun verb subject => exists_create_iff, fun d v => ⟨isValid_iff_exists_parse.symm,
    fun verb raw => create_of_match, value_parse_of_not_valid, fun fault h => ?_⟩⟩
  obtain ⟨-, rfl⟩ := value_parse_eq_error_iff.1 h
  refine ⟨_, rfl, rfl, rfl, rfl, rfl, fun verb subject he => ?_⟩
  cases he

-- a colon in the verb or a suffix behind the subject does not slip through
example : ¬ (⟨.plain "read:a", .plain "b"⟩ : Claim).WellFormed
    ∧ ¬ (⟨.plain "read", .plain "a.*"⟩ : Claim).WellFormed := by
  decide

end Claim

end PermissionClaims
