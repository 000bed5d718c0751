import PermissionClaims.Claim.Parse
import PermissionClaims.Proofs.Spelling

/-!
# The texts of a claim

What is read is the claim of a spelling (`parse_eq_ok_iff`), and the text of a spelling is the text
of its claim with the suffix behind it (`text_eq_append_suffix`). So a claim is read from its own
text with what is ignored behind it, and from no other.
-/

namespace PermissionClaims

open Grammar

variable {d d' : Dialect}

namespace Grammar.Spelling

variable {s : Spelling}

def claim (s : Spelling) : Claim :=
  ⟨.plain (String.ofList s.verb), .plain (String.ofList s.meant)⟩

theorem content_subject_claim (s : Spelling) : s.claim.subject.content.toList = s.meant :=
  String.toList_ofList

theorem content_verb_claim (s : Spelling) : s.claim.verb.content.toList = s.verb :=
  String.toList_ofList

theorem meant_of_ne (hs : s.subject ≠ ['*']) : s.meant = s.subject :=
  if_neg hs

theorem Fits.isGlobal_claim (h : s.Fits d) : s.claim.isGlobal = true ↔ s.subject = ['*'] := by
  rw [Claim.isGlobal_iff, content_subject_claim]
  constructor
  · intro hm
    by_contra hs
    rw [meant_of_ne hs] at hm
    rcases h.body with ⟨he, -⟩ | ⟨hp, -⟩
    · exact hs he
    · exact hp.ne_nil hm
  · exact fun hs => if_pos hs

theorem Fits.wellFormed_claim (h : s.Fits d) : s.claim.WellFormed := by
  refine ⟨?_, ?_⟩
  · rw [content_verb_claim, isVerb_iff]
    exact h.verb
  · rw [content_subject_claim, isSubject_iff]
    by_cases hs : s.subject = ['*']
    · exact Or.inl (if_pos hs)
    · rw [meant_of_ne hs]
      exact Or.inr (h.body.resolve_left fun he => hs he.1).1

theorem Fits.text_claim (h : s.Fits d) : s.claim.text = s.verb ++ ':' :: s.subject := by
  have hv : s.claim.verb.display = s.verb := String.toList_ofList
  have hm : s.claim.subject.display = s.meant := String.toList_ofList
  rw [Claim.text, hv, hm]
  by_cases hs : s.subject = ['*']
  · rw [if_pos (h.isGlobal_claim.2 hs), hs]
  · rw [if_neg fun hg => hs (h.isGlobal_claim.1 hg), meant_of_ne hs]

theorem Fits.text_eq_append_suffix (h : s.Fits d) : s.text = s.claim.text ++ s.suffix := by
  rw [h.text_claim, text, raw]
  simp

end Grammar.Spelling

namespace Claim

variable {c : Claim}

/-- What may stand behind the text of a claim. -/
def ignored (d : Dialect) (c : Claim) : List (List Char) :=
  if c.isGlobal then [[]] else d.suffixes

def texts (d : Dialect) (c : Claim) : List String :=
  (c.ignored d).map fun suffix => c.toText ++ String.ofList suffix

theorem nil_mem_ignored : [] ∈ c.ignored d := by
  unfold ignored
  split_ifs
  · exact List.mem_singleton_self _
  · cases d <;> exact List.mem_cons_self

theorem toText_append (c : Claim) (suffix : List Char) :
    c.toText ++ String.ofList suffix = String.ofList (c.text ++ suffix) :=
  String.ofList_append.symm

theorem suffix_mem_ignored {s : Spelling} (h : s.Fits d) : s.suffix ∈ s.claim.ignored d := by
  unfold ignored
  rcases h.body with ⟨hs, hx⟩ | ⟨hp, hx⟩
  · rw [if_pos (h.isGlobal_claim.2 hs), hx]
    exact List.mem_singleton_self _
  · rw [if_neg]
    · exact hx
    · intro hg
      rw [h.isGlobal_claim.1 hg] at hp
      exact hp.ne_append_singleton [] (by decide) rfl

/-- A claim made from plain texts is that of a spelling with any suffix that is ignored behind
it. -/
theorem exists_spelling {v s : String} (hc : create (.plain v) (.plain s) = .ok c)
    {suffix : List Char} (hx : suffix ∈ c.ignored d) :
    ∃ σ : Spelling, σ.Fits d ∧ σ.claim = c ∧ σ.suffix = suffix := by
  obtain ⟨hv, hs, hw⟩ := create_eq_ok_iff.1 hc
  obtain ⟨verb, subject⟩ := c
  cases hv
  cases hs
  have hverb : Name v.toList := isVerb_iff.1 hw.1
  have hsubject : s.toList = [] ∨ Path s.toList := isSubject_iff.1 hw.2
  unfold ignored at hx
  split_ifs at hx with hg
  · have hs : s.toList = [] := isGlobal_iff.1 hg
    refine ⟨⟨v.toList, ['*'], suffix⟩, ⟨hverb, Or.inl ⟨rfl, List.mem_singleton.1 hx⟩⟩, ?_, rfl⟩
    simp [Spelling.claim, Spelling.meant, String.toList_eq_nil_iff.1 hs]
  · have hp : Path s.toList := hsubject.resolve_left fun hs => hg (isGlobal_iff.2 hs)
    have hstar : s.toList ≠ ['*'] := hp.ne_append_singleton [] (by decide)
    refine ⟨⟨v.toList, s.toList, suffix⟩, ⟨hverb, Or.inr ⟨hp, hx⟩⟩, ?_, rfl⟩
    simp [Spelling.claim, Spelling.meant, hstar]

theorem value_parse_of_match {v : Value} {verb raw : List Char}
    (h : matchValue? d v = some (verb, raw)) :
    (parse d v).value
      = create (.plain (String.ofList verb)) (.plain (String.ofList (normalize raw))) := by
  unfold parse
  rw [h]
  rfl

theorem value_parse_of_no_match {v : Value} (h : matchValue? d v = none) :
    (parse d v).value = .error (.notClaimText v) := by
  unfold parse
  rw [h]
  rfl

theorem create_claim {s : Spelling} (h : s.Fits d) :
    create (.plain (String.ofList s.verb)) (.plain (String.ofList s.meant)) = .ok s.claim :=
  create_eq_ok_iff.2 ⟨rfl, rfl, h.wellFormed_claim⟩

theorem value_parse_of_spelling {v : Value} {s : Spelling} (h : s.Fits d)
    (hm : matchValue? d v = some (s.verb, s.raw)) : (parse d v).value = .ok s.claim := by
  rw [value_parse_of_match hm, h.normalize_raw, create_claim h]

/-- The name of a level has no colon, so a level is no claim text. -/
theorem eq_plain_of_content {s : Spelling} {t : Text} (h : s.text = t.content.toList) :
    t = .plain (String.ofList s.text) := by
  cases t with
  | plain x => rw [h, Text.content_plain, String.ofList_toList]
  | level l =>
    have hc : ':' ∈ l.name.toList := by
      change s.text = l.name.toList at h
      rw [← h]
      exact List.mem_append_right _ List.mem_cons_self
    cases l <;> simp [LogLevel.name] at hc

/-- What is read is the claim of a spelling, from the text of the spelling. -/
theorem parse_eq_ok_iff {v : Value} :
    (parse d v).value = .ok c ↔
      ∃ s : Spelling, s.Fits d ∧ v = .plain (String.ofList s.text) ∧ c = s.claim := by
  constructor
  · intro h
    rcases hm : matchValue? d v with _ | ⟨verb, raw⟩
    · rw [value_parse_of_no_match hm] at h
      simp at h
    · obtain ⟨t, ht, hmatch⟩ := Option.bind_eq_some_iff.1 hm
      obtain ⟨s, hs, htext, rfl, rfl⟩ := match?_eq_some_iff.1 hmatch
      rw [value_parse_of_spelling hs hm] at h
      refine ⟨s, hs, ?_, (Except.ok.inj h).symm⟩
      cases v with
      | text t' =>
        obtain rfl := Option.some.inj ht
        exact congrArg Value.text (eq_plain_of_content htext)
      | _ => simp [Value.asText?] at ht
  · rintro ⟨s, hs, rfl, rfl⟩
    refine value_parse_of_spelling hs (matchValue?_text_eq_some_iff.2 ?_)
    exact ⟨s, hs, String.toList_ofList.symm, rfl, rfl⟩

/-- Exactly what is claim text can be read. -/
theorem isValid_iff_exists_parse {v : Value} :
    isValid d v = true ↔ ∃ c : Claim, (parse d v).value = .ok c := by
  constructor
  · intro h
    obtain ⟨⟨verb, raw⟩, hm⟩ := Option.isSome_iff_exists.1 h
    obtain ⟨t, -, hmatch⟩ := Option.bind_eq_some_iff.1 hm
    obtain ⟨s, hs, -, rfl, rfl⟩ := match?_eq_some_iff.1 hmatch
    exact ⟨s.claim, value_parse_of_spelling hs hm⟩
  · rintro ⟨c, h⟩
    by_contra hv
    rw [value_parse_of_no_match (by simpa [isValid] using hv)] at h
    simp at h

/-- What is read was made from plain texts. -/
theorem create_of_parse {v : Value} (h : (parse d v).value = .ok c) :
    ∃ verb subject : String, create (.plain verb) (.plain subject) = .ok c := by
  obtain ⟨s, hs, -, rfl⟩ := parse_eq_ok_iff.1 h
  exact ⟨_, _, create_claim hs⟩

theorem wellFormed_of_parse {v : Value} (h : (parse d v).value = .ok c) : c.WellFormed := by
  obtain ⟨verb, subject, hc⟩ := create_of_parse h
  exact (create_eq_ok_iff.1 hc).2.2

theorem parse_eq_ok_iff_mem_texts {v s : String} (hc : create (.plain v) (.plain s) = .ok c)
    {t : Value} : (parse d t).value = .ok c ↔ ∃ x ∈ c.texts d, t = .plain x := by
  simp only [texts, List.mem_map, exists_exists_and_eq_and, toText_append]
  rw [parse_eq_ok_iff]
  constructor
  · rintro ⟨σ, hσ, rfl, rfl⟩
    exact ⟨σ.suffix, suffix_mem_ignored hσ, by rw [hσ.text_eq_append_suffix]⟩
  · rintro ⟨suffix, hx, rfl⟩
    obtain ⟨σ, hσ, rfl, rfl⟩ := exists_spelling hc hx
    exact ⟨σ, hσ, by rw [hσ.text_eq_append_suffix], rfl⟩

theorem parse_toText {v s : String} (hc : create (.plain v) (.plain s) = .ok c) (d : Dialect) :
    (parse d (.plain c.toText)).value = .ok c := by
  refine (parse_eq_ok_iff_mem_texts hc).2 ⟨_, List.mem_map.2 ⟨[], nil_mem_ignored, rfl⟩, ?_⟩
  rw [toText_append, List.append_nil]
  rfl

theorem parse_toText_of_parse {v : Value} (h : (parse d v).value = .ok c) (d' : Dialect) :
    (parse d' (.plain c.toText)).value = .ok c := by
  obtain ⟨verb, subject, hc⟩ := create_of_parse h
  exact parse_toText hc d'

/-- A claim is read from its own text with what is ignored behind it, and from nothing else; its own
text is read in every dialect, also that of a claim which came of another text. -/
theorem parse_texts :
    (∀ (v s : String) (c : Claim), create (.plain v) (.plain s) = .ok c →
        (∀ (d : Dialect) (t : Value), (parse d t).value = .ok c ↔ ∃ x ∈ c.texts d, t = .plain x)
          ∧ ∀ d : Dialect, (parse d (.plain c.toText)).value = .ok c)
      ∧ (∀ (d : Dialect) (t : Value) (c : Claim), (parse d t).value = .ok c →
        ∀ d' : Dialect, (parse d' (.plain c.toText)).value = .ok c)
      ∧ ∀ (d d' : Dialect) (t t' : Value) (c : Claim),
        (parse d t).value = .ok c → (parse d' t').value = .ok c →
          ∃ x ∈ c.ignored d, ∃ x' ∈ c.ignored d', t = .plain (c.toText ++ String.ofList x)
            ∧ t' = .plain (c.toText ++ String.ofList x') := by
  refine ⟨fun v s c hc => ⟨fun d t => parse_eq_ok_iff_mem_texts hc, parse_toText hc⟩, ?_, ?_⟩
  · intro d t c h
    obtain ⟨v, s, hc⟩ := create_of_parse h
    exact parse_toText hc
  · intro d d' t t' c h h'
    obtain ⟨v, s, hc⟩ := create_of_parse h
    obtain ⟨_, hm, rfl⟩ := (parse_eq_ok_iff_mem_texts hc).1 h
    obtain ⟨_, hm', rfl⟩ := (parse_eq_ok_iff_mem_texts hc).1 h'
    obtain ⟨x, hx, rfl⟩ := List.mem_map.1 hm
    obtain ⟨x', hx', rfl⟩ := List.mem_map.1 hm'
    exact ⟨x, hx, x', hx', rfl, rfl⟩

theorem parse_texts_orgs :
    create (.plain "read") (.plain "orgs.42") = .ok ⟨.plain "read", .plain "orgs.42"⟩ ∧
      ∀ t : Value, (parse .trailingDot t).value = .ok ⟨.plain "read", .plain "orgs.42"⟩ ↔
        ∃ x ∈ ["read:orgs.42", "read:orgs.42.*", "read:orgs.42."], t = .plain x := by
  have hc : create (.plain "read") (.plain "orgs.42") = .ok ⟨.plain "read", .plain "orgs.42"⟩ :=
    create_eq_ok_iff.2 ⟨rfl, rfl, by decide⟩
  have ht : texts .trailingDot ⟨.plain "read", .plain "orgs.42"⟩
      = ["read:orgs.42", "read:orgs.42.*", "read:orgs.42."] := by decide
  refine ⟨hc, fun t => ?_⟩
  rw [← ht]
  exact (parse_texts.1 "read" "orgs.42" _ hc).1 .trailingDot t

end Claim

end PermissionClaims
