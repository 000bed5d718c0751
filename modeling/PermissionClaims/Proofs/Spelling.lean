import PermissionClaims.Claim.Grammar
import PermissionClaims.Proofs.DottedPath
import PermissionClaims.Proofs.PatternLanguage

/-!
# The language of claim texts

The patterns of the grammar read names, paths and suffixes. `normalize` finds the path of a
subject as written (`Spelling.Fits.normalize_raw`), so a text has one spelling
(`Spelling.Fits.eq_of_text`), and what the claim pattern matches are the texts of fitting spellings,
with the verb and the subject as written for its groups (`fullMatch?_claimPattern`).
-/

namespace PermissionClaims.Grammar

variable {d d' : Dialect} {cs : List Char} {segments : List (List Char)}

/-! ## Names and paths -/

theorem isWordChar_iff {c : Char} (h : isNameChar c = true) : isWordChar c = true ↔ c ≠ '-' := by
  constructor
  · rintro hc rfl
    simp [isWordChar] at hc
  · intro hc
    simpa [isNameChar, hc] using h

theorem Name.notMem (h : Name cs) {c : Char} (hc : isNameChar c = false) : c ∉ cs := by
  intro hm
  rw [h.2 c hm] at hc
  exact Bool.noConfusion hc

theorem exists_head?_intercalate (hne : segments ≠ []) (h : ∀ s ∈ segments, Name s) :
    ∃ c, (['.'].intercalate segments).head? = some c ∧ isNameChar c = true := by
  obtain ⟨s, rest, rfl⟩ := List.exists_cons_of_ne_nil hne
  obtain ⟨hs, hchars⟩ := h s List.mem_cons_self
  obtain ⟨c, cs, rfl⟩ := List.exists_cons_of_ne_nil hs
  refine ⟨c, ?_, hchars c List.mem_cons_self⟩
  rw [List.intercalate_cons_cons_left, List.head?_cons]

theorem Name.exists_getLast? (h : Name cs) : ∃ c, cs.getLast? = some c ∧ isNameChar c = true :=
  ⟨cs.getLast h.1, List.getLast?_eq_some_getLast h.1, h.2 _ (List.getLast_mem h.1)⟩

theorem exists_getLast?_intercalate (hne : segments ≠ []) (h : ∀ s ∈ segments, Name s) :
    ∃ c, (['.'].intercalate segments).getLast? = some c ∧ isNameChar c = true := by
  induction segments with
  | nil => exact absurd rfl hne
  | cons s rest ih =>
    by_cases hr : rest = []
    · subst hr
      rw [List.intercalate_singleton]
      exact (h s List.mem_cons_self).exists_getLast?
    · obtain ⟨c, hc, hn⟩ := ih hr fun t ht => h t (List.mem_cons_of_mem s ht)
      refine ⟨c, ?_, hn⟩
      rw [List.intercalate_cons_of_ne_nil hr, List.getLast?_append, hc, Option.some_or]

theorem Path.exists_getLast? (h : Path cs) :
    ∃ c, cs.getLast? = some c ∧ isNameChar c = true := by
  obtain ⟨segments, hne, hs, rfl, -, -⟩ := h
  exact exists_getLast?_intercalate hne hs

theorem ne_append_singleton (h : ∃ c, cs.getLast? = some c ∧ isNameChar c = true)
    (xs : List Char) {c : Char} (hc : isNameChar c = false) : cs ≠ xs ++ [c] := by
  rintro rfl
  obtain ⟨e, he, hn⟩ := h
  rw [List.getLast?_append, List.getLast?_singleton, Option.some_or, Option.some.injEq] at he
  rw [← he, hc] at hn
  exact Bool.noConfusion hn

theorem Path.ne_append_singleton (h : Path cs) (xs : List Char) {c : Char}
    (hc : isNameChar c = false) : cs ≠ xs ++ [c] :=
  Grammar.ne_append_singleton h.exists_getLast? xs hc

theorem Path.ne_nil (h : Path cs) : cs ≠ [] := by
  rintro rfl
  obtain ⟨c, hc, -⟩ := h.exists_getLast?
  simp at hc

/-! ## What the patterns read -/

def names : Language Char :=
  {w | Name w}

def joinedNames : Language Char :=
  {w | ∃ segments : List (List Char), segments ≠ [] ∧ (∀ s ∈ segments, Name s) ∧
    w = ['.'].intercalate segments}

def paths : Language Char :=
  {w | Path w}

def suffixes (d : Dialect) : Language Char :=
  {w | w ∈ d.suffixes}

theorem reads_verb : verbPattern.Reads names :=
  Pattern.reads_word isNameChar

theorem reads_segments : segmentsPattern.Reads joinedNames :=
  Pattern.Reads.separated (Pattern.reads_word isNameChar) '.'

theorem nil_notMem_joinedNames : [] ∉ joinedNames := by
  rintro ⟨segments, hne, hs, hw⟩
  obtain ⟨c, hc, -⟩ := exists_head?_intercalate hne hs
  rw [← hw] at hc
  simp at hc

theorem any_isWordChar_iff {o : Option Char} (h : ∃ c, o = some c ∧ isNameChar c = true) :
    o.any isWordChar = true ↔ o ≠ some '-' := by
  obtain ⟨c, rfl, hc⟩ := h
  rw [Option.any_some, isWordChar_iff hc, ne_eq, ne_eq, Option.some.injEq]

/-- The two looks around a path are looks at its own ends. -/
theorem reads_path : pathPattern.Reads paths := by
  refine ((reads_segments.seq_precededBy nil_notMem_joinedNames).followedBy_seq
    fun h => nil_notMem_joinedNames h.1).congr fun w => ?_
  constructor
  · rintro ⟨⟨⟨segments, hne, hs, rfl⟩, hl⟩, hf⟩
    exact ⟨segments, hne, hs, rfl, (any_isWordChar_iff (exists_head?_intercalate hne hs)).1 hf,
      (any_isWordChar_iff (exists_getLast?_intercalate hne hs)).1 hl⟩
  · rintro ⟨segments, hne, hs, rfl, hf, hl⟩
    exact ⟨⟨⟨segments, hne, hs, rfl⟩,
      (any_isWordChar_iff (exists_getLast?_intercalate hne hs)).2 hl⟩,
      (any_isWordChar_iff (exists_head?_intercalate hne hs)).2 hf⟩

theorem mem_strict_suffixes {w : List Char} :
    w ∈ Dialect.strict.suffixes ↔ w = [] ∨ w = ['.', '*'] := by
  simp [Dialect.suffixes]

theorem mem_trailingDot_suffixes {w : List Char} :
    w ∈ Dialect.trailingDot.suffixes ↔ w = [] ∨ w = ['.', '*'] ∨ w = ['.'] := by
  simp [Dialect.suffixes]

theorem reads_suffix (d : Dialect) : (suffixPattern d).Reads (suffixes d) := by
  have hstar := (Pattern.reads_char '.').seq (Pattern.reads_char '*')
  cases d with
  | strict =>
    refine hstar.optional.congr fun w => Iff.trans ?_ mem_strict_suffixes.symm
    constructor
    · rintro (⟨_, rfl, _, rfl, rfl⟩ | rfl)
      · exact Or.inr rfl
      · exact Or.inl rfl
    · rintro (rfl | rfl)
      · exact Or.inr rfl
      · exact Or.inl ⟨['.'], rfl, ['*'], rfl, rfl⟩
  | trailingDot =>
    refine (hstar.either (Pattern.reads_char '.')).optional.congr fun w =>
      Iff.trans ?_ mem_trailingDot_suffixes.symm
    constructor
    · rintro ((⟨_, rfl, _, rfl, rfl⟩ | rfl) | rfl)
      · exact Or.inr (Or.inl rfl)
      · exact Or.inr (Or.inr rfl)
      · exact Or.inl rfl
    · rintro (rfl | rfl | rfl)
      · exact Or.inr rfl
      · exact Or.inl (Or.inl ⟨['.'], rfl, ['*'], rfl, rfl⟩)
      · exact Or.inl (Or.inr rfl)

theorem isVerb_iff : isVerb cs = true ↔ Name cs :=
  reads_verb.accepts_iff

theorem isSubject_iff : isSubject cs = true ↔ cs = [] ∨ Path cs := by
  rw [isSubject, Bool.or_eq_true, decide_eq_true_eq, reads_path.accepts_iff]
  rfl

/-! ## Spellings -/

/-- Nothing is taken off a subject that ends like a name. -/
theorem normalize_eq_self (h : ∃ c, cs.getLast? = some c ∧ isNameChar c = true) :
    normalize cs = cs := by
  have hstar : cs ≠ ['*'] := ne_append_singleton h [] (by decide)
  unfold normalize
  rw [if_neg hstar, isSuffixOf?_eq_none, isSuffixOf?_eq_none, Option.getD_none]
  · exact fun rest => ne_append_singleton h rest (by decide)
  · intro rest
    rw [show rest ++ ['.', '*'] = (rest ++ ['.']) ++ ['*'] by simp]
    exact ne_append_singleton h (rest ++ ['.']) (by decide)

theorem mem_suffixes {w : List Char} (h : w ∈ d.suffixes) : w = [] ∨ w = ['.', '*'] ∨ w = ['.'] := by
  cases d with
  | strict => exact (mem_strict_suffixes.1 h).imp_right Or.inl
  | trailingDot => exact mem_trailingDot_suffixes.1 h

namespace Spelling

variable {s s' : Spelling}

/-- The subject a spelling stands for: none for the star. -/
def meant (s : Spelling) : List Char :=
  if s.subject = ['*'] then [] else s.subject

theorem Fits.normalize_raw (h : s.Fits d) : normalize s.raw = s.meant := by
  unfold meant raw
  rcases h.body with ⟨hs, hx⟩ | ⟨hp, hx⟩
  · simp [hs, hx, normalize]
  · have hstar : s.subject ≠ ['*'] := hp.ne_append_singleton [] (by decide)
    rw [if_neg hstar]
    rcases mem_suffixes hx with hx | hx | hx <;> rw [hx]
    · rw [List.append_nil, normalize_eq_self hp.exists_getLast?]
    · rw [normalize, isSuffixOf?_append, if_neg]
      intro he
      have := congrArg List.length he
      simp at this
    · rw [normalize, isSuffixOf?_append, isSuffixOf?_eq_none, if_neg, Option.getD_some]
      · intro he
        have := congrArg List.getLast? he
        simp at this
      · intro rest he
        have := congrArg List.getLast? he
        simp at this

theorem Fits.colon_notMem (h : s.Fits d) : ':' ∉ s.verb :=
  h.verb.notMem (by decide)

/-- A text has one spelling. -/
theorem Fits.eq_of_text (h : s.Fits d) (h' : s'.Fits d') (ht : s.text = s'.text) : s = s' := by
  obtain ⟨hv, hr⟩ := append_cons_inj h.colon_notMem h'.colon_notMem ht
  -- the suffix is found on the written subject alone, whatever spelling it came of
  have hm : s.meant = s'.meant := by rw [← h.normalize_raw, hr, h'.normalize_raw]
  have hs : s.subject = s'.subject := by
    unfold meant at hm
    split_ifs at hm with hs hs' hs'
    · rw [hs, hs']
    · rcases h'.body with ⟨he, -⟩ | ⟨hp, -⟩
      · exact absurd he hs'
      · exact absurd hm.symm hp.ne_nil
    · rcases h.body with ⟨he, -⟩ | ⟨hp, -⟩
      · exact absurd he hs
      · exact absurd hm hp.ne_nil
    · exact hm
  have hx : s.suffix = s'.suffix := by
    unfold raw at hr
    rw [hs] at hr
    exact List.append_cancel_left hr
  cases s
  cases s'
  simp_all

end Spelling

/-! ## Claim texts -/

theorem reads_rawSubject (d : Dialect) :
    Pattern.Reads (.either (.char '*') (.seq pathPattern (suffixPattern d)))
      ({['*']} + paths * suffixes d) :=
  (Pattern.reads_char '*').either (reads_path.seq (reads_suffix d))

theorem exists_ends_claimPattern_iff {groups : Named (List Char)} :
    (∃ t ∈ (claimPattern d).ends (.start cs), t.ahead = [] ∧ t.groups = groups) ↔
      ∃ s : Spelling, s.Fits d ∧ s.text = cs ∧
        groups = [("verb", s.verb), ("subject", s.raw)] := by
  constructor
  · rintro ⟨t, ht, ha, rfl⟩
    obtain ⟨t₁, h₁, ht⟩ := Pattern.mem_ends_seq.1 ht
    obtain ⟨t₂, h₂, h₃⟩ := Pattern.mem_ends_seq.1 ht
    obtain ⟨v, hv, m, hm, rfl⟩ := (Pattern.mem_ends_group reads_verb).1 h₁
    obtain ⟨_, rfl, hcolon⟩ := (Pattern.reads_char ':' _ _).1 h₂
    obtain ⟨r, hr, m', hm', rfl⟩ := (Pattern.mem_ends_group (reads_rawSubject d)).1 h₃
    have htext : v ++ ':' :: r = cs := by
      have h₁ := hm.ahead
      have h₂ := hcolon.ahead
      have h₃ := hm'.ahead
      dsimp only at ha h₂
      rw [ha, List.append_nil] at h₃
      rw [h₂, h₃] at h₁
      exact h₁.symm
    have hgroups : m'.groups.set "subject" r = [("verb", v), ("subject", r)] := by
      rw [hm'.groups, hcolon.groups, hm.groups]
      rfl
    rcases hr with rfl | hr
    · exact ⟨⟨v, ['*'], []⟩, ⟨hv, Or.inl ⟨rfl, rfl⟩⟩, htext, hgroups⟩
    · obtain ⟨path, hp, suffix, hs, rfl⟩ := Language.mem_mul.1 hr
      exact ⟨⟨v, path, suffix⟩, ⟨hv, Or.inr ⟨hp, hs⟩⟩, htext, hgroups⟩
  · rintro ⟨s, hs, rfl, rfl⟩
    obtain ⟨m, hm, ha⟩ := Cursor.exists_past (s := .start s.text) (w := s.verb) rfl
    obtain ⟨t₂, hcolon, ha₂⟩ := Cursor.exists_past
      (s := { m with groups := m.groups.set "verb" s.verb }) (w := [':']) ha
    obtain ⟨m', hm', ha'⟩ := Cursor.exists_past (ha₂.trans (List.append_nil s.raw).symm)
    refine ⟨{ m' with groups := m'.groups.set "subject" s.raw }, ?_, ha', ?_⟩
    · refine Pattern.mem_ends_seq.2
        ⟨_, (Pattern.mem_ends_group reads_verb).2 ⟨_, hs.verb, m, hm, rfl⟩, ?_⟩
      refine Pattern.mem_ends_seq.2 ⟨t₂, (Pattern.reads_char ':' _ _).2 ⟨_, rfl, hcolon⟩, ?_⟩
      refine (Pattern.mem_ends_group (reads_rawSubject d)).2 ⟨s.raw, ?_, m', hm', rfl⟩
      rcases hs.body with ⟨he, hx⟩ | ⟨hp, hx⟩
      · left
        rw [Spelling.raw, he, hx]
        rfl
      · exact Or.inr (Language.append_mem_mul hp hx)
    · dsimp only
      rw [hm'.groups, hcolon.groups, hm.groups]
      rfl

theorem fullMatch?_claimPattern {groups : Named (List Char)} :
    (claimPattern d).fullMatch? cs = some groups ↔
      ∃ s : Spelling, s.Fits d ∧ s.text = cs ∧
        groups = [("verb", s.verb), ("subject", s.raw)] := by
  rw [← exists_ends_claimPattern_iff]
  refine Pattern.fullMatch?_eq_some_iff fun t ht u hu ha ha' => ?_
  obtain ⟨s, hs, hst, hg⟩ := exists_ends_claimPattern_iff.1 ⟨t, ht, ha, rfl⟩
  obtain ⟨s', hs', hst', hg'⟩ := exists_ends_claimPattern_iff.1 ⟨u, hu, ha', rfl⟩
  rw [hg, hg', hs.eq_of_text hs' (hst.trans hst'.symm)]

theorem match?_eq_some_iff {verb raw : List Char} :
    match? d cs = some (verb, raw) ↔
      ∃ s : Spelling, s.Fits d ∧ s.text = cs ∧ s.verb = verb ∧ s.raw = raw := by
  constructor
  · intro h
    obtain ⟨groups, hm, hg⟩ := Option.bind_eq_some_iff.1 h
    obtain ⟨s, hs, ht, rfl⟩ := fullMatch?_claimPattern.1 hm
    simp only [Named.get?_cons, ↓reduceIte, String.reduceEq, Option.bind_eq_bind, Option.bind_some,
      Option.pure_def, Option.some.injEq, Prod.mk.injEq] at hg
    exact ⟨s, hs, ht, hg⟩
  · rintro ⟨s, hs, ht, rfl, rfl⟩
    refine Option.bind_eq_some_iff.2 ⟨_, fullMatch?_claimPattern.2 ⟨s, hs, ht, rfl⟩, ?_⟩
    simp [Named.get?_cons]

theorem matchValue?_text_eq_some_iff {t : Text} {verb raw : List Char} :
    matchValue? d (.text t) = some (verb, raw) ↔
      ∃ s : Spelling, s.Fits d ∧ s.text = t.content.toList ∧ s.verb = verb ∧ s.raw = raw :=
  match?_eq_some_iff

theorem isValid_text_iff {t : Text} :
    isValid d (.text t) = true ↔ ∃ s : Spelling, s.Fits d ∧ s.text = t.content.toList := by
  rw [isValid, Option.isSome_iff_exists]
  constructor
  · rintro ⟨⟨verb, raw⟩, h⟩
    obtain ⟨s, hs, ht, -, -⟩ := matchValue?_text_eq_some_iff.1 h
    exact ⟨s, hs, ht⟩
  · rintro ⟨s, hs, ht⟩
    exact ⟨_, matchValue?_text_eq_some_iff.2 ⟨s, hs, ht, rfl, rfl⟩⟩

theorem isValid_of_asText?_eq_none {v : Value} (h : v.asText? = none) : isValid d v = false := by
  rw [isValid, matchValue?, h]
  rfl

/-- The claim texts of a dialect are the texts of its spellings, one each, and a match shows the
verb and the subject as written. -/
theorem isValid_iff_unique_spelling (d : Dialect) :
    (∀ t : Text, isValid d (.text t) = true ↔
        ∃ s : Spelling, s.Fits d ∧ s.text = t.content.toList)
      ∧ (∀ s s' : Spelling, s.Fits d → s'.Fits d → s.text = s'.text → s = s')
      ∧ (∀ (t : Text) (s : Spelling), s.Fits d → s.text = t.content.toList →
        (claimPattern d).fullMatch? t.content.toList
            = some [("verb", s.verb), ("subject", s.raw)]
          ∧ matchValue? d (.text t) = some (s.verb, s.raw))
      ∧ ∀ v : Value, v.asText? = none → isValid d v = false := by
  refine ⟨fun t => isValid_text_iff, fun s s' h h' => h.eq_of_text h', fun t s hs ht => ⟨?_, ?_⟩,
    fun v => isValid_of_asText?_eq_none⟩
  · exact fullMatch?_claimPattern.2 ⟨s, hs, ht, rfl⟩
  · exact matchValue?_text_eq_some_iff.2 ⟨s, hs, ht, rfl, rfl⟩

example : matchValue? .strict (.plain "read:a-.-b.*") = some ("read".toList, "a-.-b.*".toList) := by
  decide

end PermissionClaims.Grammar
