import PermissionClaims.Proofs.Discovery

/-!
# The trailing-dot dialect

The trailing-dot dialect reads a value as the strict one does once a dot is gone that stands behind
a path and nothing else (`parse_trailingDot_iff`). So whatever permissions and requests come to in
the one dialect they come to in the other without such dots, and what is granted or seen in the
strict dialect is granted or seen here too (`trailingDot_conservative`).
-/

namespace PermissionClaims

open Grammar Claim

namespace Grammar

variable {cs : List Char}

/-- A value without the dot at its end, if what is before it is claim text that does not end in a
star. -/
def withoutDot : Value → Value
  | .text (.plain s) =>
    match ['.'].isSuffixOf? s.toList with
    | some cs =>
      if isValid .strict (.plain (String.ofList cs)) ∧ cs.getLast? ≠ some '*' then
        .plain (String.ofList cs)
      else .plain s
    | none => .plain s
  | v => v

theorem withoutDot_append (hv : isValid .strict (.plain (String.ofList cs)) = true)
    (hl : cs.getLast? ≠ some '*') :
    withoutDot (.plain (String.ofList (cs ++ ['.']))) = .plain (String.ofList cs) := by
  have hs : ['.'].isSuffixOf? (String.ofList (cs ++ ['.'])).toList = some cs := by
    rw [String.toList_ofList, isSuffixOf?_append]
  unfold withoutDot
  simp only [Value.plain, hs]
  exact if_pos ⟨hv, hl⟩

theorem withoutDot_of_getLast? (hl : cs.getLast? ≠ some '.') :
    withoutDot (.plain (String.ofList cs)) = .plain (String.ofList cs) := by
  have hs : ['.'].isSuffixOf? (String.ofList cs).toList = none := by
    rw [String.toList_ofList]
    refine isSuffixOf?_eq_none fun rest h => hl ?_
    simp [h]
  unfold withoutDot
  simp only [Value.plain, hs]

/-- Only a dot that stands behind claim text is taken off. -/
theorem withoutDot_eq_self_or (v : Value) :
    withoutDot v = v ∨ ∃ cs : List Char, v = .plain (String.ofList (cs ++ ['.']))
      ∧ withoutDot v = .plain (String.ofList cs) ∧ cs.getLast? ≠ some '*' := by
  unfold withoutDot
  split
  · rename_i s
    split
    · rename_i cs hcs
      split_ifs with h
      · have hs : s = String.ofList (cs ++ ['.']) := by
          rw [List.isSuffixOf?_eq_some_iff_append_eq.1 hcs, String.ofList_toList]
        exact .inr ⟨cs, by rw [hs]; rfl, rfl, h.2⟩
      · exact .inl rfl
    · exact .inl rfl
  · exact .inl rfl

namespace Spelling

variable {s : Spelling}

theorem Fits.trailingDot (h : s.Fits .strict) : s.Fits .trailingDot := by
  refine ⟨h.verb, h.body.imp_right fun ⟨hp, hx⟩ => ⟨hp, ?_⟩⟩
  rcases mem_strict_suffixes.1 hx with hx | hx <;> simp [hx, Dialect.suffixes]

/-- The spelling with a dot behind its subject in place of its suffix. -/
def dotted (s : Spelling) : Spelling :=
  { s with suffix := ['.'] }

theorem claim_dotted (s : Spelling) : s.dotted.claim = s.claim := rfl

theorem Fits.dotted (h : s.Fits .strict) (hp : Path s.subject) : s.dotted.Fits .trailingDot :=
  ⟨h.verb, .inr ⟨hp, mem_trailingDot_suffixes.2 (.inr (.inr rfl))⟩⟩

theorem text_dotted (hx : s.suffix = []) : s.dotted.text = s.text ++ ['.'] := by
  simp [text, raw, Spelling.dotted, hx]

/-- What the trailing-dot dialect has beyond the strict one. -/
theorem Fits.strict_or_dotted (h : s.Fits .trailingDot) :
    s.Fits .strict ∨ ∃ t : Spelling, t.Fits .strict ∧ Path t.subject ∧ t.suffix = []
      ∧ s = t.dotted := by
  rcases h.body with hg | ⟨hp, hx⟩
  · exact .inl ⟨h.verb, .inl hg⟩
  · rcases mem_trailingDot_suffixes.1 hx with hx | hx | hx
    · exact .inl ⟨h.verb, .inr ⟨hp, mem_strict_suffixes.2 (.inl hx)⟩⟩
    · exact .inl ⟨h.verb, .inr ⟨hp, mem_strict_suffixes.2 (.inr hx)⟩⟩
    · refine .inr ⟨{ s with suffix := [] }, ⟨h.verb, .inr ⟨hp, mem_strict_suffixes.2 (.inl rfl)⟩⟩,
        hp, rfl, ?_⟩
      simp [Spelling.dotted, ← hx]

/-- A text without a suffix ends like the path in it. -/
theorem getLast?_text_ne (hp : Path s.subject) (hx : s.suffix = []) {c : Char}
    (hc : isNameChar c = false) : s.text.getLast? ≠ some c := by
  obtain ⟨e, he, hn⟩ := hp.exists_getLast?
  have hl : s.text.getLast? = some e := by simp [text, raw, hx, List.getLast?_cons, he]
  rw [hl, ne_eq, Option.some.injEq]
  rintro rfl
  simp [hn] at hc

/-- A claim text of the strict dialect ends in its path or in a star. -/
theorem Fits.path_or_star (h : s.Fits .strict) :
    (Path s.subject ∧ s.suffix = []) ∨ s.text.getLast? = some '*' := by
  rcases h.body with ⟨hs, hx⟩ | ⟨hp, hx⟩
  · exact .inr (by simp [text, raw, hs, hx])
  · rcases mem_strict_suffixes.1 hx with hx | hx
    · exact .inl ⟨hp, hx⟩
    · exact .inr (by simp [text, raw, hx, List.getLast?_cons])

theorem Fits.getLast?_text_ne_dot (h : s.Fits .strict) : s.text.getLast? ≠ some '.' := by
  rcases h.path_or_star with ⟨hp, hx⟩ | hl
  · exact getLast?_text_ne hp hx (by decide)
  · simp [hl]

end Spelling

end Grammar

namespace Claim

variable {c : Claim} {v : Value}

theorem parse_plain_text {d : Dialect} {s : Spelling} (h : s.Fits d) :
    (parse d (.plain (String.ofList s.text))).value = .ok s.claim :=
  parse_eq_ok_iff.2 ⟨s, h, rfl, rfl⟩

/-- The dialects read the same claims, but for a dot that only one of them ignores. -/
theorem parse_trailingDot_iff :
    (parse .trailingDot v).value = .ok c ↔ (parse .strict (withoutDot v)).value = .ok c := by
  refine ⟨fun h => ?_, fun h => ?_⟩
  · obtain ⟨s, hs, rfl, rfl⟩ := parse_eq_ok_iff.1 h
    rcases hs.strict_or_dotted with hs | ⟨t, ht, hp, hx, rfl⟩
    · rw [withoutDot_of_getLast? hs.getLast?_text_ne_dot, parse_plain_text hs]
    · have hv := isValid_iff_exists_parse.2 ⟨_, parse_plain_text ht⟩
      have hl : t.text.getLast? ≠ some '*' := Spelling.getLast?_text_ne hp hx (by decide)
      rw [Spelling.text_dotted hx, withoutDot_append hv hl, parse_plain_text ht,
        Spelling.claim_dotted]
  · rcases withoutDot_eq_self_or v with hv | ⟨cs, hv, hd, hl⟩
    · rw [hv] at h
      obtain ⟨s, hs, rfl, rfl⟩ := parse_eq_ok_iff.1 h
      exact parse_plain_text hs.trailingDot
    · rw [hd] at h
      obtain ⟨s, hs, ht, rfl⟩ := parse_eq_ok_iff.1 h
      have ht : cs = s.text := String.ofList_injective (Text.plain.inj (Value.text.inj ht))
      rcases hs.path_or_star with ⟨hp, hx⟩ | hstar
      · rw [hv, ht, ← Spelling.text_dotted hx]
        exact parse_plain_text (hs.dotted hp)
      · exact absurd (ht ▸ hstar) hl

/-- What the strict dialect reads, the other one reads alike. -/
theorem parse_trailingDot_of_strict (h : (parse .strict v).value = .ok c) :
    (parse .trailingDot v).value = .ok c := by
  obtain ⟨s, hs, rfl, rfl⟩ := parse_eq_ok_iff.1 h
  exact parse_plain_text hs.trailingDot

end Claim

namespace Access

variable {permissions permissions' request : Value} {ps vs : List Value}

theorem value_readValid_trailingDot (vs : List Value) :
    (readValid .trailingDot vs).value = (readValid .strict (vs.map withoutDot)).value := by
  induction vs with
  | nil => rfl
  | cons v vs ih =>
    rcases h : (parse .strict (withoutDot v)).value with fault | c
    · rcases h' : (parse .trailingDot v).value with fault' | c'
      · rw [List.map_cons, value_readValid_cons_error h, value_readValid_cons_error h', ih]
      · rw [parse_trailingDot_iff, h] at h'
        simp at h'
    · rw [List.map_cons, value_readValid_cons_ok h,
        value_readValid_cons_ok (parse_trailingDot_iff.2 h), ih]

theorem held_trailingDot (vs : List Value) :
    held .trailingDot vs = held .strict (vs.map withoutDot) := by
  rw [held, held, value_readValid_trailingDot]

section Respond

variable {α : Type} {answer : List Claim → Claim → α} {otherwise : α}

/-- Both dialects give the same answer, once the dots are gone for the strict one. -/
theorem value_respond_trailingDot (hps : permissions.elements = .ok ps)
    (hps' : permissions'.elements = .ok (ps.map withoutDot)) (request : Value) :
    ∃ a : α, (respond answer otherwise .trailingDot permissions request).value = .ok a
      ∧ (respond answer otherwise .strict permissions' (withoutDot request)).value = .ok a := by
  rcases h : (parse .strict (withoutDot request)).value with fault | q
  · rcases h' : (parse .trailingDot request).value with fault' | q'
    · exact ⟨otherwise, value_respond_of_error h', value_respond_of_error h⟩
    · rw [parse_trailingDot_iff, h] at h'
      simp at h'
  · refine ⟨_, value_respond_of_ok (parse_trailingDot_iff.2 h) hps, ?_⟩
    rw [value_respond_of_ok h hps', held_trailingDot]

/-- An answer of the strict dialect that is not the one to no claim text comes of claims that the
other dialect holds as well. -/
theorem exists_value_respond_trailingDot {a : α} (hps : permissions.elements = .ok ps)
    (h : (respond answer otherwise .strict permissions request).value = .ok a) :
    a = otherwise ∨ ∃ q : Claim, a = answer (held .strict ps) q
      ∧ (respond answer otherwise .trailingDot permissions request).value
        = .ok (answer (held .trailingDot ps) q) := by
  rcases hq : (parse .strict request).value with fault | q
  · rw [value_respond_of_error hq, Except.ok.injEq] at h
    exact .inl h.symm
  · rw [value_respond_of_ok hq hps, Except.ok.injEq] at h
    exact .inr ⟨q, h.symm, value_respond_of_ok (parse_trailingDot_of_strict hq) hps⟩

end Respond

theorem mem_held_trailingDot {c : Claim} (h : c ∈ held .strict ps) : c ∈ held .trailingDot ps := by
  obtain ⟨p, hp, hpc⟩ := mem_held_iff.1 h
  exact mem_held_iff.2 ⟨p, hp, parse_trailingDot_of_strict hpc⟩

theorem hasAccess_trailingDot_of_strict (hps : permissions.elements = .ok ps)
    (h : (hasAccess .strict permissions request).value = .ok true) :
    (hasAccess .trailingDot permissions request).value = .ok true := by
  rcases exists_value_respond_trailingDot hps h with h | ⟨q, hq, ht⟩
  · simp at h
  · obtain ⟨c, hc, hcq⟩ := checkAny_iff.1 hq.symm
    rw [hasAccess, ht, checkAny_iff.2 ⟨c, mem_held_trailingDot hc, hcq⟩]

/-- What a relation shows of a request in the strict dialect it shows in the other one. -/
theorem collect_trailingDot_of_strict (relation : Claim → Claim → Option String)
    {seen : List String} {s : String} (hps : permissions.elements = .ok ps)
    (h : (respond (fun cs q => collect (relation · q) cs) [] .strict permissions request).value
      = .ok seen) (hs : s ∈ seen) :
    ∃ seen' : List String,
      (respond (fun cs q => collect (relation · q) cs) [] .trailingDot permissions request).value
        = .ok seen' ∧ s ∈ seen' := by
  rcases exists_value_respond_trailingDot hps h with rfl | ⟨q, rfl, ht⟩
  · simp at hs
  · obtain ⟨c, hc, hcq⟩ := mem_collect_iff.1 hs
    exact ⟨_, ht, mem_collect_iff.2 ⟨c, mem_held_trailingDot hc, hcq⟩⟩

/-- The trailing-dot dialect answers as the strict one does without the dots that only the former
ignores. What the strict dialect reads, grants or shows, the other one does as well. -/
theorem trailingDot_conservative :
    (∀ (t : Value) (c : Claim),
      (parse .trailingDot t).value = .ok c ↔ (parse .strict (withoutDot t)).value = .ok c)
    ∧ (∀ (P P' : Value) (ps : List Value), P.elements = .ok ps →
      P'.elements = .ok (ps.map withoutDot) →
        (∃ claims, (heldClaims .trailingDot P).value = .ok claims
          ∧ (heldClaims .strict P').value = .ok claims)
        ∧ ∀ r : Value,
          (∃ granted, (hasAccess .trailingDot P r).value = .ok granted
            ∧ (hasAccess .strict P' (withoutDot r)).value = .ok granted)
          ∧ (∃ seen, (visibleChildren .trailingDot P r).value = .ok seen
            ∧ (visibleChildren .strict P' (withoutDot r)).value = .ok seen)
          ∧ ∃ seen, (visibleDescendants .trailingDot P r).value = .ok seen
            ∧ (visibleDescendants .strict P' (withoutDot r)).value = .ok seen)
    ∧ (∀ (t : Value) (c : Claim),
      (parse .strict t).value = .ok c → (parse .trailingDot t).value = .ok c)
    ∧ ∀ (P : Value) (ps : List Value), P.elements = .ok ps → ∀ r : Value,
      ((hasAccess .strict P r).value = .ok true → (hasAccess .trailingDot P r).value = .ok true)
      ∧ (∀ seen : List String, (visibleChildren .strict P r).value = .ok seen → ∀ s ∈ seen,
        ∃ seen', (visibleChildren .trailingDot P r).value = .ok seen' ∧ s ∈ seen')
      ∧ ∀ seen : List String, (visibleDescendants .strict P r).value = .ok seen → ∀ s ∈ seen,
        ∃ seen', (visibleDescendants .trailingDot P r).value = .ok seen' ∧ s ∈ seen' := by
  refine ⟨fun t c => parse_trailingDot_iff, fun P P' ps hps hps' => ⟨⟨_, value_heldClaims hps, ?_⟩,
    fun r => ⟨?_, ?_, ?_⟩⟩, fun t c => parse_trailingDot_of_strict, fun P ps hps r => ⟨?_, ?_, ?_⟩⟩
  · rw [value_heldClaims hps', held_trailingDot]
  · exact value_respond_trailingDot hps hps' r
  · exact value_respond_trailingDot hps hps' r
  · exact value_respond_trailingDot hps hps' r
  · exact hasAccess_trailingDot_of_strict hps
  · exact fun seen h s hs => collect_trailingDot_of_strict directChild hps h hs
  · exact fun seen h s hs => collect_trailingDot_of_strict directDescendant hps h hs

theorem trailingDot_conservative_orgs :
    let dotted : List Value := [.plain "read:orgs.", .plain "read:a.*.", .int (.ofByte 7)]
    let undotted : List Value := [.plain "read:orgs", .plain "read:a.*.", .int (.ofByte 7)]
    (Value.tuple dotted).elements = .ok dotted
      ∧ (Value.tuple undotted).elements = .ok (dotted.map withoutDot)
      ∧ (hasAccess .trailingDot (.tuple dotted) (.plain "read:orgs.42.")).value = .ok true := by
  intro dotted undotted
  have hP : (Value.tuple dotted).elements = .ok dotted := rfl
  have hP' : (Value.tuple undotted).elements = .ok (dotted.map withoutDot) := by rfl
  have hstrict : (hasAccess .strict (.tuple undotted) (withoutDot (.plain "read:orgs.42."))).value
      = .ok true := by rfl
  obtain ⟨granted, hg, hg'⟩ :=
    ((trailingDot_conservative.2.1 _ _ _ hP hP').2 (.plain "read:orgs.42.")).1
  rw [hg', Except.ok.injEq] at hstrict
  exact ⟨hP, hP', hstrict ▸ hg⟩

-- only a path can have the dot behind it
example : ∀ s ∈ ["read:*.", "read:a.*.", "read:a..", "read:a-.", "."],
    isValid .trailingDot (.plain s) = false := by
  decide

end Access

end PermissionClaims
