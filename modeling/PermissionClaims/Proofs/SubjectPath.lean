import PermissionClaims.Proofs.ClaimText
import PermissionClaims.Proofs.Segments

/-!
# Subjects as paths

A subject is a path if its segments are names and it neither starts nor ends with a hyphen
(`path_iff_splitOn`). So the segments of a claim are names (`name_of_mem_segments`), and what comes
first among them makes up a subject as long as it does not end with a hyphen
(`wellFormed_extend_iff`): a segment may, where it is not the last one.
-/

namespace PermissionClaims

open Grammar

variable {d : Dialect}

namespace Grammar

variable {cs verb raw : List Char}

theorem path_iff_splitOn :
    Path cs ↔ (∀ s ∈ cs.splitOn '.', Name s) ∧ cs.head? ≠ some '-' ∧ cs.getLast? ≠ some '-' := by
  constructor
  · rintro ⟨segments, hne, hs, rfl, hf, hl⟩
    have hd : ∀ s ∈ segments, '.' ∉ s := fun s h => (hs s h).notMem (by decide)
    rw [List.splitOn_intercalate '.' hd hne]
    exact ⟨hs, hf, hl⟩
  · rintro ⟨hs, hf, hl⟩
    exact ⟨cs.splitOn '.', List.splitOn_ne_nil _ _, hs, (List.intercalate_splitOn '.').symm, hf, hl⟩

/-- What comes first among the segments of a path is a path unless it ends in a hyphen. -/
theorem Path.prefix_iff {xs : List Char} (h : Path cs) (hpre : xs.splitOn '.' <+: cs.splitOn '.') :
    Path xs ↔ xs.getLast? ≠ some '-' := by
  obtain ⟨hnames, hhead, -⟩ := path_iff_splitOn.1 h
  have hhead' : xs.head? ≠ some '-' := by
    rcases splitOn_dot_prefix_iff.1 hpre with rfl | ⟨rest, rfl⟩
    · exact hhead
    · intro hm
      rw [List.head?_append, hm] at hhead
      exact hhead rfl
  rw [path_iff_splitOn]
  exact ⟨fun hx => hx.2.2, fun hl => ⟨fun s hs => hnames s (hpre.subset hs), hhead', hl⟩⟩

/-- A text without a suffix is a claim text if what stands behind its verb is a path. -/
theorem exists_fits_iff_path (hv : Name verb) (hr : normalize raw = raw) :
    (∃ s : Spelling, s.Fits d ∧ s.text = verb ++ ':' :: raw) ↔ Path raw := by
  constructor
  · rintro ⟨s, hs, ht⟩
    obtain ⟨-, rfl⟩ := append_cons_inj hs.colon_notMem (hv.notMem (by decide)) ht
    rcases hs.body with ⟨he, hx⟩ | ⟨hp, -⟩
    · rw [Spelling.raw, he, hx] at hr
      exact absurd hr (by decide)
    · have hstar : s.subject ≠ ['*'] := hp.ne_append_singleton [] (by decide)
      rwa [← hr, hs.normalize_raw, Spelling.meant_of_ne hstar]
  · intro hp
    have hnil : [] ∈ d.suffixes := by cases d <;> exact List.mem_cons_self
    exact ⟨⟨verb, raw, []⟩, ⟨hv, Or.inr ⟨hp, hnil⟩⟩, by simp [Spelling.text, Spelling.raw]⟩

end Grammar

namespace Claim

variable {c q q' : Claim} {s : String}

theorem isSubject_iff_path (hg : ¬ c.isGlobal = true) :
    isSubject c.subject.content.toList = true ↔ Path c.subject.content.toList := by
  rw [isSubject_iff]
  exact or_iff_right fun h => hg (isGlobal_iff.2 h)

/-- The segments of a claim are names. -/
theorem name_of_mem_segments (hc : c.WellFormed) (hs : s ∈ c.segments) : Name s.toList := by
  have hpath := (isSubject_iff_path (not_isGlobal_of_mem_segments hs)).1 hc.2
  exact (path_iff_splitOn.1 hpath).1 _ (toList_mem_splitOn hs)

/-! ## One segment further down -/

/-- The text of the claim one segment further down. -/
def textBelow (q : Claim) (s : String) : String :=
  q.verb.content ++ ":" ++ if q.isGlobal then s else q.subject.content ++ "." ++ s

theorem toList_textBelow : (q.textBelow s).toList
    = q.verb.content.toList ++ ':' :: (q.extend s).subject.content.toList := by
  rw [textBelow, ← content_extend]
  simp

theorem toList_content_extend : (q.extend s).subject.content.toList
    = if q.isGlobal = true then s.toList else q.subject.content.toList ++ '.' :: s.toList := by
  rw [content_extend]
  split_ifs
  · rfl
  · simp

theorem getLast?_content_extend (hs : Name s.toList) :
    (q.extend s).subject.content.toList.getLast? = s.toList.getLast? := by
  obtain ⟨c, hc, -⟩ := hs.exists_getLast?
  rw [toList_content_extend]
  split_ifs
  · rfl
  · rw [List.getLast?_append, List.getLast?_cons, hc]
    rfl

theorem not_isGlobal_extend (hs : Name s.toList) : ¬ (q.extend s).isGlobal = true := by
  intro hg
  obtain ⟨c, hc, -⟩ := hs.exists_getLast?
  rw [← getLast?_content_extend (q := q) hs, isGlobal_iff.1 hg] at hc
  simp at hc

theorem segments_extend (hs : Name s.toList) : (q.extend s).segments = q.segments ++ [s] := by
  have hd : s.toList.splitOn '.' = [s.toList] := List.splitOn_eq_singleton (hs.notMem (by decide))
  rw [segments_of_not_global (not_isGlobal_extend hs), toList_content_extend]
  split_ifs with hq
  · rw [segments_of_global hq, hd]
    simp
  · rw [segments_of_not_global hq, List.splitOn_append_cons_self, hd]
    simp

/-- What a claim has below a query is named by its next segment. -/
theorem name_of_directDescendant (hc : c.WellFormed) (h : c.directDescendant q = some s) :
    Name s.toList := by
  obtain ⟨-, hs⟩ := directDescendant_eq_some_iff.1 h
  exact name_of_mem_segments hc (hs.subset (List.mem_append_right _ (List.mem_singleton_self s)))

theorem name_of_directChild (hc : c.WellFormed) (h : c.directChild q = some s) : Name s.toList := by
  obtain ⟨-, hs⟩ := directChild_eq_some_iff.1 h
  exact name_of_mem_segments hc (hs ▸ List.mem_append_right _ (List.mem_singleton_self s))

/-- What comes first in a claim is a claim unless it is cut behind a hyphen. -/
theorem wellFormed_extend_iff (hc : c.WellFormed) (h : c.directDescendant q = some s) :
    (q.extend s).WellFormed ↔ s.toList.getLast? ≠ some '-' := by
  have hs := name_of_directDescendant hc h
  obtain ⟨hv, hseg⟩ := directDescendant_eq_some_iff.1 h
  have hcg : ¬ c.isGlobal = true :=
    not_isGlobal_of_mem_segments (hseg.subset (List.mem_append_right _ (List.mem_singleton_self s)))
  have hqg := not_isGlobal_extend (q := q) hs
  have hverb : isVerb (q.extend s).verb.content.toList = true := by
    change isVerb q.verb.content.toList = true
    exact hv ▸ hc.1
  rw [← segments_extend hs, segments_prefix_iff hqg hcg] at hseg
  rw [WellFormed, isSubject_iff_path hqg, ((isSubject_iff_path hcg).1 hc.2).prefix_iff hseg,
    getLast?_content_extend hs]
  exact and_iff_right hverb

theorem isValid_textBelow_iff (hv : Name q.verb.content.toList) (hs : Name s.toList) :
    isValid d (.plain (q.textBelow s)) = true ↔ (q.extend s).WellFormed := by
  have hlast : ∃ c, (q.extend s).subject.content.toList.getLast? = some c ∧ isNameChar c = true := by
    rw [getLast?_content_extend hs]
    exact hs.exists_getLast?
  rw [Value.plain, isValid_text_iff, Text.content_plain, toList_textBelow,
    exists_fits_iff_path hv (normalize_eq_self hlast), WellFormed,
    isSubject_iff_path (not_isGlobal_extend hs)]
  exact (and_iff_right (isVerb_iff.2 hv)).symm

theorem parse_textBelow (hs : Name s.toList) (hw : (q.extend s).WellFormed) :
    ∃ q' : Claim, (parse d (.plain (q.textBelow s))).value = .ok q'
      ∧ q'.exact (q.extend s) = true := by
  have hc : create (.plain q.verb.content) (.text (q.extend s).subject)
      = .ok ⟨.plain q.verb.content, (q.extend s).subject⟩ := create_eq_ok_iff.2 ⟨rfl, rfl, hw⟩
  have ht : toText ⟨.plain q.verb.content, (q.extend s).subject⟩ = q.textBelow s := by
    have hg : ¬ isGlobal ⟨.plain q.verb.content, (q.extend s).subject⟩ = true :=
      not_isGlobal_extend (q := q) hs
    rw [toText, text, if_neg hg, ← String.toList_inj, String.toList_ofList, toList_textBelow]
    rfl
  refine ⟨⟨.plain q.verb.content, (q.extend s).subject⟩, ?_, exact_iff.2 ⟨rfl, rfl⟩⟩
  rw [← ht]
  exact parse_toText hc d

end Claim

end PermissionClaims
