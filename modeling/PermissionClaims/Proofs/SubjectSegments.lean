import PermissionClaims.Proofs.SubjectPath

/-!
# Subjects and their segments

A subject and its segments say the same. The segments are names that make up the subject when they
are joined (`intercalate_segments`), and a subject behind a dot adds its segments to those in front
of it (`ProperSubject.append`, `segments_append`). A text starts with another one and a dot if the
segments of the other come first in its own and are not all of them
(`segments_prefix_and_ne_iff`): a dot stands at the end of a segment and nowhere else.
-/

namespace PermissionClaims

open Grammar

theorem Grammar.Path.append {xs ys : List Char} (hx : Path xs) (hy : Path ys) :
    Path (xs ++ '.' :: ys) := by
  obtain ⟨hxnames, hxhead, -⟩ := path_iff_splitOn.1 hx
  obtain ⟨hynames, -, hylast⟩ := path_iff_splitOn.1 hy
  obtain ⟨c, hc, -⟩ := hy.exists_getLast?
  refine path_iff_splitOn.2 ⟨?_, ?_, ?_⟩
  · rw [List.splitOn_append_cons_self, List.forall_mem_append]
    exact ⟨hxnames, hynames⟩
  · rwa [List.head?_append_of_ne_nil _ hx.ne_nil]
  · rw [List.getLast?_append, List.getLast?_cons, hc]
    rwa [hc] at hylast

namespace Claim

variable {c q : Claim} {a b : String}

theorem intercalate_segments (hc : ¬ c.isGlobal = true) :
    ".".intercalate c.segments = c.subject.content := by
  have hid : String.toList ∘ String.ofList = id := funext fun _ => String.toList_ofList
  have hdot : ".".toList = ['.'] := rfl
  rw [← String.toList_inj, String.toList_intercalate, segments_of_not_global hc, List.map_map, hid,
    List.map_id, hdot, List.intercalate_splitOn]

/-- Segments come first and are not all there are: there is a dot behind them. -/
theorem segments_prefix_and_ne_iff (hc : ¬ c.isGlobal = true) (hq : ¬ q.isGlobal = true) :
    c.segments <+: q.segments ∧ c.segments ≠ q.segments ↔
      ∃ rest, q.subject.content.toList = c.subject.content.toList ++ '.' :: rest := by
  rw [segments_prefix_iff hc hq, splitOn_dot_prefix_iff, ne_eq, segments_inj, ← String.toList_inj]
  constructor
  · rintro ⟨heq | hbelow, hne⟩
    · exact absurd heq.symm hne
    · exact hbelow
  · rintro ⟨rest, h⟩
    refine ⟨Or.inr ⟨rest, h⟩, fun he => ?_⟩
    simpa using h.symm.trans he.symm

/-- A subject that a claim can have, other than that of a claim on everything. -/
structure ProperSubject (s : String) : Prop where
  ne_empty : s ≠ ""
  valid : isSubjectValue (.plain s) = true

theorem properSubject_iff : ProperSubject a ↔ Path a.toList := by
  have hvalid : isSubjectValue (.plain a) = true ↔ a.toList = [] ∨ Path a.toList := isSubject_iff
  have hempty : a = "" ↔ a.toList = [] := by rw [← String.toList_inj, String.toList_empty]
  constructor
  · rintro ⟨hne, hv⟩
    exact (hvalid.1 hv).resolve_left (mt hempty.2 hne)
  · intro h
    exact ⟨mt hempty.1 h.ne_nil, hvalid.2 (Or.inr h)⟩

theorem ProperSubject.not_isGlobal (h : ProperSubject a) (verb : Text) :
    ¬ (⟨verb, .plain a⟩ : Claim).isGlobal = true :=
  mt isGlobal_iff.1 (properSubject_iff.1 h).ne_nil

theorem ProperSubject.append (ha : ProperSubject a) (hb : ProperSubject b) :
    ProperSubject (a ++ "." ++ b) := by
  rw [properSubject_iff] at ha hb ⊢
  simpa using ha.append hb

theorem segments_append (ha : ProperSubject a) (hb : ProperSubject b) (verb : Text) :
    segments ⟨verb, .plain (a ++ "." ++ b)⟩
      = segments ⟨verb, .plain a⟩ ++ segments ⟨verb, .plain b⟩ := by
  rw [segments_of_not_global (ha.not_isGlobal verb), segments_of_not_global (hb.not_isGlobal verb),
    segments_of_not_global ((ha.append hb).not_isGlobal verb), ← List.map_append,
    ← List.splitOn_append_cons_self]
  simp [Text.content]

theorem toList_dot_prefix_iff :
    (a ++ ".").toList <+: b.toList ↔ ∃ rest, b.toList = a.toList ++ '.' :: rest := by
  simp [List.prefix_iff_exists_append_eq, eq_comm]

/-- Segments stand for subjects. Those of a claim that is not on everything are names that make up
its subject with dots between them, and claims are the same if they have the same verb and the same
segments. To join subjects with a dot joins their segments, and a subject starts with another one
and a dot if the segments of the other come first in its own and are not all of them. -/
theorem segments_represent_subjects :
    (∀ (v s : String) (c : Claim), create (.plain v) (.plain s) = .ok c → ¬ c.isGlobal = true →
      c.segments ≠ [] ∧ (∀ t ∈ c.segments, Name t.toList) ∧ ".".intercalate c.segments = s)
    ∧ (∀ c q : Claim, c.exact q = true ↔
      c.verb.content = q.verb.content ∧ c.segments = q.segments)
    ∧ (∀ (v s v' s' : String) (c q : Claim), create (.plain v) (.plain s) = .ok c →
      create (.plain v') (.plain s') = .ok q → (c = q ↔ v = v' ∧ c.segments = q.segments))
    ∧ (∀ a b : String, ProperSubject a → ProperSubject b → ProperSubject (a ++ "." ++ b)
      ∧ ∀ verb : Text, segments ⟨verb, .plain (a ++ "." ++ b)⟩
        = segments ⟨verb, .plain a⟩ ++ segments ⟨verb, .plain b⟩)
    ∧ ∀ x y : String, ProperSubject x → ProperSubject y → ∀ verb : Text,
      ((x ++ ".").toList <+: y.toList ↔ segments ⟨verb, .plain x⟩ <+: segments ⟨verb, .plain y⟩
        ∧ segments ⟨verb, .plain x⟩ ≠ segments ⟨verb, .plain y⟩) := by
  refine ⟨fun v s c h hc => ?_, fun c q => exact_iff, fun v s v' s' c q h h' => ?_,
    fun a b ha hb => ⟨ha.append hb, segments_append ha hb⟩, fun x y hx hy verb => ?_⟩
  · obtain ⟨-, hs, hw⟩ := create_eq_ok_iff.1 h
    have hs : c.subject = .plain s := (Value.text.inj hs).symm
    refine ⟨mt segments_eq_nil_iff.1 hc, fun t ht => name_of_mem_segments hw ht, ?_⟩
    rw [intercalate_segments hc, hs, Text.content_plain]
  · obtain ⟨hv, hs, -⟩ := create_eq_ok_iff.1 h
    obtain ⟨hv', hs', -⟩ := create_eq_ok_iff.1 h'
    obtain ⟨verb, subject⟩ := c
    obtain ⟨verb', subject'⟩ := q
    obtain rfl := Value.text.inj hv
    obtain rfl := Value.text.inj hs
    obtain rfl := Value.text.inj hv'
    obtain rfl := Value.text.inj hs'
    rw [segments_inj]
    simp [Text.content]
  · rw [segments_prefix_and_ne_iff (hx.not_isGlobal verb) (hy.not_isGlobal verb),
      toList_dot_prefix_iff]
    rfl

-- a segment may end in a hyphen where another one follows, and `bc` does not lie below `b`
theorem segments_represent_subjects_hyphen :
    create (.plain "read") (.plain "a-.b") = .ok ⟨.plain "read", .plain "a-.b"⟩
      ∧ ".".intercalate (segments ⟨.plain "read", .plain "a-.b"⟩) = "a-.b"
      ∧ ProperSubject "a-.b" ∧ ProperSubject "c" ∧ ProperSubject "a-.bc"
      ∧ segments ⟨.plain "read", .plain ("a-.b" ++ "." ++ "c")⟩ = ["a-", "b", "c"]
      ∧ ¬ ("a-.b" ++ ".").toList <+: "a-.bc".toList := by
  have hc : create (.plain "read") (.plain "a-.b") = .ok ⟨.plain "read", .plain "a-.b"⟩ := rfl
  have hab : ProperSubject "a-.b" := ⟨by decide, rfl⟩
  have hd : ProperSubject "c" := ⟨by decide, rfl⟩
  have habc : ProperSubject "a-.bc" := ⟨by decide, rfl⟩
  obtain ⟨hjoin, -, -, happend, hbelow⟩ := segments_represent_subjects
  refine ⟨hc, (hjoin _ _ _ hc (hab.not_isGlobal _)).2.2, hab, hd, habc,
    (happend _ _ hab hd).2 (.plain "read"), fun h => ?_⟩
  exact absurd ((hbelow _ _ hab habc (.plain "read")).1 h).1 (by decide)

end Claim

end PermissionClaims
