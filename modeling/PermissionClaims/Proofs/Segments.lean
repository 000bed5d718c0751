import PermissionClaims.Claim.Relation
import PermissionClaims.Proofs.DottedPath

/-!
# Relations by segments

The relations between claims are decided on characters, by what lies behind a further dot. Said of
segments, a held claim authorizes what its own segments come first in (`check_iff`), and what it has
below a query are its segments behind those of the query (`remainder?_eq_some_iff`).
-/

namespace PermissionClaims.Claim

variable {c q : Claim} {s : String}

theorem ofList_injective : Function.Injective String.ofList :=
  fun _ _ => String.ofList_injective

theorem map_ofList_inj {xs ys : List (List Char)} :
    xs.map String.ofList = ys.map String.ofList ↔ xs = ys :=
  List.map_inj_right ofList_injective

theorem segments_of_global (h : c.isGlobal = true) : c.segments = [] :=
  if_pos h

theorem segments_of_not_global (h : ¬ c.isGlobal = true) :
    c.segments = (c.subject.content.toList.splitOn '.').map String.ofList :=
  if_neg h

theorem segments_eq_nil_iff : c.segments = [] ↔ c.isGlobal = true := by
  constructor
  · intro h
    by_contra hg
    rw [segments_of_not_global hg, List.map_eq_nil_iff] at h
    exact List.splitOn_ne_nil _ _ h
  · exact segments_of_global

theorem not_isGlobal_of_mem_segments (h : s ∈ c.segments) : ¬ c.isGlobal = true := by
  intro hc
  rw [segments_of_global hc] at h
  exact List.not_mem_nil h

theorem segments_prefix_iff (hc : ¬ c.isGlobal = true) (hq : ¬ q.isGlobal = true) :
    c.segments <+: q.segments ↔
      c.subject.content.toList.splitOn '.' <+: q.subject.content.toList.splitOn '.' := by
  rw [segments_of_not_global hc, segments_of_not_global hq,
    List.prefix_map_iff_of_injective ofList_injective]

/-- No two subjects have the same segments. -/
theorem segments_inj : c.segments = q.segments ↔ c.subject.content = q.subject.content := by
  by_cases hc : c.isGlobal = true
  · rw [segments_of_global hc, eq_comm, segments_eq_nil_iff, isGlobal_iff, ← String.toList_inj,
      isGlobal_iff.1 hc, eq_comm]
  by_cases hq : q.isGlobal = true
  · rw [segments_of_global hq, segments_eq_nil_iff, isGlobal_iff, ← String.toList_inj,
      isGlobal_iff.1 hq]
  · rw [segments_of_not_global hc, segments_of_not_global hq,
      map_ofList_inj, splitOn_dot_inj, String.toList_inj]

theorem exact_iff :
    c.exact q = true ↔ c.verb.content = q.verb.content ∧ c.segments = q.segments := by
  rw [exact, Bool.and_eq_true, decide_eq_true_eq, decide_eq_true_eq, segments_inj]

theorem toList_mem_splitOn (h : s ∈ c.segments) :
    s.toList ∈ c.subject.content.toList.splitOn '.' := by
  rw [segments_of_not_global (not_isGlobal_of_mem_segments h)] at h
  obtain ⟨cs, hcs, rfl⟩ := List.mem_map.1 h
  rwa [String.toList_ofList]

theorem dot_notMem_of_mem_segments (h : s ∈ c.segments) : '.' ∉ s.toList :=
  dot_notMem_of_mem_splitOn (toList_mem_splitOn h)

/-- A segment is a single piece of its claim's subject. -/
theorem map_splitOn_of_mem_segments (h : s ∈ c.segments) :
    (s.toList.splitOn '.').map String.ofList = [s] := by
  rw [List.splitOn_eq_singleton (dot_notMem_of_mem_segments h), List.map_singleton,
    String.ofList_toList]

theorem isSome_below?_iff {path base : List Char} :
    (below? path base).isSome = true ↔ ∃ rest, path = base ++ '.' :: rest := by
  rw [below?, Option.isSome_iff_exists]
  simp only [List.isPrefixOf?_eq_some_iff_append_eq, List.append_assoc, List.singleton_append,
    eq_comm]

theorem check_iff :
    c.check q = true ↔ c.verb.content = q.verb.content ∧ c.segments <+: q.segments := by
  simp only [check, Bool.and_eq_true, Bool.or_eq_true, Bool.not_eq_true', decide_eq_true_eq]
  refine and_congr_right fun _ => ?_
  by_cases hc : c.isGlobal = true
  · simp [hc, segments_of_global hc]
  by_cases hq : q.isGlobal = true
  · rw [segments_of_global hq, List.prefix_nil, segments_eq_nil_iff]
    simp [hq]
  · rw [segments_prefix_iff hc hq, splitOn_dot_prefix_iff, isSome_below?_iff, ← String.toList_inj]
    simp [hc, hq, eq_comm]

/-- What a held claim has below a query is made of its segments behind those of the query. -/
theorem remainder?_eq_some_iff {rest : List Char} :
    remainder? c q = some rest ↔ c.verb.content = q.verb.content
      ∧ c.segments = q.segments ++ (rest.splitOn '.').map String.ofList := by
  have hne : (rest.splitOn '.').map String.ofList ≠ [] := by simp
  unfold remainder?
  split_ifs with h hq
  · simp only [false_iff, not_and]
    intro hv hs
    rw [segments_of_global (h.resolve_left fun hv' => hv' hv)] at hs
    exact hne (List.append_eq_nil_iff.1 hs.symm).2
  all_goals
    obtain ⟨hv, hc⟩ := not_or.1 h
    rw [not_not] at hv
    rw [segments_of_not_global hc]
    simp only [hv, true_and]
  · rw [segments_of_global hq, List.nil_append, map_ofList_inj, splitOn_dot_inj,
      Option.some.injEq]
  · rw [segments_of_not_global hq, ← List.map_append, map_ofList_inj,
      splitOn_dot_eq_append_iff, below?, List.isPrefixOf?_eq_some_iff_append_eq, List.append_assoc,
      List.singleton_append, eq_comm]

theorem directChild_eq_some_iff :
    c.directChild q = some s ↔
      c.verb.content = q.verb.content ∧ c.segments = q.segments ++ [s] := by
  unfold directChild
  constructor
  · intro h
    obtain ⟨rest, hr, hs⟩ := Option.bind_eq_some_iff.1 h
    split_ifs at hs with hd
    obtain rfl := Option.some.inj hs
    obtain ⟨hv, hseg⟩ := remainder?_eq_some_iff.1 hr
    rw [List.splitOn_eq_singleton hd] at hseg
    exact ⟨hv, hseg⟩
  · rintro ⟨hv, hseg⟩
    have hs : s ∈ c.segments := hseg ▸ List.mem_append_right _ (List.mem_singleton_self s)
    have hr : remainder? c q = some s.toList := by
      refine remainder?_eq_some_iff.2 ⟨hv, ?_⟩
      rw [hseg, map_splitOn_of_mem_segments hs]
    rw [hr, Option.bind_some, if_neg (dot_notMem_of_mem_segments hs), String.ofList_toList]

theorem directDescendant_eq_some_iff :
    c.directDescendant q = some s ↔
      c.verb.content = q.verb.content ∧ q.segments ++ [s] <+: c.segments := by
  unfold directDescendant
  constructor
  · intro h
    obtain ⟨rest, hr, rfl⟩ := Option.map_eq_some_iff.1 h
    obtain ⟨hv, hseg⟩ := remainder?_eq_some_iff.1 hr
    obtain ⟨first, more, hf⟩ := List.exists_cons_of_ne_nil (List.splitOn_ne_nil '.' rest)
    refine ⟨hv, more.map String.ofList, ?_⟩
    rw [hseg, hf, takeWhile_of_splitOn_dot hf]
    simp
  · rintro ⟨hv, more, hseg⟩
    -- the rest is what the further segments make up, and its first piece is the first of them
    have hd : ∀ x ∈ (s :: more).map String.toList, '.' ∉ x := by
      intro x hx
      obtain ⟨y, hy, rfl⟩ := List.mem_map.1 hx
      refine dot_notMem_of_mem_segments (c := c) ?_
      rw [← hseg, List.append_assoc]
      exact List.mem_append_right _ hy
    have hf := List.splitOn_intercalate '.' hd (by simp)
    have hr : remainder? c q = some (['.'].intercalate ((s :: more).map String.toList)) := by
      refine remainder?_eq_some_iff.2 ⟨hv, ?_⟩
      rw [← hseg, hf, List.map_map]
      simp [Function.comp_def]
    rw [hr, Option.map_some, takeWhile_of_splitOn_dot hf, String.ofList_toList]

/-! ## What lies a segment further down -/

theorem content_extend :
    (q.extend s).subject.content
      = if q.isGlobal = true then s else q.subject.content ++ "." ++ s := rfl

/-- A held claim exactly one level below a query is the query extended by its last segment. -/
theorem exact_extend_of_directChild (h : c.directChild q = some s) :
    (q.extend s).exact c = true := by
  obtain ⟨hv, hseg⟩ := directChild_eq_some_iff.1 h
  have hs : s ∈ c.segments := hseg ▸ List.mem_append_right _ (List.mem_singleton_self s)
  have hc := not_isGlobal_of_mem_segments hs
  rw [← map_splitOn_of_mem_segments hs, segments_of_not_global hc] at hseg
  rw [exact, Bool.and_eq_true, decide_eq_true_eq, decide_eq_true_eq, content_extend]
  refine ⟨hv.symm, ?_⟩
  split_ifs with hq
  · rw [segments_of_global hq, List.nil_append, map_ofList_inj, splitOn_dot_inj] at hseg
    exact (String.toList_inj.1 hseg).symm
  · rw [segments_of_not_global hq, ← List.map_append, map_ofList_inj,
      splitOn_dot_eq_append_iff] at hseg
    rw [← String.toList_inj, hseg]
    simp

theorem wellFormed_of_exact (h : c.exact q = true) (hq : q.WellFormed) : c.WellFormed := by
  rw [exact, Bool.and_eq_true, decide_eq_true_eq, decide_eq_true_eq] at h
  rwa [WellFormed, h.1, h.2]

theorem isSome_directDescendant_iff :
    (c.directDescendant q).isSome = true ↔ q.check c = true ∧ q.exact c = false := by
  rw [Option.isSome_iff_exists, check_iff, ← Bool.not_eq_true, exact_iff]
  simp only [directDescendant_eq_some_iff]
  constructor
  · rintro ⟨s, hv, hs⟩
    refine ⟨⟨hv.symm, (List.prefix_append _ _).trans hs⟩, fun he => ?_⟩
    have := hs.length_le
    rw [he.2, List.length_append, List.length_singleton] at this
    omega
  · rintro ⟨⟨hv, more, hmore⟩, hne⟩
    rcases more with _ | ⟨s, more⟩
    · rw [List.append_nil] at hmore
      exact absurd ⟨hv, hmore⟩ hne
    · exact ⟨s, hv.symm, more, by rw [← hmore, List.append_assoc, List.singleton_append]⟩

/-- A claim that is not below a query has neither a child nor a descendant there. -/
theorem below_eq_none (h : c.isGlobal = true ∨ c.exact q = true
    ∨ c.verb.content ≠ q.verb.content) : c.directChild q = none ∧ c.directDescendant q = none := by
  have hr : remainder? c q = none := by
    refine Option.eq_none_iff_forall_ne_some.2 fun rest hr => ?_
    obtain ⟨hv, hseg⟩ := remainder?_eq_some_iff.1 hr
    rcases h with hc | he | hv'
    · rw [segments_of_global hc] at hseg
      simp at hseg
    · rw [(exact_iff.1 he).2] at hseg
      simp at hseg
    · exact hv' hv
  rw [directChild, directDescendant, hr]
  exact ⟨rfl, rfl⟩

/-- The relations by segments, and how they hang together. -/
theorem relations_iff_segments (c q : Claim) :
    (c.check q = true ↔ c.verb.content = q.verb.content ∧ c.segments <+: q.segments)
      ∧ (∀ s : String, c.directChild q = some s ↔
        c.verb.content = q.verb.content ∧ c.segments = q.segments ++ [s])
      ∧ (∀ s : String, c.directDescendant q = some s ↔
        c.verb.content = q.verb.content ∧ q.segments ++ [s] <+: c.segments)
      ∧ (c.isGlobal = true ∨ c.exact q = true ∨ c.verb.content ≠ q.verb.content →
        c.directChild q = none ∧ c.directDescendant q = none)
      ∧ ((c.directDescendant q).isSome = true ↔ q.check c = true ∧ q.exact c = false)
      ∧ ∀ s : String, c.directChild q = some s → c.directDescendant q = some s
        ∧ (q.extend s).exact c = true ∧ (c.WellFormed → (q.extend s).WellFormed) := by
  refine ⟨check_iff, fun s => directChild_eq_some_iff, fun s => directDescendant_eq_some_iff,
    below_eq_none, isSome_directDescendant_iff, fun s h => ⟨?_, ?_⟩⟩
  · obtain ⟨hv, hseg⟩ := directChild_eq_some_iff.1 h
    exact directDescendant_eq_some_iff.2 ⟨hv, hseg ▸ List.prefix_rfl⟩
  · have he := exact_extend_of_directChild h
    exact ⟨he, wellFormed_of_exact he⟩

example : (⟨.plain "read", .plain "orgs"⟩ : Claim).check ⟨.plain "read", .plain "orgs-x"⟩ = false := by
  decide

end PermissionClaims.Claim
