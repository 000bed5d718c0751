import PermissionClaims.Proofs.AccessDecision
import PermissionClaims.Proofs.AuthorityOrder
import PermissionClaims.Proofs.SubjectPath

/-!
# Discovery

What is seen one level below a query that is not granted itself is what is granted there: an
authority of the child that is none of the query is the child (`visibleChildren_agrees`).

A query can be extended by a segment that is seen below it unless the segment ends in a hyphen, as
no subject does. So extending queries, from the one on everything on, finds the claims without such
a segment, each after as many extensions as it has segments (`exists_walk_iff`).
-/

namespace PermissionClaims

open Grammar Claim

variable {d : Dialect}

namespace Access

variable {permissions query : Value} {ps : List Value} {q : Claim} {s : String}

theorem value_visibleChildren (hps : permissions.elements = .ok ps)
    (hq : (parse d query).value = .ok q) :
    (visibleChildren d permissions query).value = .ok (children (held d ps) q) :=
  value_respond_of_ok hq hps

theorem value_visibleDescendants (hps : permissions.elements = .ok ps)
    (hq : (parse d query).value = .ok q) :
    (visibleDescendants d permissions query).value = .ok (descendants (held d ps) q) :=
  value_respond_of_ok hq hps

theorem wellFormed_of_mem_held {c : Claim} (hc : c ∈ held d ps) : c.WellFormed := by
  obtain ⟨p, -, hp⟩ := mem_held_iff.1 hc
  exact wellFormed_of_parse hp

theorem hasAccess_textBelow_iff (hps : permissions.elements = .ok ps) (hs : Name s.toList)
    (hw : (q.extend s).WellFormed) :
    (hasAccess d permissions (.plain (q.textBelow s))).value = .ok true ↔
      ∃ c ∈ held d ps, c.verb.content = q.verb.content ∧ c.segments <+: q.segments ++ [s] := by
  obtain ⟨q', hq', he⟩ := parse_textBelow (d := d) hs hw
  obtain ⟨hv, hseg⟩ := exact_iff.1 he
  have hv' : q'.verb.content = q.verb.content := hv
  rw [hasAccess_iff_checkAny hps hq', checkAny_iff]
  simp only [check_iff, hv', hseg, segments_extend hs]

/-- What is seen one level below a query is granted, and if the query is not granted itself, all
that is granted there is seen. -/
theorem visibleChildren_agrees (d : Dialect) {permissions : Value} {ps : List Value}
    (hps : permissions.elements = .ok ps) {query : Value} {q : Claim}
    (hq : (parse d query).value = .ok q) :
    ∃ visible : List String, (visibleChildren d permissions query).value = .ok visible
      ∧ (∀ s ∈ visible, Name s.toList ∧ isSubject (q.extend s).subject.content.toList = true
        ∧ (hasAccess d permissions (.plain (q.textBelow s))).value = .ok true)
      ∧ ((hasAccess d permissions query).value = .ok false → ∀ s : String, Name s.toList →
        isSubject (q.extend s).subject.content.toList = true →
          (hasAccess d permissions (.plain (q.textBelow s))).value = .ok true → s ∈ visible) := by
  refine ⟨_, value_visibleChildren hps hq, fun s hs => ?_, fun hn s hs hsub h => ?_⟩
  · obtain ⟨c, hc, hcq⟩ := mem_children_iff.1 hs
    have hwc := wellFormed_of_mem_held hc
    have hname := name_of_directChild hwc hcq
    have hw : (q.extend s).WellFormed := wellFormed_of_exact (exact_extend_of_directChild hcq) hwc
    obtain ⟨hv, hseg⟩ := directChild_eq_some_iff.1 hcq
    refine ⟨hname, hw.2, (hasAccess_textBelow_iff hps hname hw).2 ⟨c, hc, hv, ?_⟩⟩
    exact hseg ▸ List.prefix_rfl
  · have hw : (q.extend s).WellFormed := ⟨(wellFormed_of_parse hq).1, hsub⟩
    obtain ⟨c, hc, hv, hpre⟩ := (hasAccess_textBelow_iff hps hs hw).1 h
    rcases List.prefix_concat_iff.1 hpre with hseg | hseg
    · exact mem_children_iff.2 ⟨c, hc, directChild_eq_some_iff.2 ⟨hv, hseg⟩⟩
    · have hg := (hasAccess_iff_checkAny hps hq).2 (checkAny_iff.2 ⟨c, hc, check_iff.2 ⟨hv, hseg⟩⟩)
      rw [hn] at hg
      simp at hg

theorem visibleChildren_agrees_orgs :
    (Value.tuple [.plain "read:orgs.42", .plain "read:orgs.7.billing"]).elements
        = .ok [.plain "read:orgs.42", .plain "read:orgs.7.billing"]
      ∧ (parse .strict (.plain "read:orgs")).value = .ok ⟨.plain "read", .plain "orgs"⟩
      ∧ (hasAccess .strict (.tuple [.plain "read:orgs.42", .plain "read:orgs.7.billing"])
        (.plain (textBelow ⟨.plain "read", .plain "orgs"⟩ "42"))).value = .ok true := by
  have hps : (Value.tuple [.plain "read:orgs.42", .plain "read:orgs.7.billing"]).elements
      = .ok [.plain "read:orgs.42", .plain "read:orgs.7.billing"] := rfl
  have hq : (parse .strict (.plain "read:orgs")).value = .ok ⟨.plain "read", .plain "orgs"⟩ := by
    rfl
  have hv : (visibleChildren .strict
      (.tuple [.plain "read:orgs.42", .plain "read:orgs.7.billing"]) (.plain "read:orgs")).value
      = .ok ["42"] := by rfl
  obtain ⟨visible, h, hgranted, -⟩ := visibleChildren_agrees .strict hps hq
  rw [hv, Except.ok.injEq] at h
  subst h
  exact ⟨hps, hq, (hgranted "42" (List.mem_singleton_self _)).2.2⟩

end Access

namespace Claim

variable {cs : List Claim} {c g q q' : Claim} {s : String} {n : Nat}

/-- A query can be extended by a segment below it unless that ends in a hyphen. -/
theorem isValid_textBelow_of_mem (hcs : ∀ c ∈ cs, c.WellFormed) (hs : s ∈ descendants cs q) :
    isValid d (.plain (q.textBelow s)) = true ↔ s.toList.getLast? ≠ some '-' := by
  obtain ⟨c, hc, hcq⟩ := mem_descendants_iff.1 hs
  have hv : Name q.verb.content.toList := by
    rw [← (directDescendant_eq_some_iff.1 hcq).1]
    exact isVerb_iff.1 (hcs c hc).1
  rw [isValid_textBelow_iff hv (name_of_directDescendant (hcs c hc) hcq),
    wellFormed_extend_iff (hcs c hc) hcq]

theorem exact_of_parse_textBelow (hcs : ∀ c ∈ cs, c.WellFormed) (hs : s ∈ descendants cs q)
    (hq' : (parse d (.plain (q.textBelow s))).value = .ok q') : q'.exact (q.extend s) = true := by
  obtain ⟨c, hc, hcq⟩ := mem_descendants_iff.1 hs
  have hl := (isValid_textBelow_of_mem hcs hs).1 (isValid_iff_exists_parse.2 ⟨q', hq'⟩)
  obtain ⟨q'', hq'', he⟩ := parse_textBelow (d := d) (name_of_directDescendant (hcs c hc) hcq)
    ((wellFormed_extend_iff (hcs c hc) hcq).2 hl)
  rw [hq', Except.ok.injEq] at hq''
  exact hq'' ▸ he

/-- The queries that are reached from a first one, each by extending the one before with a segment
seen below it, and the number of extensions. The extended query is read from its text. -/
inductive Walk (d : Dialect) (cs : List Claim) (start : Claim) : Nat → Claim → Prop
  | here : Walk d cs start 0 start
  | further {n : Nat} {q q' : Claim} {s : String} (walk : Walk d cs start n q)
    (seen : s ∈ descendants cs q) (read : (parse d (.plain (q.textBelow s))).value = .ok q') :
    Walk d cs start (n + 1) q'

/-- An extension by a segment that is seen adds it, and it does not end in a hyphen. -/
theorem segments_of_parse_textBelow (hcs : ∀ c ∈ cs, c.WellFormed) (hs : s ∈ descendants cs q)
    (hq' : (parse d (.plain (q.textBelow s))).value = .ok q') :
    q'.verb.content = q.verb.content ∧ q'.segments = q.segments ++ [s]
      ∧ s.toList.getLast? ≠ some '-' := by
  obtain ⟨c, hc, hcq⟩ := mem_descendants_iff.1 hs
  obtain ⟨hv, hseg⟩ := exact_iff.1 (exact_of_parse_textBelow hcs hs hq')
  refine ⟨hv, ?_, (isValid_textBelow_of_mem hcs hs).1 (isValid_iff_exists_parse.2 ⟨q', hq'⟩)⟩
  rw [hseg, segments_extend (name_of_directDescendant (hcs c hc) hcq)]

/-- On a walk from the query on everything, the segments are those it was extended by. -/
theorem Walk.segments (hcs : ∀ c ∈ cs, c.WellFormed) (hg : g.isGlobal = true)
    (h : Walk d cs g n q) :
    q.verb.content = g.verb.content ∧ q.segments.length = n
      ∧ ∀ s ∈ q.segments, s.toList.getLast? ≠ some '-' := by
  induction h with
  | here => simp [segments_of_global hg]
  | further _ seen read ih =>
    obtain ⟨hv, hlen, hlast⟩ := ih
    obtain ⟨hv', hseg, hs⟩ := segments_of_parse_textBelow hcs seen read
    rw [hseg]
    refine ⟨hv'.trans hv, by simp [hlen], fun t ht => ?_⟩
    rcases List.mem_append.1 ht with ht | ht
    · exact hlast t ht
    · exact List.mem_singleton.1 ht ▸ hs

/-- A claim without a segment that ends in a hyphen is walked to segment by segment. -/
theorem exists_walk_take (hcs : ∀ c ∈ cs, c.WellFormed) (hg : g.isGlobal = true) (hc : c ∈ cs)
    (hv : c.verb.content = g.verb.content)
    (hlast : ∀ s ∈ c.segments, s.toList.getLast? ≠ some '-') :
    ∀ n ≤ c.segments.length, ∃ q, Walk d cs g n q ∧ q.segments = c.segments.take n
  | 0, _ => ⟨g, .here, by rw [segments_of_global hg, List.take_zero]⟩
  | n + 1, hn => by
    obtain ⟨q, hq, hseg⟩ := exists_walk_take hcs hg hc hv hlast n (by omega)
    have htake := List.take_succ_eq_append_getElem (l := c.segments) (i := n) (by omega)
    have hseen : c.segments[n] ∈ descendants cs q := by
      refine mem_descendants_iff.2 ⟨c, hc, directDescendant_eq_some_iff.2 ⟨?_, ?_⟩⟩
      · exact hv.trans (hq.segments hcs hg).1.symm
      · rw [hseg, ← htake]
        exact List.take_prefix _ _
    obtain ⟨q', hq'⟩ := isValid_iff_exists_parse.1
      ((isValid_textBelow_of_mem (d := d) hcs hseen).2 (hlast _ (List.getElem_mem _)))
    refine ⟨q', .further hq hseen hq', ?_⟩
    rw [(segments_of_parse_textBelow hcs hseen hq').2.1, hseg, htake]

theorem exists_walk_iff (hcs : ∀ c ∈ cs, c.WellFormed) (hg : g.isGlobal = true) (hc : c ∈ cs)
    (hv : c.verb.content = g.verb.content) :
    (∃ q, Walk d cs g n q ∧ q.exact c = true) ↔
      n = c.segments.length ∧ ∀ s ∈ c.segments, s.toList.getLast? ≠ some '-' := by
  constructor
  · rintro ⟨q, hq, he⟩
    obtain ⟨-, hlen, hlast⟩ := hq.segments hcs hg
    rw [(exact_iff.1 he).2] at hlen hlast
    exact ⟨hlen.symm, hlast⟩
  · rintro ⟨rfl, hlast⟩
    obtain ⟨q, hq, hseg⟩ := exists_walk_take (d := d) hcs hg hc hv hlast _ le_rfl
    rw [List.take_length] at hseg
    exact ⟨q, hq, exact_iff.2 ⟨(hq.segments hcs hg).1.trans hv.symm, hseg⟩⟩

/-- A segment within a subject may end in a hyphen. Cut behind it the subject is none, so the query
cannot be extended by that segment, and what lies below is not found. -/
theorem not_isValid_textBelow_hyphen :
    (⟨.plain "read", .plain "a.-.b"⟩ : Claim).WellFormed
      ∧ (⟨.plain "read", .plain "a"⟩ : Claim).WellFormed
      ∧ descendants [⟨.plain "read", .plain "a.-.b"⟩] ⟨.plain "read", .plain "a"⟩ = ["-"]
      ∧ isValid .strict (.plain (textBelow ⟨.plain "read", .plain "a"⟩ "-")) = false
      ∧ isValid .trailingDot (.plain (textBelow ⟨.plain "read", .plain "a"⟩ "-")) = false
      ∧ ¬ ∃ n q, Walk .strict [⟨.plain "read", .plain "a.-.b"⟩] ⟨.plain "read", .plain ""⟩ n q
        ∧ q.exact ⟨.plain "read", .plain "a.-.b"⟩ = true := by
  have hw : (⟨.plain "read", .plain "a.-.b"⟩ : Claim).WellFormed := by decide
  have hg : (⟨.plain "read", .plain ""⟩ : Claim).isGlobal = true := by decide
  refine ⟨hw, by decide, by decide, by decide, by decide, ?_⟩
  rintro ⟨n, q, h⟩
  have hfound := exists_walk_iff (d := .strict) (n := n) (List.forall_mem_singleton.2 hw) hg
    (List.mem_singleton_self _) rfl
  exact absurd (hfound.1 ⟨q, h⟩).2 (by decide)

/-- A segment that is seen below a query extends it to claim text unless it ends in a hyphen, also
where the claims are those that permissions hold. From the query on everything on, extending reaches
the claims of a verb without such a segment, each after as many extensions as it has segments. -/
theorem descendants_extend_query :
    (∀ cs : List Claim, (∀ c ∈ cs, c.WellFormed) →
      (∀ (q : Claim) (s : String), s ∈ descendants cs q → ∀ d : Dialect,
        (isValid d (.plain (q.textBelow s)) = true ↔ s.toList.getLast? ≠ some '-')
          ∧ ∀ q' : Claim, (parse d (.plain (q.textBelow s))).value = .ok q' →
            q'.exact (q.extend s) = true)
      ∧ ∀ (verb : Value) (g : Claim), globalFor verb = .ok g →
        ∀ c ∈ cs, c.verb.content = g.verb.content → ∀ (d : Dialect) (n : Nat),
          (∃ q, Walk d cs g n q ∧ q.exact c = true) ↔
            n = c.segments.length ∧ ∀ s ∈ c.segments, s.toList.getLast? ≠ some '-')
    ∧ ∀ (d : Dialect) (permissions : Value) (ps : List Value), permissions.elements = .ok ps →
      ∃ held : List Claim, (Access.heldClaims d permissions).value = .ok held
        ∧ (∀ c ∈ held, c.WellFormed)
        ∧ ∀ (query : Value) (q : Claim), (parse d query).value = .ok q →
          (Access.visibleDescendants d permissions query).value = .ok (descendants held q)
            ∧ ∀ s ∈ descendants held q,
              isValid d (.plain (q.textBelow s)) = true ↔ s.toList.getLast? ≠ some '-' := by
  refine ⟨fun cs hcs => ⟨fun q s hs d => ⟨isValid_textBelow_of_mem hcs hs, fun q' hq' => ?_⟩,
    fun verb g hg c hc hv d n => ?_⟩, fun d permissions ps hps => ?_⟩
  · exact exact_of_parse_textBelow hcs hs hq'
  · exact exists_walk_iff hcs (isGlobal_of_globalFor hg).2 hc hv
  · have hw : ∀ c ∈ Access.held d ps, c.WellFormed := fun c => Access.wellFormed_of_mem_held
    refine ⟨Access.held d ps, Access.value_heldClaims hps, hw,
      fun query q hq => ⟨?_, fun s hs => ?_⟩⟩
    · exact Access.value_visibleDescendants hps hq
    · exact isValid_textBelow_of_mem hw hs

theorem descendants_extend_query_orgs :
    (∀ c ∈ [(⟨.plain "read", .plain "orgs.4-2.billing"⟩ : Claim)], c.WellFormed)
      ∧ globalFor (.plain "read") = .ok ⟨.plain "read", .plain ""⟩
      ∧ ∃ q, Walk .strict [⟨.plain "read", .plain "orgs.4-2.billing"⟩] ⟨.plain "read", .plain ""⟩ 3 q
        ∧ q.exact ⟨.plain "read", .plain "orgs.4-2.billing"⟩ = true := by
  have hcs : ∀ c ∈ [(⟨.plain "read", .plain "orgs.4-2.billing"⟩ : Claim)], c.WellFormed := by
    decide
  have hg : globalFor (.plain "read") = .ok ⟨.plain "read", .plain ""⟩ := by rfl
  refine ⟨hcs, hg, ?_⟩
  have hwalk := (descendants_extend_query.1 _ hcs).2 _ _ hg _ (List.mem_singleton_self _) rfl
  exact (hwalk .strict 3).2 (by decide)

end Claim

end PermissionClaims
