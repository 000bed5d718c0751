import Mathlib.Data.List.Sort
import PermissionClaims.Proofs.AccessDecision
import PermissionClaims.Proofs.Notices

/-!
# Reading a collection as a whole

A reading goes up to the first value that is no claim text, takes it and fails on it as it does on
its own (`parseMany_of_first`). If there is none it takes every value, and what comes of it is
settled by the set of claims that the values are texts of: it is in increasing order
(`parseMany_of_all`), and two lists in increasing order are the same if they have the same members
(`eq_of_pairwise_lt`).
-/

namespace PermissionClaims.Claim

open Grammar Log

variable {d : Dialect} {v : Value} {vs vs' before after : List Value} {c : Claim}

theorem readAll_of_first {fault : ClaimFault} (hv : (parse d v).value = .error fault)
    (after : List Value) : ∀ {before : List Value}, (∀ u ∈ before, ∃ c, (parse d u).value = .ok c) →
      readAll d (before ++ v :: after) = ⟨[.rejected v], ⟨.error fault, before.length + 1⟩⟩
  | [], _ => readAll_cons_error hv after
  | u :: before, h => by
    obtain ⟨⟨c, hc⟩, hb⟩ := List.forall_mem_cons.1 h
    rw [List.cons_append, readAll_cons_ok hc, readAll_of_first hv after hb]
    rfl

theorem readAll_of_all : ∀ {vs : List Value}, (∀ v ∈ vs, ∃ c, (parse d v).value = .ok c) →
    ∃ cs, readAll d vs = ⟨[], ⟨.ok cs, vs.length⟩⟩
      ∧ ∀ c, c ∈ cs ↔ ∃ v ∈ vs, (parse d v).value = .ok c
  | [], _ => ⟨[], rfl, by simp⟩
  | v :: vs, h => by
    obtain ⟨⟨c, hc⟩, hvs⟩ := List.forall_mem_cons.1 h
    obtain ⟨cs, hcs, hmem⟩ := readAll_of_all hvs
    refine ⟨c :: cs, ?_, fun c' => ?_⟩
    · rw [readAll_cons_ok hc, hcs]
      rfl
    · rw [List.mem_cons, hmem, List.exists_mem_cons_iff, hc, Except.ok.injEq, eq_comm]

/-- A reading fails on the first value that is no claim text. -/
theorem parseMany_of_first {fault : ClaimFault} (hv : (parse d v).value = .error fault)
    (hb : ∀ u ∈ before, ∃ c, (parse d u).value = .ok c) (after : List Value) :
    parseMany d (before ++ v :: after)
      = ⟨[.rejected v], ⟨.error fault, before.length + 1⟩⟩ := by
  rw [parseMany, readAll_of_first hv after hb]
  rfl

theorem parseMany_of_all (h : ∀ v ∈ vs, ∃ c, (parse d v).value = .ok c) :
    ∃ cs, parseMany d vs = ⟨[], ⟨.ok cs, vs.length⟩⟩
      ∧ cs.Pairwise (fun a b => a.lt b = true)
      ∧ ∀ c, c ∈ cs ↔ ∃ v ∈ vs, (parse d v).value = .ok c := by
  obtain ⟨cs, hcs, hmem⟩ := readAll_of_all h
  refine ⟨distinctSorted cs, ?_, pairwise_distinctSorted, fun c => ?_⟩
  · rw [parseMany, hcs]
    rfl
  · rw [mem_distinctSorted_iff, hmem]
    intro a ha b hb he
    obtain ⟨v, -, hv⟩ := (hmem a).1 ha
    obtain ⟨u, -, hu⟩ := (hmem b).1 hb
    exact Access.eq_of_exact hv hu he

/-- Increasing lists with the same members are the same. -/
theorem eq_of_pairwise_lt {cs ds : List Claim} (hc : cs.Pairwise fun a b => a.lt b = true)
    (hd : ds.Pairwise fun a b => a.lt b = true) (h : ∀ c, c ∈ cs ↔ c ∈ ds) : cs = ds := by
  have : Std.Irrefl fun a b : Claim => a.lt b = true := ⟨fun a ha => lt_irrefl _ (lt_iff.1 ha)⟩
  have : Std.Antisymm fun a b : Claim => a.lt b = true :=
    ⟨fun a b hab hba => absurd (lt_iff.1 hba) (lt_asymm (lt_iff.1 hab))⟩
  exact hc.eq_of_mem_iff hd h

theorem exists_first_error (h : ¬ ∀ v ∈ vs, ∃ c, (parse d v).value = .ok c) :
    ∃ before v after fault, vs = before ++ v :: after
      ∧ (∀ u ∈ before, ∃ c, (parse d u).value = .ok c) ∧ (parse d v).value = .error fault := by
  induction vs with
  | nil => exact absurd (by simp) h
  | cons v vs ih =>
    rcases hv : (parse d v).value with fault | c
    · exact ⟨[], v, vs, fault, rfl, by simp, hv⟩
    · obtain ⟨before, u, after, fault, rfl, hb, hu⟩ := ih fun hvs =>
        h (List.forall_mem_cons.2 ⟨⟨c, hv⟩, hvs⟩)
      exact ⟨v :: before, u, after, fault, rfl, List.forall_mem_cons.2 ⟨⟨c, hv⟩, hb⟩, hu⟩

theorem parseElements_eq {texts : Value} (h : texts.elements = .ok vs) :
    parseElements d texts = Except.ok <$> parseMany d vs := by
  rw [parseElements, h]
  rfl

/-- The claims of some values are read again from their own texts. -/
theorem parse_map_toText {cs : List Claim}
    (hmem : ∀ c, c ∈ cs ↔ ∃ v ∈ vs, (parse d v).value = .ok c) (d' : Dialect) :
    (∀ t ∈ cs.map fun c => Value.plain c.toText, ∃ c, (parse d' t).value = .ok c)
      ∧ ∀ c, (∃ t ∈ cs.map fun c => Value.plain c.toText, (parse d' t).value = .ok c) ↔ c ∈ cs := by
  have hself : ∀ c ∈ cs, (parse d' (.plain c.toText)).value = .ok c := by
    intro c hc
    obtain ⟨v, -, hv⟩ := (hmem c).1 hc
    exact parse_toText_of_parse hv d'
  refine ⟨fun t ht => ?_, fun c => ⟨?_, fun hc => ?_⟩⟩
  · obtain ⟨c, hc, rfl⟩ := List.mem_map.1 ht
    exact ⟨c, hself c hc⟩
  · rintro ⟨t, ht, h⟩
    obtain ⟨c', hc', rfl⟩ := List.mem_map.1 ht
    rw [hself c' hc', Except.ok.injEq] at h
    exact h ▸ hc'
  · exact ⟨_, List.mem_map_of_mem hc, hself c hc⟩

theorem parseMany_map_toText {cs : List Claim} (hcs : cs.Pairwise fun a b => a.lt b = true)
    (hmem : ∀ c, c ∈ cs ↔ ∃ v ∈ vs, (parse d v).value = .ok c) (d' : Dialect) :
    parseMany d' (cs.map fun c => .plain c.toText) = ⟨[], ⟨.ok cs, cs.length⟩⟩ := by
  obtain ⟨hall, hsame⟩ := parse_map_toText hmem d'
  obtain ⟨ds, hds, hlt, hmem'⟩ := parseMany_of_all hall
  have he : ds = cs := eq_of_pairwise_lt hlt hcs fun c => (hmem' c).trans (hsame c)
  rw [hds, he, List.length_map]

/-- Readings of the same claims come to the same. -/
theorem parseMany_congr (h : ∀ v ∈ vs, ∃ c, (parse d v).value = .ok c)
    (h' : ∀ v ∈ vs', ∃ c, (parse d v).value = .ok c)
    (hs : ∀ c, (∃ v ∈ vs, (parse d v).value = .ok c) ↔ ∃ v ∈ vs', (parse d v).value = .ok c) :
    ∃ cs, parseMany d vs = ⟨[], ⟨.ok cs, vs.length⟩⟩
      ∧ parseMany d vs' = ⟨[], ⟨.ok cs, vs'.length⟩⟩ := by
  obtain ⟨cs, hcs, hlt, hmem⟩ := parseMany_of_all h
  obtain ⟨cs', hcs', hlt', hmem'⟩ := parseMany_of_all h'
  have he : cs' = cs := eq_of_pairwise_lt hlt' hlt fun c =>
    (hmem' c).trans ((hs c).symm.trans (hmem c).symm)
  exact ⟨cs, hcs, he ▸ hcs'⟩

/-- A collection is read up to the first value that is no claim text, which it fails on and which
alone is reported. Without one all of it is read in silence, and its claims are had in increasing
order: the same for all texts of the same claims, and for the claims' own texts. -/
theorem parseElements_first_or_all :
    (∀ (d : Dialect) (texts : Value) (vs : List Value), texts.elements = .ok vs →
      ((¬ ∀ v ∈ vs, ∃ c, (parse d v).value = .ok c) →
        ∃ (before : List Value) (v : Value) (after : List Value) (fault : ClaimFault),
          vs = before ++ v :: after ∧ (∀ u ∈ before, ∃ c, (parse d u).value = .ok c)
            ∧ (parse d v).value = .error fault
            ∧ (parseElements d texts).value = .ok ⟨.error fault, before.length + 1⟩
            ∧ (parseElements d texts).notices = [.rejected v])
      ∧ ((∀ v ∈ vs, ∃ c, (parse d v).value = .ok c) →
        ∃ cs : List Claim, (parseElements d texts).value = .ok ⟨.ok cs, vs.length⟩
          ∧ (parseElements d texts).notices = []
          ∧ (cs.Pairwise fun a b => a.verb.content < b.verb.content
            ∨ a.verb.content = b.verb.content ∧ a.subject.content < b.subject.content)
          ∧ (∀ c, c ∈ cs ↔ ∃ v ∈ vs, (parse d v).value = .ok c)
          ∧ ∀ d' : Dialect,
            (parseElements d' (.tuple (cs.map fun c => .plain c.toText))).value
              = .ok ⟨.ok cs, cs.length⟩))
    ∧ ∀ (d : Dialect) (texts texts' : Value) (vs vs' : List Value),
      texts.elements = .ok vs → texts'.elements = .ok vs' →
      (∀ v ∈ vs, ∃ c, (parse d v).value = .ok c) →
      (∀ v ∈ vs', ∃ c, (parse d v).value = .ok c) →
      (∀ c, (∃ v ∈ vs, (parse d v).value = .ok c) ↔ ∃ v ∈ vs', (parse d v).value = .ok c) →
        ∃ cs : List Claim, (parseElements d texts).value = .ok ⟨.ok cs, vs.length⟩
          ∧ (parseElements d texts').value = .ok ⟨.ok cs, vs'.length⟩ := by
  refine ⟨fun d texts vs hvs => ⟨fun h => ?_, fun h => ?_⟩,
    fun d texts texts' vs vs' hvs hvs' h h' hs => ?_⟩
  · obtain ⟨before, v, after, fault, rfl, hb, hv⟩ := exists_first_error h
    refine ⟨before, v, after, fault, rfl, hb, hv, ?_⟩
    rw [parseElements_eq hvs, parseMany_of_first hv hb]
    exact ⟨rfl, rfl⟩
  · obtain ⟨cs, hcs, hlt, hmem⟩ := parseMany_of_all h
    have hread : parseElements d texts = ⟨[], .ok ⟨.ok cs, vs.length⟩⟩ := by
      rw [parseElements_eq hvs, hcs]
      rfl
    refine ⟨cs, by rw [hread], by rw [hread], hlt.imp fun hab => ?_, hmem, fun d' => ?_⟩
    · simpa [lt] using hab
    · rw [parseElements_eq rfl, parseMany_map_toText hlt hmem]
      rfl
  · obtain ⟨cs, hcs, hcs'⟩ := parseMany_congr h h' hs
    refine ⟨cs, ?_, ?_⟩
    · rw [parseElements_eq hvs, hcs]
      rfl
    · rw [parseElements_eq hvs', hcs']
      rfl

theorem parseElements_first_or_all_read :
    let bad : List Value := [.plain "read:b", .plain "x", .int (.ofByte 3)]
    (¬ ∀ v ∈ bad, ∃ c, (parse .strict v).value = .ok c)
      ∧ (∃ fault, (parseElements .strict (.list bad)).value = .ok ⟨.error fault, 2⟩)
      ∧ (∀ v ∈ [.plain "read:b.*", .plain "read:*", .plain "read:b"],
        ∃ c, (parse .strict v).value = .ok c)
      ∧ (∀ v ∈ [.plain "read:*", .plain "read:b"], ∃ c, (parse .strict v).value = .ok c)
      ∧ ∃ cs, (parseElements .strict
            (.tuple [.plain "read:b.*", .plain "read:*", .plain "read:b"])).value
          = .ok ⟨.ok cs, 3⟩
        ∧ (parseElements .strict (.list [.plain "read:*", .plain "read:b"])).value
          = .ok ⟨.ok cs, 2⟩ := by
  intro bad
  have hb : (parse .strict (.plain "read:b")).value = .ok ⟨.plain "read", .plain "b"⟩ := by rfl
  have hs : (parse .strict (.plain "read:b.*")).value = .ok ⟨.plain "read", .plain "b"⟩ := by rfl
  have hg : (parse .strict (.plain "read:*")).value = .ok ⟨.plain "read", .plain ""⟩ := by rfl
  have hx : (parse .strict (.plain "x")).value = .error (.notClaimText (.plain "x")) := by rfl
  have hbad : ¬ ∀ v ∈ bad, ∃ c, (parse .strict v).value = .ok c := by simp [bad, hx]
  have hall : ∀ v ∈ [.plain "read:b.*", .plain "read:*", .plain "read:b"],
      ∃ c, (parse .strict v).value = .ok c := by simp [hb, hs, hg]
  have hall' : ∀ v ∈ [.plain "read:*", .plain "read:b"],
      ∃ c, (parse .strict v).value = .ok c := by simp [hb, hg]
  refine ⟨hbad, ?_, hall, hall', ?_⟩
  · obtain ⟨before, v, after, fault, he, hbefore, hv, hread, -⟩ :=
      (parseElements_first_or_all.1 .strict (.list bad) _ rfl).1 hbad
    rcases before with _ | ⟨u, _ | ⟨w, before⟩⟩
    · obtain ⟨rfl, -⟩ := List.cons.inj he
      rw [hb] at hv
      simp at hv
    · exact ⟨fault, hread⟩
    · obtain ⟨-, he⟩ := List.cons.inj he
      obtain ⟨rfl, -⟩ := List.cons.inj he
      rw [List.forall_mem_cons, List.forall_mem_cons, hx] at hbefore
      simp at hbefore
  · refine parseElements_first_or_all.2 .strict _ _ _ _ rfl rfl hall hall' fun c => ?_
    simp only [List.mem_cons, List.not_mem_nil, or_false, exists_eq_or_imp, exists_eq_left, hb, hs,
      hg]
    exact ⟨fun h => h.elim .inr id, .inr⟩

end PermissionClaims.Claim
