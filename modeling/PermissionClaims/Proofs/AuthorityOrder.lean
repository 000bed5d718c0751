import Mathlib.Data.List.Lex
import PermissionClaims.Proofs.Collection

/-!
# Authority as an order

Authority is a tree order on claims, where claims with the same characters count as one: what
authorizes a claim forms a chain, with the claim on everything at its top. The order of claims by
verb and subject extends it (`le_of_check`), since the subject of an authority comes first in the
subjects below it. So in a list in order a claim stands behind every other one that authorizes it
(`lt_of_check`).
-/

namespace PermissionClaims.Claim

variable {a b c g q : Claim}

theorem check_refl (c : Claim) : c.check c = true :=
  check_iff.2 ⟨rfl, List.prefix_rfl⟩

theorem check_trans (hab : a.check b = true) (hbc : b.check c = true) : a.check c = true := by
  obtain ⟨hv, hs⟩ := check_iff.1 hab
  obtain ⟨hv', hs'⟩ := check_iff.1 hbc
  exact check_iff.2 ⟨hv.trans hv', hs.trans hs'⟩

theorem exact_of_check_of_check (hab : a.check b = true) (hba : b.check a = true) :
    a.exact b = true := by
  obtain ⟨hv, hs⟩ := check_iff.1 hab
  obtain ⟨-, hs'⟩ := check_iff.1 hba
  exact exact_iff.2 ⟨hv, hs.eq_of_length_le hs'.length_le⟩

theorem check_or_check (ha : a.check q = true) (hb : b.check q = true) :
    a.check b = true ∨ b.check a = true := by
  obtain ⟨hva, hsa⟩ := check_iff.1 ha
  obtain ⟨hvb, hsb⟩ := check_iff.1 hb
  rcases List.prefix_or_prefix_of_prefix hsa hsb with h | h
  · exact Or.inl (check_iff.2 ⟨hva.trans hvb.symm, h⟩)
  · exact Or.inr (check_iff.2 ⟨hvb.trans hva.symm, h⟩)

theorem check_iff_of_global (hg : g.isGlobal = true) :
    g.check c = true ↔ g.verb.content = c.verb.content := by
  rw [check_iff, segments_of_global hg]
  exact and_iff_left (List.nil_prefix)

theorem check_global_iff (hg : g.isGlobal = true) : c.check g = true ↔ c.exact g = true := by
  rw [check_iff, exact_iff, segments_of_global hg, List.prefix_nil]

theorem isGlobal_of_globalFor {verb : Value} (h : globalFor verb = .ok g) :
    verb = .text g.verb ∧ g.isGlobal = true := by
  obtain ⟨hv, hs, -⟩ := create_eq_ok_iff.1 h
  refine ⟨hv, ?_⟩
  rw [isGlobal, ← Value.text.inj hs]
  rfl

theorem toList_prefix_of_check (h : c.check q = true) :
    c.subject.content.toList <+: q.subject.content.toList := by
  obtain ⟨-, hs⟩ := check_iff.1 h
  by_cases hc : c.isGlobal = true
  · rw [isGlobal_iff.1 hc]
    exact List.nil_prefix
  · have hq : ¬ q.isGlobal = true := fun hq => by
      rw [segments_of_global hq, List.prefix_nil] at hs
      exact hc (segments_eq_nil_iff.1 hs)
    rw [segments_prefix_iff hc hq] at hs
    rcases splitOn_dot_prefix_iff.1 hs with h | ⟨rest, h⟩
    · exact h ▸ List.prefix_rfl
    · exact h ▸ List.prefix_append _ _

/-- An authority comes no later in the order than what it authorizes. -/
theorem le_of_check (h : c.check q = true) : c.le q = true := by
  rw [le_iff, key, key, Prod.Lex.toLex_le_toLex]
  refine Or.inr ⟨(check_iff.1 h).1, ?_⟩
  rw [← not_lt, String.lt_iff_toList_lt]
  exact (toList_prefix_of_check h).le

/-- In a list in order, a claim stands behind every other one that authorizes it. -/
theorem lt_of_check {l : List Claim} (hl : l.Pairwise fun a b => a.le b = true) {i j : Nat}
    (hi : l[i]? = some a) (hj : l[j]? = some b) (h : a.check b = true) (hne : a.exact b = false) :
    i < j := by
  by_contra hij
  refine Bool.eq_false_iff.1 hne ?_
  obtain ⟨hil, rfl⟩ := List.getElem?_eq_some_iff.1 hi
  obtain ⟨hjl, rfl⟩ := List.getElem?_eq_some_iff.1 hj
  rcases Nat.lt_or_eq_of_le (Nat.le_of_not_lt hij) with hji | rfl
  · have hle := List.pairwise_iff_getElem.1 hl j i hjl hil hji
    exact key_eq_iff.1 ((le_iff.1 (le_of_check h)).antisymm (le_iff.1 hle))
  · exact key_eq_iff.1 rfl

/-- Authority is a tree order with the claims on everything at its top, and the order of claims by
verb and subject extends it. -/
theorem check_tree_order :
    (∀ a : Claim, a.check a = true)
      ∧ (∀ a b c : Claim, a.check b = true → b.check c = true → a.check c = true)
      ∧ (∀ a b : Claim, a.check b = true → b.check a = true → a.exact b = true)
      ∧ (∀ a b q : Claim, a.check q = true → b.check q = true →
        a.check b = true ∨ b.check a = true)
      ∧ (∀ (verb : Value) (g : Claim), globalFor verb = .ok g → ∀ c : Claim,
        (g.check c = true ↔ g.verb.content = c.verb.content)
          ∧ (c.check g = true ↔ c.exact g = true))
      ∧ (∀ a b : Claim, a.check b = true → a.le b = true)
      ∧ (∀ l : List Claim, (l.Pairwise fun a b => a.le b = true) → ∀ (i j : Nat) (a b : Claim),
        l[i]? = some a → l[j]? = some b → a.check b = true → a.exact b = false → i < j)
      ∧ ∀ cs : List Claim, ((sorted cs).Perm cs ∧ (sorted cs).Pairwise fun a b => a.le b = true)
        ∧ (distinctSorted cs).Pairwise fun a b => a.le b = true ∧ a.exact b = false := by
  refine ⟨check_refl, fun a b c => check_trans, fun a b => exact_of_check_of_check,
    fun a b q => check_or_check, fun verb g hg c => ?_, fun a b => le_of_check,
    fun l hl i j a b => lt_of_check hl, fun cs => ⟨⟨List.mergeSort_perm _ _, pairwise_sorted⟩, ?_⟩⟩
  · obtain ⟨-, hg⟩ := isGlobal_of_globalFor hg
    exact ⟨check_iff_of_global hg, check_global_iff hg⟩
  · refine pairwise_distinctSorted.imp fun {a b} hab => ⟨le_iff.2 (lt_iff.1 hab).le, ?_⟩
    exact Bool.eq_false_iff.2 fun he => (lt_iff.1 hab).ne (key_eq_iff.2 he)

-- a hyphen comes before a dot, so what is authorized need not follow its authority at once
example : (⟨.plain "read", .plain "orgs-x"⟩ : Claim).le ⟨.plain "read", .plain "orgs.1"⟩ = true := by
  decide

end PermissionClaims.Claim
