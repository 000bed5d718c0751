import Mathlib.Data.Prod.Lex
import Mathlib.Data.String.Basic
import PermissionClaims.Claim.Collection
import PermissionClaims.Proofs.Segments

/-!
# Collections of claims

The order of claims is that of their verbs and subjects, taken together (`lt_iff`), and claims that
it does not tell apart are the same. So putting claims in order and leaving out those that are equal
keeps for each claim one of the same verb and subject (`exists_mem_distinctSorted`).

Against a query, a collection authorizes what one of its members does (`checkAny_iff`), and it has
the segments that its members have there (`mem_collect_iff`).
-/

namespace PermissionClaims.Claim

variable {c d q : Claim} {cs : List Claim}

/-! ## The order of claims -/

/-- What claims are ordered by: the verb, then the subject. -/
def key (c : Claim) : String ×ₗ String :=
  toLex (c.verb.content, c.subject.content)

theorem lt_iff : c.lt d = true ↔ c.key < d.key := by
  rw [key, key, Prod.Lex.toLex_lt_toLex]
  simp [lt]

theorem le_iff : c.le d = true ↔ c.key ≤ d.key := by
  rw [le, Bool.not_eq_true', ← Bool.not_eq_true, lt_iff, not_lt]

theorem key_eq_iff : c.key = d.key ↔ c.exact d = true := by
  rw [key, key, toLex_inj, Prod.mk.injEq, exact, Bool.and_eq_true, decide_eq_true_eq,
    decide_eq_true_eq]

/-- Claims that the order does not tell apart are the same. -/
theorem exact_of_not_lt (h : c.lt d = false) (h' : d.lt c = false) : c.exact d = true := by
  rw [Bool.eq_false_iff, ne_eq, lt_iff, not_lt] at h h'
  exact key_eq_iff.1 (le_antisymm h' h)

theorem pairwise_sorted : (sorted cs).Pairwise fun a b => a.le b = true := by
  refine List.pairwise_mergeSort (fun a b c hab hbc => ?_) (fun a b => ?_) cs
  · exact le_iff.2 ((le_iff.1 hab).trans (le_iff.1 hbc))
  · rw [Bool.or_eq_true, le_iff, le_iff]
    exact le_total _ _

theorem pairwise_distinctSorted : (distinctSorted cs).Pairwise fun a b => a.lt b = true := by
  refine SortedSet.pairwise_ofList (fun a b c hab hbc => ?_) cs
  exact lt_iff.2 ((lt_iff.1 hab).trans (lt_iff.1 hbc))

theorem mem_of_mem_distinctSorted (h : c ∈ distinctSorted cs) : c ∈ cs :=
  SortedSet.mem_ofList_imp h

theorem exists_mem_distinctSorted (h : c ∈ cs) : ∃ d ∈ distinctSorted cs, c.exact d = true := by
  obtain ⟨d, hd, hcd⟩ : ∃ d ∈ distinctSorted cs, d = c ∨ c.lt d = false ∧ d.lt c = false :=
    SortedSet.exists_mem_ofList h
  refine ⟨d, hd, ?_⟩
  rcases hcd with rfl | ⟨h₁, h₂⟩
  · exact exact_iff.2 ⟨rfl, rfl⟩
  · exact exact_of_not_lt h₁ h₂

/-- Where claims are told apart by their characters, none of them is left out. -/
theorem mem_distinctSorted_iff (h : ∀ a ∈ cs, ∀ b ∈ cs, a.exact b = true → a = b) :
    c ∈ distinctSorted cs ↔ c ∈ cs := by
  refine ⟨mem_of_mem_distinctSorted, fun hc => ?_⟩
  obtain ⟨d, hd, he⟩ := exists_mem_distinctSorted hc
  exact h c hc d (mem_of_mem_distinctSorted hd) he ▸ hd

/-! ## A collection against a query -/

/-- A search finds an authority if there is one. -/
theorem checkAny_iff : checkAny cs q = true ↔ ∃ c ∈ cs, c.check q = true := by
  unfold checkAny
  induction cs with
  | nil => simp [findAuthority]
  | cons c cs ih =>
    unfold findAuthority
    split_ifs with h
    · simp [h]
    · simp only [ih, List.exists_mem_cons_iff, h, Bool.false_eq_true, false_or]

theorem mem_collect_iff {relation : Claim → Option String} {s : String} :
    s ∈ collect relation cs ↔ ∃ c ∈ cs, relation c = some s := by
  rw [collect, SortedSet.mem_ofList_iff, List.mem_filterMap]
  intro s t hst hts
  rw [decide_eq_false_iff_not, not_lt] at hst hts
  exact le_antisymm hts hst

/-- The segments of a collection are in increasing order, each once. -/
theorem pairwise_collect {relation : Claim → Option String} :
    (collect relation cs).Pairwise (· < ·) := by
  have ht (s t u : String) (hst : decide (s < t) = true) (htu : decide (t < u) = true) :
      decide (s < u) = true :=
    decide_eq_true ((of_decide_eq_true hst).trans (of_decide_eq_true htu))
  exact (SortedSet.pairwise_ofList ht (cs.filterMap relation)).imp fun hst => of_decide_eq_true hst

theorem mem_children_iff {s : String} :
    s ∈ children cs q ↔ ∃ c ∈ cs, c.directChild q = some s :=
  mem_collect_iff

theorem mem_descendants_iff {s : String} :
    s ∈ descendants cs q ↔ ∃ c ∈ cs, c.directDescendant q = some s :=
  mem_collect_iff

end PermissionClaims.Claim
