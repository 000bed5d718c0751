import Mathlib.Data.Finset.Sort
import PermissionClaims.Proofs.Collection
import PermissionClaims.Proofs.SubjectPath

/-!
# What a collection has below a query

One level below a query a collection has those segments that extend the query to one of its members
(`mem_children_iff_extend`), and anywhere below it those by which the segments of a member go on
behind the query's (`mem_descendants_iff_prefix`). Either way they are in increasing order, so which
segments there are settles the list: two collections together have the union of what each has, in
order (`collect_append`).
-/

namespace PermissionClaims.Claim

open Grammar

variable {cs ds : List Claim} {q c : Claim} {s : String}

/-- Extending a query by a segment leads to a claim if the claim has just that segment more. -/
theorem directChild_eq_some_iff_extend (hs : Name s.toList) :
    c.directChild q = some s ↔ (q.extend s).exact c = true := by
  rw [directChild_eq_some_iff, exact_iff, segments_extend hs]
  exact and_congr eq_comm eq_comm

theorem mem_children_iff_extend (hcs : ∀ c ∈ cs, c.WellFormed) :
    s ∈ children cs q ↔ Name s.toList ∧ ∃ c ∈ cs, (q.extend s).exact c = true := by
  rw [mem_children_iff]
  constructor
  · rintro ⟨c, hc, h⟩
    have hs : Name s.toList := name_of_directChild (hcs c hc) h
    exact ⟨hs, c, hc, (directChild_eq_some_iff_extend hs).1 h⟩
  · rintro ⟨hs, c, hc, he⟩
    exact ⟨c, hc, (directChild_eq_some_iff_extend hs).2 he⟩

theorem mem_descendants_iff_prefix :
    s ∈ descendants cs q ↔
      ∃ c ∈ cs, c.verb.content = q.verb.content ∧ q.segments ++ [s] <+: c.segments := by
  simp only [mem_descendants_iff, directDescendant_eq_some_iff]

theorem mem_descendants_of_mem_children (h : s ∈ children cs q) : s ∈ descendants cs q := by
  obtain ⟨c, hc, hcq⟩ := mem_children_iff.1 h
  obtain ⟨hv, hseg⟩ := directChild_eq_some_iff.1 hcq
  exact mem_descendants_iff_prefix.2 ⟨c, hc, hv, hseg ▸ List.prefix_rfl⟩

/-- Two collections together have what each of them has. -/
theorem collect_append (relation : Claim → Option String) (cs ds : List Claim) :
    collect relation (cs ++ ds)
      = ((collect relation cs).toFinset ∪ (collect relation ds).toFinset).sort := by
  refine pairwise_collect.eq_of_mem_iff (Finset.sortedLT_sort _).pairwise fun s => ?_
  rw [Finset.mem_sort, Finset.mem_union, List.mem_toFinset, List.mem_toFinset, mem_collect_iff,
    mem_collect_iff, mem_collect_iff]
  simp only [List.mem_append, or_and_right, exists_or]

/-- The segments one level below a query and those anywhere below it are in increasing order. They
are those that extend the query to a member of the collection, and those that come next in a member
behind the segments of the query. So the former are among the latter, and collections that are put
together have together what each of them has. -/
theorem children_descendants_exact :
    (∀ cs : List Claim, (∀ c ∈ cs, c.WellFormed) → ∀ q : Claim,
      (children cs q).Pairwise (· < ·) ∧ (descendants cs q).Pairwise (· < ·)
        ∧ (∀ s : String, s ∈ children cs q ↔
          Name s.toList ∧ ∃ c ∈ cs, (q.extend s).exact c = true)
        ∧ (∀ s : String, s ∈ descendants cs q ↔
          ∃ c ∈ cs, c.verb.content = q.verb.content ∧ q.segments ++ [s] <+: c.segments)
        ∧ ∀ s ∈ children cs q, s ∈ descendants cs q)
    ∧ ∀ (cs ds : List Claim) (q : Claim),
      children (cs ++ ds) q = ((children cs q).toFinset ∪ (children ds q).toFinset).sort
        ∧ descendants (cs ++ ds) q
          = ((descendants cs q).toFinset ∪ (descendants ds q).toFinset).sort := by
  refine ⟨fun cs hcs q => ⟨pairwise_collect, pairwise_collect, fun s => ?_, fun s => ?_,
    fun s => ?_⟩, fun cs ds q => ⟨?_, ?_⟩⟩
  · exact mem_children_iff_extend hcs
  · exact mem_descendants_iff_prefix
  · exact mem_descendants_of_mem_children
  · exact collect_append (directChild · q) cs ds
  · exact collect_append (directDescendant · q) cs ds

theorem children_descendants_exact_foo :
    (∀ c ∈ [(⟨.plain "read", .plain "a.foo-bar"⟩ : Claim), ⟨.plain "read", .plain "a.foo.x"⟩],
        c.WellFormed)
      ∧ "foo-bar" ∈ children [⟨.plain "read", .plain "a.foo-bar"⟩, ⟨.plain "read", .plain "a.foo.x"⟩]
        ⟨.plain "read", .plain "a"⟩
      ∧ "foo" ∉ children [⟨.plain "read", .plain "a.foo-bar"⟩, ⟨.plain "read", .plain "a.foo.x"⟩]
        ⟨.plain "read", .plain "a"⟩
      ∧ "foo" ∈ descendants [⟨.plain "read", .plain "a.foo-bar"⟩, ⟨.plain "read", .plain "a.foo.x"⟩]
        ⟨.plain "read", .plain "a"⟩ := by
  have hcs : ∀ c ∈ [(⟨.plain "read", .plain "a.foo-bar"⟩ : Claim),
      ⟨.plain "read", .plain "a.foo.x"⟩], c.WellFormed := by decide
  obtain ⟨-, -, hchildren, hdescendants, -⟩ :=
    children_descendants_exact.1 _ hcs ⟨.plain "read", .plain "a"⟩
  have hname : Name "foo-bar".toList := isVerb_iff.1 (by decide)
  refine ⟨hcs, (hchildren "foo-bar").2 ⟨hname, _, List.mem_cons_self, by decide⟩, ?_, ?_⟩
  · intro h
    obtain ⟨-, c, hc, he⟩ := (hchildren "foo").1 h
    revert c
    decide
  · exact (hdescendants "foo").2 ⟨⟨.plain "read", .plain "a.foo.x"⟩, by decide, rfl, by decide⟩

end PermissionClaims.Claim
