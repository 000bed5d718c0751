import PermissionClaims.Proofs.Discovery

/-!
# Queries by text

A query that is still a text gets the answer that its claim gets, and if it is none the answer that
grants nothing. So whether a request is put to permissions, to the claims they hold
(`value_respond_eq_matchText`), or to each of these claims, the answers agree (`layers_agree`).
-/

namespace PermissionClaims

open Claim

variable {d : Dialect} {r : Value}

namespace Claim

variable {c q : Claim} {cs : List Claim}

section Answers

variable {α : Type} {relation : Relation} {answer : Claim → α} {otherwise : α}

theorem value_relateText_of_ok (h : (parse d r).value = .ok q) :
    (relateText relation answer otherwise d r).value = answer q := by
  simp only [relateText, Log.Traced.value_bind, h]
  rfl

theorem value_relateText_of_error {fault : ClaimFault} (h : (parse d r).value = .error fault) :
    (relateText relation answer otherwise d r).value = otherwise := by
  simp only [relateText, Log.Traced.value_bind, h]
  rfl

theorem value_matchText_of_ok (h : (parse d r).value = .ok q) :
    (matchText answer otherwise d r).value = answer q := by
  simp only [matchText, Log.Traced.value_bind, h]
  rfl

theorem value_matchText_of_error {fault : ClaimFault} (h : (parse d r).value = .error fault) :
    (matchText answer otherwise d r).value = otherwise := by
  simp only [matchText, Log.Traced.value_bind, h]
  rfl

end Answers

/-- A text authorized by a collection is authorized by one of its members. -/
theorem value_checkAnyText (cs : List Claim) (d : Dialect) (r : Value) :
    (checkAnyText cs d r).value = cs.any fun c => (c.checkText d r).value := by
  rcases hq : (parse d r).value with fault | q
  · have hc (c : Claim) : (c.checkText d r).value = false := value_relateText_of_error hq
    simp [checkAnyText, value_matchText_of_error hq, hc]
  · have hc (c : Claim) : (c.checkText d r).value = c.check q := value_relateText_of_ok hq
    rw [checkAnyText, value_matchText_of_ok hq, Bool.eq_iff_iff, checkAny_iff]
    simp [hc]

/-- The segments that a collection has below a text are those that its members have there, in
increasing order. -/
theorem value_matchText_collect (relation : Relation) (segment : Claim → Claim → Option String)
    (cs : List Claim) (d : Dialect) (r : Value) :
    (matchText (fun q => collect (segment · q) cs) [] d r).value.Pairwise (· < ·)
      ∧ ∀ s : String, s ∈ (matchText (fun q => collect (segment · q) cs) [] d r).value ↔
        ∃ c ∈ cs, (relateText relation (segment c) none d r).value = some s := by
  rcases hq : (parse d r).value with fault | q
  · simp [value_matchText_of_error hq, value_relateText_of_error hq]
  · simp only [value_matchText_of_ok hq, value_relateText_of_ok hq]
    exact ⟨pairwise_collect, fun s => mem_collect_iff⟩

end Claim

namespace Access

variable {permissions : Value} {ps : List Value}

/-- What permissions answer to a request is what the claims that they hold answer to its text. -/
theorem value_respond_eq_matchText {α : Type} {answer : List Claim → Claim → α} {otherwise : α}
    (hps : permissions.elements = .ok ps) :
    (respond answer otherwise d permissions r).value
      = .ok (matchText (answer (held d ps)) otherwise d r).value := by
  rcases hq : (parse d r).value with fault | q
  · rw [value_respond_of_error hq, value_matchText_of_error hq]
  · rw [value_respond_of_ok hq hps, value_matchText_of_ok hq]

/-- Permissions, the claims that they hold and each of these claims agree on every request, and a
query by text has the answer of its claim, or grants nothing if it is none. -/
theorem layers_agree :
    (∀ (d : Dialect) (permissions : Value) (ps : List Value), permissions.elements = .ok ps →
      ∃ claims : List Claim, (heldClaims d permissions).value = .ok claims ∧ ∀ r : Value,
        ((hasAccess d permissions r).value = .ok (checkAnyText claims d r).value
          ∧ (checkAnyText claims d r).value = claims.any fun c => (c.checkText d r).value)
        ∧ ((visibleChildren d permissions r).value = .ok (childrenText claims d r).value
          ∧ (childrenText claims d r).value.Pairwise (· < ·)
          ∧ ∀ s : String, s ∈ (childrenText claims d r).value ↔
            ∃ c ∈ claims, (c.directChildText d r).value = some s)
        ∧ (visibleDescendants d permissions r).value = .ok (descendantsText claims d r).value
          ∧ (descendantsText claims d r).value.Pairwise (· < ·)
          ∧ ∀ s : String, s ∈ (descendantsText claims d r).value ↔
            ∃ c ∈ claims, (c.directDescendantText d r).value = some s)
    ∧ ∀ (d : Dialect) (r : Value),
      (∀ q : Claim, (parse d r).value = .ok q →
        (∀ c : Claim, (c.exactText d r).value = c.exact q ∧ (c.checkText d r).value = c.check q
          ∧ (c.directChildText d r).value = c.directChild q
          ∧ (c.directDescendantText d r).value = c.directDescendant q)
        ∧ ∀ cs : List Claim, (childrenText cs d r).value = children cs q
          ∧ (descendantsText cs d r).value = descendants cs q
          ∧ (checkAnyText cs d r).value = checkAny cs q)
      ∧ ∀ fault : ClaimFault, (parse d r).value = .error fault →
        (∀ c : Claim, (c.exactText d r).value = false ∧ (c.checkText d r).value = false
          ∧ (c.directChildText d r).value = none ∧ (c.directDescendantText d r).value = none)
        ∧ ∀ cs : List Claim, (childrenText cs d r).value = []
          ∧ (descendantsText cs d r).value = [] ∧ (checkAnyText cs d r).value = false := by
  refine ⟨fun d permissions ps hps => ⟨held d ps, value_heldClaims hps, fun r => ⟨⟨?_, ?_⟩,
    ⟨?_, ?_⟩, ?_, ?_⟩⟩, fun d r => ⟨fun q hq => ⟨fun c => ?_, fun cs => ?_⟩,
    fun fault h => ⟨fun c => ?_, fun cs => ?_⟩⟩⟩
  · exact value_respond_eq_matchText hps
  · exact value_checkAnyText _ d r
  · exact value_respond_eq_matchText hps
  · exact value_matchText_collect .directChild directChild _ d r
  · exact value_respond_eq_matchText hps
  · exact value_matchText_collect .directDescendant directDescendant _ d r
  · exact ⟨value_relateText_of_ok hq, value_relateText_of_ok hq, value_relateText_of_ok hq,
      value_relateText_of_ok hq⟩
  · exact ⟨value_matchText_of_ok hq, value_matchText_of_ok hq, value_matchText_of_ok hq⟩
  · exact ⟨value_relateText_of_error h, value_relateText_of_error h,
      value_relateText_of_error h, value_relateText_of_error h⟩
  · exact ⟨value_matchText_of_error h, value_matchText_of_error h,
      value_matchText_of_error h⟩

theorem layers_agree_orgs :
    (Value.tuple [.plain "read:orgs", .null, .plain "read:orgs.7"]).elements
        = .ok [.plain "read:orgs", .null, .plain "read:orgs.7"]
      ∧ (visibleChildren .strict (.tuple [.plain "read:orgs", .null, .plain "read:orgs.7"])
        (.plain "read:orgs")).value
        = .ok (childrenText [⟨.plain "read", .plain "orgs"⟩, ⟨.plain "read", .plain "orgs.7"⟩]
          .strict (.plain "read:orgs")).value := by
  have hps : (Value.tuple [.plain "read:orgs", .null, .plain "read:orgs.7"]).elements
      = .ok [.plain "read:orgs", .null, .plain "read:orgs.7"] := rfl
  have hheld : (heldClaims .strict
      (.tuple [.plain "read:orgs", .null, .plain "read:orgs.7"])).value
      = .ok [⟨.plain "read", .plain "orgs"⟩, ⟨.plain "read", .plain "orgs.7"⟩] := by rfl
  obtain ⟨claims, hc, hagree⟩ := layers_agree.1 .strict _ _ hps
  rw [hheld, Except.ok.injEq] at hc
  subst hc
  exact ⟨hps, (hagree (.plain "read:orgs")).2.1.1⟩

end Access

end PermissionClaims
