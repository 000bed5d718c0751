import PermissionClaims.Proofs.AccessDecision
import PermissionClaims.Proofs.AuthorityOrder

/-!
# Permissions that grant the same

What authorizes the claims of a collection authorizes all that they do (`checkAny_of_checkAny`). So
permissions grant what others grant if they grant the claims that the others hold
(`hasAccess_of_grants_held`), and whether two lists of permissions decide alike is settled by
finitely many requests.
-/

namespace PermissionClaims.Access

open Claim Grammar

variable {d : Dialect} {permissions permissions' request : Value} {ps ps' : List Value}

theorem checkAny_of_checkAny {cs cs' : List Claim} {q : Claim}
    (h : ∀ c ∈ cs, checkAny cs' c = true) (hq : checkAny cs q = true) : checkAny cs' q = true := by
  obtain ⟨c, hc, hcq⟩ := checkAny_iff.1 hq
  obtain ⟨c', hc', hcc⟩ := checkAny_iff.1 (h c hc)
  exact checkAny_iff.2 ⟨c', hc', check_trans hcc hcq⟩

theorem checkAny_of_check {cs : List Claim} {q q' : Claim} (h : q.check q' = true)
    (hq : checkAny cs q = true) : checkAny cs q' = true := by
  obtain ⟨c, hc, hcq⟩ := checkAny_iff.1 hq
  exact checkAny_iff.2 ⟨c, hc, check_trans hcq h⟩

/-- Only claim text is granted. -/
theorem exists_parse_of_hasAccess (h : (hasAccess d permissions request).value = .ok true) :
    ∃ q : Claim, (parse d request).value = .ok q := by
  rcases hq : (parse d request).value with fault | q
  · rw [hasAccess, value_respond_of_error hq] at h
    simp at h
  · exact ⟨q, rfl⟩

theorem hasAccess_eq_of_iff (hps : permissions.elements = .ok ps)
    (hps' : permissions'.elements = .ok ps')
    (h : (hasAccess d permissions request).value = .ok true ↔
      (hasAccess d permissions' request).value = .ok true) :
    (hasAccess d permissions request).value = (hasAccess d permissions' request).value := by
  classical
  rw [(value_hasAccess_eq_ok_iff hps).2 decide_eq_true_iff,
    (value_hasAccess_eq_ok_iff hps').2 decide_eq_true_iff] at h ⊢
  rw [Except.ok.injEq, Except.ok.injEq, decide_eq_true_iff, decide_eq_true_iff] at h
  rw [decide_eq_decide.2 h]

/-- A held claim is granted by permissions if it is authorized by what they hold. -/
theorem hasAccess_toText_iff (hps : permissions.elements = .ok ps) {v : Value} {c : Claim}
    (hc : (parse d v).value = .ok c) :
    (hasAccess d permissions (.plain c.toText)).value = .ok true ↔ checkAny (held d ps) c = true :=
  hasAccess_iff_checkAny hps (parse_toText_of_parse hc d)

theorem hasAccess_of_grants_held (hps : permissions.elements = .ok ps)
    (hps' : permissions'.elements = .ok ps')
    (h : ∀ c ∈ held d ps, (hasAccess d permissions' (.plain c.toText)).value = .ok true)
    (hr : (hasAccess d permissions request).value = .ok true) :
    (hasAccess d permissions' request).value = .ok true := by
  obtain ⟨q, hq⟩ := exists_parse_of_hasAccess hr
  rw [hasAccess_iff_checkAny hps hq] at hr
  rw [hasAccess_iff_checkAny hps' hq]
  refine checkAny_of_checkAny (fun c hc => ?_) hr
  obtain ⟨v, -, hv⟩ := mem_held_iff.1 hc
  exact (hasAccess_toText_iff hps' hv).1 (h c hc)

/-- Permissions grant each claim that they hold. -/
theorem hasAccess_toText_of_mem (hps : permissions.elements = .ok ps) {c : Claim}
    (hc : c ∈ held d ps) : (hasAccess d permissions (.plain c.toText)).value = .ok true := by
  obtain ⟨p, -, hp⟩ := mem_held_iff.1 hc
  exact (hasAccess_toText_iff hps hp).2 (checkAny_iff.2 ⟨c, hc, check_refl c⟩)

theorem hasAccess_of_subset (hps : permissions.elements = .ok ps)
    (hps' : permissions'.elements = .ok ps') (h : ∀ p ∈ ps, p ∈ ps')
    (hr : (hasAccess d permissions request).value = .ok true) :
    (hasAccess d permissions' request).value = .ok true := by
  refine hasAccess_of_grants_held hps hps' (fun c hc => ?_) hr
  obtain ⟨p, hp, hpc⟩ := mem_held_iff.1 hc
  exact hasAccess_toText_of_mem hps' (mem_held_iff.2 ⟨p, h p hp, hpc⟩)

/-- What is granted reaches down to all that it would itself authorize. -/
theorem hasAccess_of_check (hps : permissions.elements = .ok ps) {request' : Value} {q q' : Claim}
    (hq : (parse d request).value = .ok q) (hq' : (parse d request').value = .ok q')
    (h : q.check q' = true) (hr : (hasAccess d permissions request).value = .ok true) :
    (hasAccess d permissions request').value = .ok true := by
  rw [hasAccess_iff_checkAny hps hq] at hr
  exact (hasAccess_iff_checkAny hps hq').2 (checkAny_of_check h hr)

/-- A permission can go without effect if a claim that stays held authorizes it. -/
theorem hasAccess_remove {xs ys : List Value} {p : Value} {c : Claim}
    (hps : permissions.elements = .ok (xs ++ p :: ys))
    (hps' : permissions'.elements = .ok (xs ++ ys)) (hp : (parse d p).value = .ok c)
    (hc : checkAny (held d (xs ++ ys)) c = true) (request : Value) :
    (hasAccess d permissions' request).value = (hasAccess d permissions request).value := by
  refine hasAccess_eq_of_iff hps' hps ⟨hasAccess_of_subset hps' hps fun x hx => ?_, ?_⟩
  · rcases List.mem_append.1 hx with hx | hx
    · exact List.mem_append_left _ hx
    · exact List.mem_append_right _ (List.mem_cons_of_mem _ hx)
  · refine hasAccess_of_grants_held hps hps' fun c' hc' => ?_
    obtain ⟨x, hx, hxc⟩ := mem_held_iff.1 hc'
    rw [List.mem_append, List.mem_cons, or_left_comm] at hx
    rcases hx with rfl | hx
    · rw [hp, Except.ok.injEq] at hxc
      exact hxc ▸ (hasAccess_toText_iff hps' hp).2 hc
    · exact hasAccess_toText_of_mem hps' (mem_held_iff.2 ⟨x, List.mem_append.2 hx, hxc⟩)

/-- Permissions decide alike if and only if each list grants the claims that the other one holds.
What is granted is closed downwards, a permission that is authorized by what is held without it can
go, and a further one takes nothing away. -/
theorem hasAccess_eq_iff_held (d : Dialect) {P Q : Value} {ps qs : List Value}
    (hP : P.elements = .ok ps) (hQ : Q.elements = .ok qs) :
    ∃ heldP heldQ : List Claim,
      (heldClaims d P).value = .ok heldP ∧ (heldClaims d Q).value = .ok heldQ
      ∧ ((∀ r : String, (hasAccess d P (.plain r)).value = (hasAccess d Q (.plain r)).value) ↔
        (∀ c ∈ heldP, (hasAccess d Q (.plain c.toText)).value = .ok true)
          ∧ ∀ c ∈ heldQ, (hasAccess d P (.plain c.toText)).value = .ok true)
      ∧ (∀ (r r' : Value) (q q' : Claim), (parse d r).value = .ok q → (parse d r').value = .ok q' →
        q.check q' = true → (hasAccess d P r).value = .ok true →
          (hasAccess d P r').value = .ok true)
      ∧ (∀ (xs ys : List Value) (p : Value) (c : Claim), ps = xs ++ p :: ys → qs = xs ++ ys →
        (parse d p).value = .ok c → (∃ c' ∈ heldQ, c'.check c = true) →
          ∀ r : Value, (hasAccess d Q r).value = (hasAccess d P r).value)
      ∧ ((∀ q ∈ qs, q ∈ ps) → ∀ r : Value, (hasAccess d Q r).value = .ok true →
        (hasAccess d P r).value = .ok true) := by
  refine ⟨held d ps, held d qs, value_heldClaims hP, value_heldClaims hQ,
    ⟨fun h => ⟨fun c hc => ?_, fun c hc => ?_⟩, fun ⟨h, h'⟩ r => ?_⟩,
    fun r r' q q' hq hq' => hasAccess_of_check hP hq hq', ?_, fun h r => hasAccess_of_subset hQ hP h⟩
  · rw [← h]
    exact hasAccess_toText_of_mem hP hc
  · rw [h]
    exact hasAccess_toText_of_mem hQ hc
  · exact hasAccess_eq_of_iff hP hQ
      ⟨hasAccess_of_grants_held hP hQ h, hasAccess_of_grants_held hQ hP h'⟩
  · rintro xs ys p c rfl rfl hp hc
    exact hasAccess_remove hP hQ hp (checkAny_iff.2 hc)

theorem hasAccess_eq_iff_held_orgs :
    (Value.tuple [.plain "read:orgs", .plain "read:orgs.42"]).elements
        = .ok [.plain "read:orgs", .plain "read:orgs.42"]
      ∧ (Value.tuple [.plain "read:orgs"]).elements = .ok [.plain "read:orgs"]
      ∧ ∀ r : Value, (hasAccess .strict (.tuple [.plain "read:orgs"]) r).value
        = (hasAccess .strict (.tuple [.plain "read:orgs", .plain "read:orgs.42"]) r).value := by
  have hP : (Value.tuple [.plain "read:orgs", .plain "read:orgs.42"]).elements
      = .ok [.plain "read:orgs", .plain "read:orgs.42"] := rfl
  have hQ : (Value.tuple [.plain "read:orgs"]).elements = .ok [.plain "read:orgs"] := rfl
  have hp : (parse .strict (.plain "read:orgs.42")).value
      = .ok ⟨.plain "read", .plain "orgs.42"⟩ := by rfl
  have hheld : (heldClaims .strict (.tuple [.plain "read:orgs"])).value
      = .ok [⟨.plain "read", .plain "orgs"⟩] := by rfl
  obtain ⟨_, heldQ, -, hheldQ, -, -, hremove, -⟩ := hasAccess_eq_iff_held .strict hP hQ
  rw [hheldQ, Except.ok.injEq] at hheld
  subst hheld
  exact ⟨hP, hQ, hremove [.plain "read:orgs"] [] _ _ rfl rfl hp
    ⟨_, List.mem_singleton_self _, by decide⟩⟩

end PermissionClaims.Access
