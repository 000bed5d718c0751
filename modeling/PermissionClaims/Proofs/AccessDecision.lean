import PermissionClaims.Access
import PermissionClaims.Proofs.ClaimText
import PermissionClaims.Proofs.Collection

/-!
# What permissions grant

A request is granted if a claim among the permissions has its verb and comes first in its segments
(`value_hasAccess_eq_ok_iff`). What is no claim text among the permissions is passed over, so only
which claim texts there are matters, and a request that is none is denied.
-/

namespace PermissionClaims.Access

open Claim Grammar

variable {d : Dialect} {permissions request : Value} {ps vs : List Value}

theorem value_readValid_cons_ok {v : Value} {c : Claim} (h : (parse d v).value = .ok c) :
    (readValid d (v :: vs)).value = c :: (readValid d vs).value := by
  simp only [readValid, Log.Traced.value_bind, h]
  rfl

theorem value_readValid_cons_error {v : Value} {fault : ClaimFault}
    (h : (parse d v).value = .error fault) :
    (readValid d (v :: vs)).value = (readValid d vs).value := by
  simp only [readValid, Log.Traced.value_bind, h]

/-- The claims that are read are those of the values that are claim text. -/
theorem mem_value_readValid_iff {c : Claim} :
    c ∈ (readValid d vs).value ↔ ∃ v ∈ vs, (parse d v).value = .ok c := by
  induction vs with
  | nil => simp [readValid]
  | cons v vs ih =>
    rcases h : (parse d v).value with fault | c'
    · rw [value_readValid_cons_error h, ih]
      simp [h]
    · rw [value_readValid_cons_ok h, List.mem_cons, ih]
      simp [h, eq_comm]

/-- Claims that were read are told apart by their characters. -/
theorem eq_of_exact {v v' : Value} {c c' : Claim} (hc : (parse d v).value = .ok c)
    (hc' : (parse d v').value = .ok c') (h : c.exact c' = true) : c = c' := by
  rw [exact, Bool.and_eq_true, decide_eq_true_eq, decide_eq_true_eq] at h
  obtain ⟨s, -, -, rfl⟩ := parse_eq_ok_iff.1 hc
  obtain ⟨s', -, -, rfl⟩ := parse_eq_ok_iff.1 hc'
  exact congrArg₂ (fun v t => Claim.mk (.plain v) (.plain t)) h.1 h.2

/-- The claims that some values hold, in order and each once. -/
def held (d : Dialect) (vs : List Value) : List Claim :=
  distinctSorted (readValid d vs).value

theorem mem_held_iff {c : Claim} : c ∈ held d vs ↔ ∃ v ∈ vs, (parse d v).value = .ok c := by
  rw [← mem_value_readValid_iff]
  refine mem_distinctSorted_iff fun a ha b hb he => ?_
  obtain ⟨v, -, hv⟩ := mem_value_readValid_iff.1 ha
  obtain ⟨u, -, hu⟩ := mem_value_readValid_iff.1 hb
  exact eq_of_exact hv hu he

theorem value_heldClaims (h : permissions.elements = .ok vs) :
    (heldClaims d permissions).value = .ok (held d vs) := by
  unfold heldClaims
  rw [h]
  rfl

section Respond

variable {α : Type} {answer : List Claim → Claim → α} {otherwise : α}

theorem value_respond_of_error {fault : ClaimFault} (h : (parse d request).value = .error fault) :
    (respond answer otherwise d permissions request).value = .ok otherwise := by
  simp only [respond, Log.Traced.value_bind, h]
  rfl

theorem value_respond_of_ok {q : Claim} (h : (parse d request).value = .ok q)
    (hps : permissions.elements = .ok ps) :
    (respond answer otherwise d permissions request).value = .ok (answer (held d ps) q) := by
  simp only [respond, Log.Traced.value_bind, h, value_heldClaims hps]
  rfl

end Respond

theorem hasAccess_iff_checkAny (hps : permissions.elements = .ok ps) {q : Claim}
    (hq : (parse d request).value = .ok q) :
    (hasAccess d permissions request).value = .ok true ↔ checkAny (held d ps) q = true := by
  rw [hasAccess, value_respond_of_ok hq hps, Except.ok.injEq]

/-- A permission of some values grants a request. -/
def Grants (d : Dialect) (ps : List Value) (request : Value) : Prop :=
  ∃ q : Claim, (parse d request).value = .ok q ∧ ∃ p ∈ ps, ∃ c : Claim,
    (parse d p).value = .ok c ∧ c.verb = q.verb ∧ c.segments <+: q.segments

theorem verb_eq_iff {v v' : Value} {c q : Claim} (hc : (parse d v).value = .ok c)
    (hq : (parse d v').value = .ok q) : c.verb = q.verb ↔ c.verb.content = q.verb.content := by
  obtain ⟨s, -, -, rfl⟩ := parse_eq_ok_iff.1 hc
  obtain ⟨s', -, -, rfl⟩ := parse_eq_ok_iff.1 hq
  simp [Spelling.claim, Text.content_plain]

/-- The decision on a request, whatever it is and whatever the permissions are. -/
theorem value_hasAccess_eq_ok_iff (hps : permissions.elements = .ok ps) {granted : Bool} :
    (hasAccess d permissions request).value = .ok granted ↔
      (granted = true ↔ Grants d ps request) := by
  rcases h : (parse d request).value with fault | q
  · have hn : ¬ Grants d ps request := by
      rintro ⟨q, hq, -⟩
      rw [h] at hq
      simp at hq
    rw [hasAccess, value_respond_of_error h, Except.ok.injEq]
    cases granted <;> simp [hn]
  · have hg : checkAny (held d ps) q = true ↔ Grants d ps request := by
      rw [checkAny_iff]
      constructor
      · rintro ⟨c, hc, hcheck⟩
        obtain ⟨p, hp, hpc⟩ := mem_held_iff.1 hc
        obtain ⟨hv, hs⟩ := check_iff.1 hcheck
        exact ⟨q, h, p, hp, c, hpc, (verb_eq_iff hpc h).2 hv, hs⟩
      · rintro ⟨q', hq', p, hp, c, hpc, hv, hs⟩
        rw [h, Except.ok.injEq] at hq'
        subst hq'
        exact ⟨c, mem_held_iff.2 ⟨p, hp, hpc⟩, check_iff.2 ⟨(verb_eq_iff hpc h).1 hv, hs⟩⟩
    rw [hasAccess, value_respond_of_ok h hps, Except.ok.injEq, ← hg]
    cases granted <;> simp

theorem value_hasAccess_of_not_valid (h : isValid d request = false) :
    (hasAccess d permissions request).value = .ok false := by
  rcases hq : (parse d request).value with fault | q
  · exact value_respond_of_error hq
  · rw [isValid_iff_exists_parse.2 ⟨q, hq⟩] at h
    exact Bool.noConfusion h

/-- Only the claim texts among the permissions matter, not their order nor how often they come. -/
theorem grants_congr {ps' : List Value} (h : ∀ p, isValid d p = true → (p ∈ ps ↔ p ∈ ps')) :
    Grants d ps request ↔ Grants d ps' request := by
  have hmem : ∀ {p : Value} {c : Claim}, (parse d p).value = .ok c → (p ∈ ps ↔ p ∈ ps') :=
    fun hp => h _ (isValid_iff_exists_parse.2 ⟨_, hp⟩)
  constructor
  · rintro ⟨q, hq, p, hp, c, hpc, hc⟩
    exact ⟨q, hq, p, (hmem hpc).1 hp, c, hpc, hc⟩
  · rintro ⟨q, hq, p, hp, c, hpc, hc⟩
    exact ⟨q, hq, p, (hmem hpc).2 hp, c, hpc, hc⟩

/-- Access is decided by verbs and segments. Other permissions with the same claim texts decide
alike, and a request that is no claim text is denied under all permissions. -/
theorem hasAccess_decides (d : Dialect) {permissions : Value} {ps : List Value}
    (hps : permissions.elements = .ok ps) (request : Value) :
    (∃ granted : Bool, (hasAccess d permissions request).value = .ok granted
        ∧ (granted = true ↔ ∃ q : Claim, (parse d request).value = .ok q
          ∧ ∃ p ∈ ps, ∃ c : Claim, (parse d p).value = .ok c
            ∧ c.verb = q.verb ∧ c.segments <+: q.segments))
      ∧ (∀ (permissions' : Value) (ps' : List Value), permissions'.elements = .ok ps' →
        (∀ p : Value, isValid d p = true → (p ∈ ps ↔ p ∈ ps')) →
          (hasAccess d permissions' request).value = (hasAccess d permissions request).value)
      ∧ (isValid d request = false →
        ∀ permissions' : Value, (hasAccess d permissions' request).value = .ok false) := by
  classical
  have hgranted : ∀ {permissions : Value} {ps : List Value}, permissions.elements = .ok ps →
      (hasAccess d permissions request).value = .ok (decide (Grants d ps request)) :=
    fun h => (value_hasAccess_eq_ok_iff h).2 decide_eq_true_iff
  refine ⟨⟨_, hgranted hps, decide_eq_true_iff⟩, fun permissions' ps' hps' h => ?_,
    fun h _ => value_hasAccess_of_not_valid h⟩
  rw [hgranted hps', hgranted hps]
  simp only [grants_congr h]

theorem hasAccess_decides_orgs :
    let ps : List Value := [.plain "read:orgsx", .int (.ofByte 7), .plain "read:orgs.*", .null]
    (Value.tuple ps).elements = .ok ps
      ∧ (hasAccess .strict (.tuple ps) (.plain "read:orgs.42")).value = .ok true := by
  intro ps
  have hps : (Value.tuple ps).elements = .ok ps := rfl
  have hq : (parse .strict (.plain "read:orgs.42")).value
      = .ok ⟨.plain "read", .plain "orgs.42"⟩ := by rfl
  have hp : (parse .strict (.plain "read:orgs.*")).value = .ok ⟨.plain "read", .plain "orgs"⟩ := by
    rfl
  obtain ⟨granted, hg, hiff⟩ := (hasAccess_decides .strict hps (.plain "read:orgs.42")).1
  have ht : granted = true :=
    hiff.2 ⟨_, hq, .plain "read:orgs.*", by simp [ps], _, hp, rfl, by decide⟩
  exact ⟨hps, ht ▸ hg⟩

end PermissionClaims.Access
