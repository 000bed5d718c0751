import PermissionClaims.Proofs.HeldClaims

/-!
# What is denied outright

A request is read before the permissions are gone through, so one that is no claim text is denied
whatever they are, and whatever going through them would have brought (`respondTo_of_not_valid`).
For any other request permissions without elements are an error, with nothing reported.

A bare text or bytes in place of a collection hold nothing: a claim text has at least three
characters (`Spelling.Fits.two_lt_length_text`), so none of the single characters that a text is
gone through by is one.
-/

namespace PermissionClaims

open Claim Grammar Log

variable {d : Dialect}

namespace Grammar

theorem Spelling.Fits.raw_ne_nil {s : Spelling} (h : s.Fits d) : s.raw ≠ [] := by
  intro hr
  obtain ⟨hs, -⟩ := List.append_eq_nil_iff.1 hr
  rcases h.body with ⟨he, -⟩ | ⟨hp, -⟩
  · rw [he] at hs
    simp at hs
  · exact hp.ne_nil hs

/-- A verb, a colon and a subject. -/
theorem Spelling.Fits.two_lt_length_text {s : Spelling} (h : s.Fits d) : 2 < s.text.length := by
  have hv : 0 < s.verb.length := List.length_pos_iff.2 h.verb.1
  have hr : 0 < s.raw.length := List.length_pos_iff.2 h.raw_ne_nil
  rw [Spelling.text, List.length_append, List.length_cons]
  omega

theorem not_isValid_character (d : Dialect) (c : Char) :
    isValid d (.plain (String.ofList [c])) = false := by
  by_contra hv
  obtain ⟨s, hs, ht⟩ := isValid_text_iff.1 (Bool.eq_true_of_not_eq_false hv)
  have hlen := hs.two_lt_length_text
  rw [ht, Text.content_plain, String.toList_ofList, List.length_singleton] at hlen
  omega

end Grammar

namespace Access

variable {permissions request : Value} {ps : List Value}

/-- What holds no claim text holds no claim. -/
theorem held_eq_nil (h : ∀ p ∈ ps, isValid d p = false) : held d ps = [] := by
  refine List.eq_nil_iff_forall_not_mem.2 fun c hc => ?_
  obtain ⟨p, hp, hpc⟩ := mem_held_iff.1 hc
  rw [value_parse_of_not_valid (h p hp)] at hpc
  cases hpc

theorem heldClaims_of_eq_none (h : permissions.elements? = none) :
    heldClaims d permissions = ⟨[], .error ⟨permissions⟩⟩ := by
  rw [heldClaims, Value.elements_of_eq_none h]
  rfl

section Respond

variable {α : Type} {answer : List Claim → Claim → α} {otherwise : α}

/-- What is answered to a request where the held claims are come by in any way, which may give
notices of its own and may fail. -/
def respondTo (answer : List Claim → Claim → α) (otherwise : α) (d : Dialect) (request : Value)
    (hold : Traced (Except NoElements (List Claim))) : Traced (Except NoElements α) := do
  match ← parse d request with
  | .error _ =>
    Traced.note (.denied request)
    return .ok otherwise
  | .ok q => return (← hold).map fun held => answer held q

theorem respond_eq_respondTo (answer : List Claim → Claim → α) (otherwise : α) (d : Dialect)
    (permissions request : Value) :
    respond answer otherwise d permissions request
      = respondTo answer otherwise d request (heldClaims d permissions) := rfl

/-- To a request that is no claim text the answer is there without the held claims. -/
theorem respondTo_of_not_valid (h : isValid d request = false)
    (hold : Traced (Except NoElements (List Claim))) :
    respondTo answer otherwise d request hold
      = ⟨[.rejected request, .denied request], .ok otherwise⟩ := by
  rw [respondTo, parse_of_error (value_parse_of_not_valid h)]
  rfl

theorem respondTo_of_valid (h : isValid d request = true) (fault : NoElements) :
    respondTo answer otherwise d request ⟨[], .error fault⟩ = ⟨[], .error fault⟩ := by
  obtain ⟨q, hq⟩ := isValid_iff_exists_parse.1 h
  rw [respondTo, parse_of_ok hq]
  rfl

theorem value_respond_of_no_claim (hnone : ∀ q, answer [] q = otherwise)
    (hps : permissions.elements = .ok ps) (h : ∀ p ∈ ps, isValid d p = false) (request : Value) :
    (respond answer otherwise d permissions request).value = .ok otherwise := by
  rcases hq : (parse d request).value with fault | q
  · exact value_respond_of_error hq
  · rw [value_respond_of_ok hq hps, held_eq_nil h, hnone]

end Respond

/-- A call gives what `answer` says of the held claims and a request, and fails closed: without a
request, or without a collection of permissions, it gives `otherwise` or an error. -/
structure FailsClosed {α : Type} (answer : List Claim → Claim → α) (otherwise : α)
    (call : Dialect → Value → Value → Traced (Except NoElements α)) : Prop where
  /-- The held claims are all that the permissions are gone through for. -/
  through : ∀ (d : Dialect) (permissions request : Value),
    call d permissions request = respondTo answer otherwise d request (heldClaims d permissions)
  /-- They are not gone through for a request that is no claim text. -/
  untouched : ∀ (d : Dialect) (request : Value), isValid d request = false →
    ∀ hold : Traced (Except NoElements (List Claim)),
      respondTo answer otherwise d request hold
        = ⟨[.rejected request, .denied request], .ok otherwise⟩
  malformed : ∀ (d : Dialect) (permissions request : Value), isValid d request = false →
    (call d permissions request).value = .ok otherwise
      ∧ ∀ time : Int, (call d permissions request).notices.map
        (fun n => (Record.ofNotice time n).seen) = refusal 10 "denying malformed request " request
  noElements : ∀ (d : Dialect) (permissions request : Value), isValid d request = true →
    permissions.elements? = none → call d permissions request = ⟨[], .error ⟨permissions⟩⟩
  text : ∀ (d : Dialect) (t : Text) (request : Value),
    (call d (.text t) request).value = .ok otherwise
  bytes : ∀ (d : Dialect) (b : List UInt8) (request : Value),
    (call d (.bytes b) request).value = .ok otherwise

theorem respond_failsClosed {α : Type} {answer : List Claim → Claim → α} {otherwise : α}
    (hnone : ∀ q, answer [] q = otherwise) :
    FailsClosed answer otherwise (respond answer otherwise) where
  through := respond_eq_respondTo answer otherwise
  untouched d request h := respondTo_of_not_valid h
  malformed d permissions request h := by
    rw [respond_eq_respondTo, respondTo_of_not_valid h]
    exact ⟨rfl, fun time => seen_refusal time rfl rfl rfl⟩
  noElements d permissions request h hps := by
    rw [respond_eq_respondTo, heldClaims_of_eq_none hps, respondTo_of_valid h]
  text d t request := by
    refine value_respond_of_no_claim hnone rfl (fun p hp => ?_) request
    obtain ⟨c, -, rfl⟩ := List.mem_map.1 hp
    exact not_isValid_character d c
  bytes d b request := by
    refine value_respond_of_no_claim hnone rfl (fun p hp => ?_) request
    obtain ⟨x, -, rfl⟩ := List.mem_map.1 hp
    exact isValid_of_asText?_eq_none rfl

/-- Access and discovery look at the request before the permissions, and what is not a collection
of permissions grants nothing and shows nothing. -/
theorem requests_come_first :
    FailsClosed checkAny false hasAccess
      ∧ FailsClosed children [] visibleChildren
      ∧ FailsClosed descendants [] visibleDescendants :=
  ⟨respond_failsClosed fun _ => rfl, respond_failsClosed fun _ => rfl,
    respond_failsClosed fun _ => rfl⟩

theorem requests_come_first_bare :
    let three : Value := .int (.ofByte 3)
    isValid .strict (.plain "read") = false
      ∧ (visibleChildren .strict three (.plain "read")).value = .ok []
      ∧ (visibleChildren .strict three (.plain "read")).notices.map
          (fun n => (Record.ofNotice 0 n).seen)
        = [("claimcore.claims.parser", 10, .ok "rejected claim text 'read'"),
          ("claimcore.claims.access", 10, .ok "denying malformed request 'read'")]
      ∧ isValid .strict (.plain "read:a") = true ∧ three.elements? = none
      ∧ hasAccess .strict three (.plain "read:a") = ⟨[], .error ⟨three⟩⟩
      ∧ (hasAccess .strict (.plain "read:*") (.plain "read:a")).value = .ok false := by
  intro three
  obtain ⟨haccess, hchildren, -⟩ := requests_come_first
  have hbad : isValid .strict (.plain "read") = false := by decide
  have hgood : isValid .strict (.plain "read:a") = true := by decide
  obtain ⟨hnone, hseen⟩ := hchildren.malformed .strict three _ hbad
  have hp : String.ofList (preview 240 (.plain "read")) = "'read'" := by decide
  refine ⟨hbad, hnone, ?_, hgood, rfl, haccess.noElements _ _ _ hgood rfl,
    haccess.text .strict (.plain "read:*") _⟩
  rw [hseen, refusal, hp]
  rfl

end Access

end PermissionClaims
