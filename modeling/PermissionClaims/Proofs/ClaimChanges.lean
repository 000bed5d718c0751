import PermissionClaims.Claim.Change
import PermissionClaims.Proofs.Components

/-!
# What comes of changing a claim

A change makes another claim by giving components to the constructor or by reading a text
(`Change.Makes`), and one that makes none is refused and leaves the claim as it was
(`value_change_eq_ok_iff`). Whatever is made has the components of a claim (`Makes.wellFormed`), so
the claim there is has them too, however often it has been changed (`wellFormed_lastClaim`).
-/

namespace PermissionClaims

open Grammar Log

namespace Signature

variable {s : Signature} {args' : Arguments}

/-- Arguments by name are taken if there is a parameter for each of them and none gets two. -/
theorem bindNamed_eq_ok_iff (ho : s.takesOthers = false) (hr : receiver ∉ s.parameters) :
    ∀ {named : Fields} {args : Arguments}, (args.bound.map (·.1)).Nodup →
      (s.bindNamed args named = .ok args' ↔ (∀ f ∈ named, f.1 ∈ s.parameters)
        ∧ ((args.bound ++ named).map (·.1)).Nodup
        ∧ { args with bound := args.bound ++ named } = args')
  | [], args, hn => by simp [bindNamed, hn]
  | (name, v) :: rest, args, hn => by
    have happ : args.bound ++ (name, v) :: rest = (args.bound ++ [(name, v)]) ++ rest := by simp
    have hhas : args.bound.has name = true ↔ name ∈ args.bound.map (·.1) := by simp [Named.has]
    unfold bindNamed
    split_ifs with hbad hin
    · -- the name is the receiver's, or it has been given before
      refine iff_of_false (by simp) ?_
      rintro ⟨hp, hnd, -⟩
      rcases hbad with rfl | hb
      · exact absurd (hp _ List.mem_cons_self) hr
      · rw [List.map_append, List.nodup_append] at hnd
        exact absurd rfl (hnd.2.2 name (hhas.1 hb) name (by simp))
    · obtain ⟨-, hb⟩ := not_or.1 hbad
      have hn' : ((args.bound ++ [(name, v)]).map (·.1)).Nodup := by
        rw [List.map_append]
        exact hn.append (List.nodup_singleton name)
          (List.disjoint_singleton.2 fun h => hb (hhas.2 h))
      rw [bindNamed_eq_ok_iff ho hr hn', happ, List.forall_mem_cons]
      exact and_congr_left fun _ => (and_iff_right hin).symm
    · rename_i hothers
      rw [ho] at hothers
      exact absurd hothers Bool.false_ne_true
    · refine iff_of_false (by simp) ?_
      rintro ⟨hp, -⟩
      exact hin (hp _ List.mem_cons_self)

/-- Without arguments by position, all that can still be wrong is that a required one is missing. -/
theorem bind_nil_eq_ok_iff {named : Fields} :
    s.bind [] named = .ok args' ↔ s.bindNamed ⟨[], []⟩ named = .ok args'
      ∧ ∀ name ∈ s.required, args'.bound.has name = true := by
  unfold bind
  rw [List.zip_nil_right]
  rcases s.bindNamed ⟨[], []⟩ named with fault | args
  · constructor
    · intro h
      cases h
    · rintro ⟨h, -⟩
      cases h
  · have hfew : ¬ s.parameters.length < ([] : List Value).length := Nat.not_lt_zero _
    simp only [if_neg hfew, Bind.bind, Except.bind, Except.ok.injEq]
    rcases hfind : s.required.find? fun name => !args.bound.has name with _ | name
    · have hall : ∀ name ∈ s.required, args.bound.has name = true := by
        simpa using List.find?_eq_none.1 hfind
      exact ⟨fun h => ⟨Except.ok.inj h, Except.ok.inj h ▸ hall⟩, fun h => congrArg _ h.1⟩
    · have hmissing : args.bound.has name = false := by simpa using List.find?_some hfind
      constructor
      · intro h
        cases h
      · rintro ⟨rfl, hall⟩
        rw [hall name (List.mem_of_find?_eq_some hfind)] at hmissing
        cases hmissing

end Signature

namespace Claim

variable {c c' : Claim} {named fields : Fields}

theorem mapError_eq_ok_iff {made : Except ClaimFault Claim} :
    made.mapError ChangeFault.claim = .ok c' ↔ made = .ok c' := by
  rcases made with fault | c₀
  · exact ⟨nofun, nofun⟩
  · exact ⟨fun h => congrArg _ (Except.ok.inj h), fun h => congrArg _ (Except.ok.inj h)⟩

theorem ofArguments_eq_ok_iff {positional : List Value} :
    ofArguments positional named = .ok c' ↔
      ∃ args, signature.bind positional named = .ok args
        ∧ create ((args.bound.get? "verb").getD .null)
          ((args.bound.get? "subject").getD (.plain "")) = .ok c' := by
  unfold ofArguments
  rcases signature.bind positional named with fault | args
  · exact ⟨nofun, nofun⟩
  · simp only [Except.ok.injEq, exists_eq_left']
    exact mapError_eq_ok_iff

theorem wellFormed_of_ofArguments {positional : List Value}
    (h : ofArguments positional named = .ok c) : c.WellFormed := by
  obtain ⟨args, -, hc⟩ := ofArguments_eq_ok_iff.1 h
  exact (create_eq_ok_iff.1 hc).2.2

/-- By name a claim is given each of its components at most once, and its verb. -/
theorem ofArguments_named_eq_ok_iff :
    ofArguments [] named = .ok c' ↔ (∀ f ∈ named, f.1 ∈ ["verb", "subject"])
      ∧ (named.map (·.1)).Nodup ∧ named.has "verb" = true
      ∧ create ((named.get? "verb").getD .null) ((named.get? "subject").getD (.plain ""))
        = .ok c' := by
  have hnamed : ∀ args : Arguments, signature.bindNamed ⟨[], []⟩ named = .ok args ↔
      (∀ f ∈ named, f.1 ∈ ["verb", "subject"]) ∧ (named.map (·.1)).Nodup ∧ ⟨named, []⟩ = args :=
    fun _ => Signature.bindNamed_eq_ok_iff rfl (by decide) List.nodup_nil
  have hreq : signature.required = ["verb"] := rfl
  simp only [ofArguments_eq_ok_iff, Signature.bind_nil_eq_ok_iff, hnamed, hreq,
    List.forall_mem_singleton]
  constructor
  · rintro ⟨_, ⟨⟨hp, hn, rfl⟩, hv⟩, hc⟩
    exact ⟨hp, hn, hv, hc⟩
  · rintro ⟨hp, hn, hv, hc⟩
    exact ⟨_, ⟨⟨hp, hn, rfl⟩, hv⟩, hc⟩

/-- What is not named is kept. -/
theorem replace_eq_ok_iff :
    c.replace fields = .ok c' ↔ (∀ f ∈ fields, f.1 ∈ ["verb", "subject"])
      ∧ (fields.map (·.1)).Nodup
      ∧ create ((fields.get? "verb").getD (.text c.verb))
        ((fields.get? "subject").getD (.text c.subject)) = .ok c' := by
  have hown : ∀ f ∈ c.components.filter fun f => !fields.has f.1, f.1 ∈ ["verb", "subject"] :=
    fun f hf => List.mem_map_of_mem (List.mem_of_mem_filter hf)
  have hnodup : (c.components.map (·.1)).Nodup := show ["verb", "subject"].Nodup by decide
  have hverb : Named.get? (fields ++ c.components.filter fun f => !fields.has f.1) "verb"
      = some ((fields.get? "verb").getD (.text c.verb)) := by
    rw [Named.get?_append_missing]
    rcases fields.get? "verb" with _ | v <;> rfl
  have hsubject : Named.get? (fields ++ c.components.filter fun f => !fields.has f.1) "subject"
      = some ((fields.get? "subject").getD (.text c.subject)) := by
    rw [Named.get?_append_missing]
    rcases fields.get? "subject" with _ | v <;> rfl
  rw [replace, ofArguments_named_eq_ok_iff, List.forall_mem_append, and_iff_left hown,
    Named.nodup_names_append_missing hnodup, ← Named.isSome_get?, hverb, hsubject]
  simp only [Option.isSome_some, Option.getD_some, true_and]

namespace Change

/-- The claims that a change makes of a claim. To set or to erase a field makes none. -/
inductive Makes (c : Claim) : Change → Claim → Prop where
  | replace {fields : Fields} {c' : Claim} (known : ∀ f ∈ fields, f.1 ∈ ["verb", "subject"])
      (once : (fields.map (·.1)).Nodup)
      (made : create ((fields.get? "verb").getD (.text c.verb))
        ((fields.get? "subject").getD (.text c.subject)) = .ok c') : Makes c (.replace fields) c'
  | widen {verb : Option Value} {c' : Claim}
      (made : create (verb.getD (.text c.verb)) (.plain "") = .ok c') : Makes c (.widen verb) c'
  | reparse {suffix : String} {d : Dialect} {s : Spelling} (fits : s.Fits d)
      (read : c.toText ++ suffix = String.ofList s.text) : Makes c (.reparse suffix d) s.claim

variable {x : Change}

/-- What is made has been checked, whatever it was made from. -/
theorem Makes.wellFormed (h : Makes c x c') : c'.WellFormed := by
  cases h with
  | replace known once made => exact (create_eq_ok_iff.1 made).2.2
  | widen made => exact (create_eq_ok_iff.1 made).2.2
  | reparse fits read => exact fits.wellFormed_claim

end Change

theorem value_change_eq_ok_iff {x : Change} :
    (c.change x).value = .ok c' ↔ Change.Makes c x c' := by
  cases x with
  | assign field v => exact ⟨nofun, nofun⟩
  | erase field => exact ⟨nofun, nofun⟩
  | replace fields =>
    rw [change, Traced.value_pure, replace_eq_ok_iff]
    constructor
    · rintro ⟨known, once, made⟩
      exact .replace known once made
    · rintro (⟨known, once, made⟩ | _ | _)
      exact ⟨known, once, made⟩
  | widen verb =>
    rw [change, Traced.value_pure, mapError_eq_ok_iff]
    constructor
    · exact .widen
    · rintro (_ | made | _)
      exact made
  | reparse suffix d =>
    rw [change, Traced.value_bind, Traced.value_pure, mapError_eq_ok_iff, parse_eq_ok_iff]
    constructor
    · rintro ⟨s, hs, ht, rfl⟩
      exact .reparse hs (Text.plain.inj (Value.text.inj ht))
    · rintro (_ | _ | ⟨hs, ht⟩)
      exact ⟨_, hs, congrArg Value.plain ht, rfl⟩

theorem after_of_ok {x : Change} (h : (c.change x).value = .ok c') : c.after x = c' := by
  rw [after, h]

theorem after_of_error {x : Change} {fault : ChangeFault} (h : (c.change x).value = .error fault) :
    c.after x = c := by
  rw [after, h]

theorem WellFormed.after (hc : c.WellFormed) (x : Change) : (c.after x).WellFormed := by
  rcases h : (c.change x).value with fault | c'
  · rwa [after_of_error h]
  · rw [after_of_ok h]
    exact (value_change_eq_ok_iff.1 h).wellFormed

/-- The claim there is when all changes have been made. -/
def lastClaim (c : Claim) (run : List (Except ChangeFault Claim × Claim)) : Claim :=
  (run.getLast?.map (·.2)).getD c

theorem lastClaim_cons (c : Claim) (p : Except ChangeFault Claim × Claim)
    (run : List (Except ChangeFault Claim × Claim)) :
    lastClaim c (p :: run) = lastClaim p.2 run := by
  rw [lastClaim, lastClaim, List.getLast?_cons, Option.getD_map]
  rfl

theorem value_changes_cons (c : Claim) (x : Change) (xs : List Change) :
    (c.changes (x :: xs)).value
      = ((c.change x).value, c.after x) :: ((c.after x).changes xs).value := rfl

/-- Changes go on from the claim that earlier ones have left. -/
theorem value_changes_append (ys : List Change) : ∀ (xs : List Change) (c : Claim),
    (c.changes (xs ++ ys)).value = (c.changes xs).value
      ++ ((lastClaim c (c.changes xs).value).changes ys).value
  | [], _ => rfl
  | x :: xs, c => by
    rw [List.cons_append, value_changes_cons, value_changes_cons, lastClaim_cons, List.cons_append,
      value_changes_append ys xs (c.after x)]

theorem wellFormed_lastClaim : ∀ (xs : List Change) {c : Claim}, c.WellFormed →
    (lastClaim c (c.changes xs).value).WellFormed
  | [], _, hc => hc
  | x :: xs, c, hc => by
    rw [value_changes_cons, lastClaim_cons]
    exact wellFormed_lastClaim xs (hc.after x)

/-- What one change comes to: its result, and the claim there is from then on. -/
structure Change.LeadsTo (now : Claim) (x : Change) (result : Except ChangeFault Claim)
    (next : Claim) : Prop where
  verb : isVerbValue (.text next.verb) = true
  subject : isSubjectValue (.text next.subject) = true
  assign : ∀ field v, x = .assign field v → result = .error (.frozen (.assign field))
  erase : ∀ field, x = .erase field → result = .error (.frozen (.erase field))
  /-- A refused change leaves the claim as it was. -/
  refused : ∀ fault, result = .error fault → next = now
  makes : ∀ c', result = .ok c' ↔ Makes now x c'
  made : ∀ c', result = .ok c' → next = c'

theorem leadsTo_after (hc : c.WellFormed) (x : Change) :
    Change.LeadsTo c x (c.change x).value (c.after x) where
  verb := (hc.after x).1
  subject := (hc.after x).2
  assign field v hx := by rw [hx]; rfl
  erase field hx := by rw [hx]; rfl
  refused fault := after_of_error
  makes c' := value_change_eq_ok_iff
  made c' := after_of_ok

/-- A claim that was constructed stays a claim over any run of changes. Whatever was changed before,
the claim there is has a verb and a subject, and the next change either makes another such claim or
is refused and leaves it; to set or to erase a field is always refused. -/
theorem changes_keep_valid (positional : List Value) (named : Fields) {c : Claim}
    (hc : ofArguments positional named = .ok c) (earlier later : List Change) (x : Change) :
    ∃ (now next : Claim) (result : Except ChangeFault Claim),
      (c.changes (earlier ++ x :: later)).value
          = (c.changes earlier).value ++ (result, next) :: (next.changes later).value
        ∧ now = lastClaim c (c.changes earlier).value
        ∧ isVerbValue (.text now.verb) = true ∧ isSubjectValue (.text now.subject) = true
        ∧ Change.LeadsTo now x result next := by
  have hnow := wellFormed_lastClaim earlier (wellFormed_of_ofArguments hc)
  refine ⟨lastClaim c (c.changes earlier).value, _, _, ?_, rfl, hnow.1, hnow.2, leadsTo_after hnow x⟩
  rw [value_changes_append, value_changes_cons]

theorem changes_keep_valid_orgs :
    ofArguments [.plain "read"] [] = .ok ⟨.plain "read", .plain ""⟩
      ∧ isSubjectValue (.plain "orgs") = true
      ∧ ((⟨.plain "read", .plain ""⟩ : Claim).changes
          [.replace [("subject", .plain "orgs")], .assign "subject" (.plain "-")]).value
        = [(.ok ⟨.plain "read", .plain "orgs"⟩, ⟨.plain "read", .plain "orgs"⟩),
          (.error (.frozen (.assign "subject")), ⟨.plain "read", .plain "orgs"⟩)] := by
  have hc : ofArguments [.plain "read"] [] = .ok ⟨.plain "read", .plain ""⟩ := by rfl
  have hfirst : ((⟨.plain "read", .plain ""⟩ : Claim).changes
      [.replace [("subject", .plain "orgs")]]).value
      = [(.ok ⟨.plain "read", .plain "orgs"⟩, ⟨.plain "read", .plain "orgs"⟩)] := by rfl
  obtain ⟨now, next, result, hrun, hnow, -, hsubject, hstep⟩ := changes_keep_valid _ _ hc
    [.replace [("subject", .plain "orgs")]] [] (.assign "subject" (.plain "-"))
  rw [hfirst] at hrun hnow
  have hresult := hstep.assign _ _ rfl
  rw [hresult, hstep.refused _ hresult, hnow] at hrun
  rw [hnow] at hsubject
  exact ⟨hc, hsubject, hrun⟩

end Claim

end PermissionClaims
