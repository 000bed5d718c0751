import PermissionClaims.Proofs.WholeReading

/-!
# What permissions hold

Permissions hold what a reading of their claim texts comes to: the elements that a reading would
fail on are passed over before it starts (`parseMany_filter_isValid`). Each of them is reported
twice, first by the parser and then as a permission that cannot be used, in the order of the
elements (`seen_heldClaims`).
-/

namespace PermissionClaims.Access

open Claim Grammar Log

variable {d : Dialect} {permissions : Value} {ps : List Value} {c : Claim}

theorem mem_held_iff_filter :
    c ∈ held d ps ↔ ∃ p ∈ ps.filter (isValid d), (parse d p).value = .ok c := by
  rw [mem_held_iff]
  constructor
  · rintro ⟨p, hp, hc⟩
    exact ⟨p, List.mem_filter.2 ⟨hp, isValid_iff_exists_parse.2 ⟨c, hc⟩⟩, hc⟩
  · rintro ⟨p, hp, hc⟩
    exact ⟨p, List.mem_of_mem_filter hp, hc⟩

/-- What is held is read from the claim texts alone, none of which a reading fails on. -/
theorem parseMany_filter_isValid (d : Dialect) (ps : List Value) :
    parseMany d (ps.filter (isValid d))
      = ⟨[], ⟨.ok (held d ps), (ps.filter (isValid d)).length⟩⟩ := by
  have hall : ∀ p ∈ ps.filter (isValid d), ∃ c, (parse d p).value = .ok c := fun p hp =>
    isValid_iff_exists_parse.1 (List.mem_filter.1 hp).2
  obtain ⟨cs, hcs, hlt, hmem⟩ := parseMany_of_all hall
  have he : cs = held d ps :=
    eq_of_pairwise_lt hlt pairwise_distinctSorted fun c => (hmem c).trans mem_held_iff_filter.symm
  rw [hcs, he]

/-- The records about a value that is no claim text: the parser's, for debugging, and behind it one
that says what comes of it, at some level and in some words. -/
def refusal (level : Int) (words : String) (v : Value) :
    List (String × Int × Except Template.Fault String) :=
  let shown := String.ofList (preview 240 v)
  [("claimcore.claims.parser", 10, .ok ("rejected claim text " ++ shown)),
    ("claimcore.claims.access", level, .ok (words ++ shown))]

theorem seen_refusal {n : Notice} {words : String} {v : Value} (time : Int)
    (hl : n.logger = "claimcore.claims.access") (hw : n.frame = (words, "")) (hv : n.subject = v) :
    [Notice.rejected v, n].map (fun n => (Record.ofNotice time n).seen)
      = refusal n.level.severity words v := by
  have hm : n.message = words ++ String.ofList (preview 240 v) := by
    rw [Notice.message, hw, hv, String.append_empty]
    rfl
  have hr : (Notice.rejected v).message
      = "rejected claim text " ++ String.ofList (preview 240 v) := String.append_empty
  simp only [List.map_cons, List.map_nil, Notice.seen_ofNotice, hl, hm, hr]
  rfl

theorem seen_heldClaims (hps : permissions.elements = .ok ps) (d : Dialect) (time : Int) :
    (heldClaims d permissions).notices.map (fun n => (Record.ofNotice time n).seen)
      = (ps.filter fun p => !isValid d p).flatMap
        (refusal 30 "ignoring malformed permission ") := by
  have hseen : ∀ p, [Notice.rejected p, .ignored p].map (fun n => (Record.ofNotice time n).seen)
      = refusal 30 "ignoring malformed permission " p := fun _ => seen_refusal time rfl rfl rfl
  rw [notices_heldClaims, Value.elements_eq_ok_iff.1 hps, Option.getD_some, List.map_flatMap]
  simp only [hseen]

/-- Permissions hold the claims of the claim texts among them, as a reading of these finds them,
and of all of them if there is nothing else. Each of the other elements is reported by the parser
and then passed over with a warning, and nothing else is reported. -/
theorem heldClaims_eq_reading_of_valid (d : Dialect) {permissions : Value} {ps : List Value}
    (hps : permissions.elements = .ok ps) :
    ∃ claims : List Claim, (heldClaims d permissions).value = .ok claims
      ∧ parseElements d (.list (ps.filter (isValid d)))
        = ⟨[], .ok ⟨.ok claims, (ps.filter (isValid d)).length⟩⟩
      ∧ ((∀ p ∈ ps, isValid d p = true) →
        parseElements d permissions = ⟨[], .ok ⟨.ok claims, ps.length⟩⟩)
      ∧ (claims.Pairwise fun a b => a.verb.content < b.verb.content
        ∨ a.verb.content = b.verb.content ∧ a.subject.content < b.subject.content)
      ∧ ∀ time : Int,
        (heldClaims d permissions).notices.map (fun n => (Record.ofNotice time n).seen)
          = (ps.filter fun p => !isValid d p).flatMap
            (refusal 30 "ignoring malformed permission ") := by
  refine ⟨held d ps, value_heldClaims hps, ?_, fun hall => ?_, ?_, seen_heldClaims hps d⟩
  · rw [parseElements_eq rfl, parseMany_filter_isValid]
    rfl
  · have hread := parseMany_filter_isValid d ps
    rw [List.filter_eq_self.2 hall] at hread
    rw [parseElements_eq hps, hread]
    rfl
  · refine pairwise_distinctSorted.imp fun hab => ?_
    simpa [lt] using hab

theorem heldClaims_eq_reading_of_valid_read :
    let ps : List Value :=
      [.plain "read:b.*", .int (.ofByte 7), .plain "read:*", .plain "read:b", .null]
    (Value.tuple ps).elements = .ok ps
      ∧ parseElements .strict (.list [.plain "read:b.*", .plain "read:*", .plain "read:b"])
        = ⟨[], .ok ⟨.ok [⟨.plain "read", .plain ""⟩, ⟨.plain "read", .plain "b"⟩], 3⟩⟩
      ∧ (heldClaims .strict (.tuple ps)).notices.map (fun n => (Record.ofNotice 0 n).seen)
        = [("claimcore.claims.parser", 10, .ok "rejected claim text 7"),
          ("claimcore.claims.access", 30, .ok "ignoring malformed permission 7"),
          ("claimcore.claims.parser", 10, .ok "rejected claim text "),
          ("claimcore.claims.access", 30, .ok "ignoring malformed permission ")] := by
  intro ps
  have hps : (Value.tuple ps).elements = .ok ps := rfl
  have hheld : (heldClaims .strict (.tuple ps)).value
      = .ok [⟨.plain "read", .plain ""⟩, ⟨.plain "read", .plain "b"⟩] := by rfl
  obtain ⟨claims, hc, hread, -, -, hseen⟩ := heldClaims_eq_reading_of_valid .strict hps
  rw [hheld, Except.ok.injEq] at hc
  subst hc
  exact ⟨hps, hread, hseen 0⟩

end PermissionClaims.Access
