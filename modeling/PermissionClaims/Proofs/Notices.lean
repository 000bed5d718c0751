import PermissionClaims.Log.Call
import PermissionClaims.Log.Loggers
import PermissionClaims.Proofs.Components
import PermissionClaims.Proofs.PrintableValue

/-!
# What a call reports

The notices of a call are known from the values that are no claim text among those it was given
(`notices_parse` and the like), and each is about one of them (`Call.subject_mem_given`).

What a notice says is put together from the words of its template and a preview. A template whose
places are all `%s` is filled with texts as they are (`Template.fill_places`), so a percent sign in
a preview starts no place, and the message is printable because the words and the preview are.
-/

namespace PermissionClaims

namespace Template

theorem piecesFrom_literals (length : Nat) (rest : List Char) : ∀ {cs : List Char}, '%' ∉ cs →
    piecesFrom length (cs ++ rest) = cs.map .literal ++ piecesFrom length rest
  | [], _ => rfl
  | c :: cs, h => by
    rw [List.mem_cons, not_or] at h
    rw [List.cons_append, piecesFrom, piecesFrom_literals length rest h.2]
    · rfl
    · exact fun _ hc _ => h.1 hc.symm
    · exact fun hc => h.1 hc.symm

def textPlace (index : Nat) : Place :=
  ⟨.none, flagsOf [], none, none, some 's', index⟩

theorem piecesFrom_place (length : Nat) (rest : List Char) :
    ∃ index, piecesFrom length ('%' :: 's' :: rest)
      = .place (textPlace index) :: piecesFrom length rest := by
  have hr : readPlace length ('s' :: rest) = (textPlace (length - rest.length - 1), rest) := by
    simp [readPlace, readKey, readWidth, readPrecision, skipSize, isFlag, textPlace]
  refine ⟨length - rest.length - 1, ?_⟩
  rw [piecesFrom, hr]
  exact fun _ h => by simp at h

theorem fillPieces_literals (rest : List Piece) (vs : Values) : ∀ cs : List Char,
    fillPieces (cs.map .literal ++ rest) vs = (cs ++ ·) <$> fillPieces rest vs
  | [] => by simp
  | c :: cs => by
    rw [List.map_cons, List.cons_append, fillPieces, fillPieces_literals rest vs cs]
    cases fillPieces rest vs <;> rfl

/-- A text goes into its place as it is. -/
theorem fillPieces_text (index : Nat) (rest : List Piece) (v : Value) (vs : List Value) :
    fillPieces (.place (textPlace index) :: rest) ⟨none, v :: vs⟩
      = (v.display ++ ·) <$> fillPieces rest ⟨none, vs⟩ := by
  have hw : (Written.text v.display).fill false false 0 = v.display := by
    simp [Written.fill, Written.text]
  have hp : fillPlace (textPlace index) ⟨none, v :: vs⟩ = .ok (v.display, ⟨none, vs⟩) := by
    show Except.ok ((Written.text v.display).fill false false 0, _) = _
    rw [hw]
  rw [fillPieces, hp]
  rfl

theorem fillPieces_places (length : Nat) {last : List Char} (hl : '%' ∉ last) :
    ∀ {parts : List (List Char × String)}, (∀ p ∈ parts, '%' ∉ p.1) →
      fillPieces (piecesFrom length (parts.flatMap (fun p => p.1 ++ ['%', 's']) ++ last))
          ⟨none, parts.map fun p => .plain p.2⟩
        = .ok (parts.flatMap (fun p => p.1 ++ p.2.toList) ++ last)
  | [], _ => by
    have h := piecesFrom_literals length [] hl
    rw [List.append_nil] at h
    rw [List.flatMap_nil, List.nil_append, h, fillPieces_literals]
    simp [piecesFrom, fillPieces]
  | p :: parts, hw => by
    obtain ⟨hp, hps⟩ := List.forall_mem_cons.1 hw
    obtain ⟨index, hi⟩ := piecesFrom_place length
      (parts.flatMap (fun p => p.1 ++ ['%', 's']) ++ last)
    have ht : Value.display (.plain p.2) = p.2.toList := rfl
    have hc : (p :: parts).flatMap (fun p => p.1 ++ ['%', 's']) ++ last
        = p.1 ++ '%' :: 's' :: (parts.flatMap (fun p => p.1 ++ ['%', 's']) ++ last) := by
      simp
    rw [hc, List.map_cons, piecesFrom_literals length _ hp, hi, fillPieces_literals,
      fillPieces_text, fillPieces_places length hl hps, ht]
    simp

/-- A template whose places are all `%s` is filled with texts that are put there as they are,
whatever percent signs they have. -/
theorem fill_places {last : List Char} (hl : '%' ∉ last) {parts : List (List Char × String)}
    (hw : ∀ p ∈ parts, '%' ∉ p.1) :
    fill (parts.flatMap (fun p => p.1 ++ ['%', 's']) ++ last) (parts.map fun p => .plain p.2)
      = .ok (parts.flatMap (fun p => p.1 ++ p.2.toList) ++ last) := by
  have hv : Values.ofList (parts.map fun p => .plain p.2)
      = ⟨none, parts.map fun p => .plain p.2⟩ := by
    rcases parts with _ | ⟨p, _ | ⟨q, parts⟩⟩ <;> rfl
  rw [fill, hv, pieces, fillPieces_places _ hl hw]

end Template

namespace Log

open Text

/-- What is seen of a record: its logger, its level and its message. -/
def Record.seen (r : Record) : String × Int × Except Template.Fault String :=
  (r.logger, r.level.toInt, r.message)

namespace Notice

/-- The words of a notice's template, each with the text that comes after it, and the last ones. -/
def parts (n : Notice) : List (List Char × String) × List Char :=
  let shown := String.ofList (preview defaultLimit n.subject)
  match n with
  | rejected _ => ([("rejected claim text ".toList, shown)], [])
  | unrelated _ r =>
    ([("invalid query ".toList, shown), (" for ".toList, r.name)], ", no relation".toList)
  | unmatched _ => ([("invalid query ".toList, shown)], ", nothing matches".toList)
  | denied _ => ([("denying malformed request ".toList, shown)], [])
  | ignored _ => ([("ignoring malformed permission ".toList, shown)], [])

theorem toList_template (n : Notice) :
    n.template.toList = n.parts.1.flatMap (fun p => p.1 ++ ['%', 's']) ++ n.parts.2 := by
  cases n <;> simp [template, parts]

theorem fillings_eq (n : Notice) : n.fillings = n.parts.1.map (·.2) := by
  cases n <;> rfl

theorem toList_message (n : Notice) :
    n.message.toList = n.parts.1.flatMap (fun p => p.1 ++ p.2.toList) ++ n.parts.2 := by
  cases n <;> simp [message, frame, parts, subject]

theorem percent_notMem_parts (n : Notice) :
    '%' ∉ n.parts.2 ∧ ∀ p ∈ n.parts.1, '%' ∉ p.1 := by
  cases n <;> simp [parts]

/-- The template of a notice's record is filled to the message of the notice. -/
theorem message_ofNotice (time : Int) (n : Notice) :
    (Record.ofNotice time n).message = .ok n.message := by
  have hf := Template.fill_places n.percent_notMem_parts.1 n.percent_notMem_parts.2
  rw [← n.toList_template, ← n.toList_message] at hf
  have hv : (Record.ofNotice time n).values = n.parts.1.map fun p => .plain p.2 := by
    simp [Record.ofNotice, fillings_eq, Function.comp_def]
  have hd : (Record.ofNotice time n).template.display = n.template.toList := rfl
  have hm : (Record.ofNotice time n).message
      = (Template.fill n.template.toList (n.parts.1.map fun p => .plain p.2)).map
        String.ofList := by
    rw [Record.message, hv, hd]
    cases n <;> rfl
  rw [hm, hf]
  simp [Except.map]

theorem seen_ofNotice (time : Int) (n : Notice) :
    (Record.ofNotice time n).seen = (n.logger, n.level.severity, .ok n.message) := by
  rw [Record.seen, message_ofNotice]
  rfl

-- a percent sign in what is shown starts no place
example : (Record.ofNotice 0 (.rejected (.plain "a%s\n"))).message
    = .ok "rejected claim text 'a%s\\n'" := by
  rw [message_ofNotice]
  decide

/-- The words that stand around a preview. -/
def frames : List (String × String) :=
  [("rejected claim text ", ""), ("invalid query ", " for exact, no relation"),
    ("invalid query ", " for check, no relation"),
    ("invalid query ", " for direct_child, no relation"),
    ("invalid query ", " for direct_descendant, no relation"),
    ("invalid query ", ", nothing matches"), ("denying malformed request ", ""),
    ("ignoring malformed permission ", "")]

theorem frame_mem_frames (n : Notice) : n.frame ∈ frames := by
  cases n with
  | unrelated v r => cases r <;> simp [frame, frames, Relation.name]
  | _ => simp [frame, frames]

def loggers : List String :=
  ["claimcore.claims.parser", "claimcore.claims.algebra", "claimcore.claims.sets",
    "claimcore.claims.access"]

theorem logger_mem_loggers (n : Notice) : n.logger ∈ loggers := by
  cases n <;> simp [logger, loggers]

theorem isRoot_logger (n : Notice) : isRoot n.logger = false := by
  have hr : ∀ name ∈ loggers, isRoot name = false := by decide
  exact hr _ n.logger_mem_loggers

theorem printable_logger (n : Notice) : Printable n.logger.toList := by
  have hp : ∀ name ∈ loggers, Printable name.toList := by decide
  exact hp _ n.logger_mem_loggers

theorem printable_frames : ∀ f ∈ frames, Printable f.1.toList ∧ Printable f.2.toList := by
  decide

theorem printable_message (n : Notice) : Printable n.message.toList := by
  obtain ⟨hb, ha⟩ := printable_frames _ n.frame_mem_frames
  simp [message, hb, ha, printable_preview]

/-- A message about a value: fixed words around what is shown of it. -/
def Shows (v : Value) (message : String) : Prop :=
  ∃ frame ∈ frames, ∃ shown : List Char, (shown.length ≤ 240 ∧ shown = preview 240 v)
    ∧ message = frame.1 ++ String.ofList shown ++ frame.2 ∧ Printable message.toList

theorem shows_message (n : Notice) : Shows n.subject n.message := by
  have hl : ((preview 240 n.subject).length : Int) ≤ 240 := length_preview_le (by decide) _
  exact ⟨n.frame, n.frame_mem_frames, preview 240 n.subject, ⟨by omega, rfl⟩, rfl,
    n.printable_message⟩

end Notice

/-! ## The notices of a call -/

open Claim Grammar Access

variable {d : Dialect} {v : Value} {c : Claim}

theorem notices_parse (d : Dialect) (v : Value) :
    (parse d v).notices = if isValid d v then [] else [.rejected v] := by
  unfold parse isValid
  rcases matchValue? d v with _ | ⟨verb, raw⟩ <;> rfl

theorem parse_of_ok (h : (parse d v).value = .ok c) : parse d v = ⟨[], .ok c⟩ := by
  have hv : isValid d v = true := isValid_iff_exists_parse.2 ⟨c, h⟩
  have hn : (parse d v).notices = [] := by rw [notices_parse, if_pos hv]
  exact congrArg₂ Traced.mk hn h

theorem parse_of_error {fault : ClaimFault} (h : (parse d v).value = .error fault) :
    parse d v = ⟨[.rejected v], .error fault⟩ := by
  have hv : ¬ isValid d v = true := by
    rw [(value_parse_eq_error_iff.1 h).1]
    exact Bool.false_ne_true
  have hn : (parse d v).notices = [.rejected v] := by rw [notices_parse, if_neg hv]
  exact congrArg₂ Traced.mk hn h

theorem readAll_cons_ok (h : (parse d v).value = .ok c) (vs : List Value) :
    readAll d (v :: vs) = ⟨(readAll d vs).notices,
      ⟨(readAll d vs).value.result.map (c :: ·), (readAll d vs).value.taken + 1⟩⟩ := by
  rw [readAll, parse_of_ok h]
  exact congrArg (Traced.mk · _) (List.append_nil _)

theorem readAll_cons_error {fault : ClaimFault} (h : (parse d v).value = .error fault)
    (vs : List Value) : readAll d (v :: vs) = ⟨[.rejected v], ⟨.error fault, 1⟩⟩ := by
  rw [readAll, parse_of_error h]
  rfl

theorem notices_readAll (d : Dialect) (vs : List Value) :
    (readAll d vs).notices = ((vs.find? fun v => !isValid d v).map .rejected).toList := by
  induction vs with
  | nil => rfl
  | cons v vs ih =>
    cases hv : isValid d v
    · rw [readAll_cons_error (value_parse_of_not_valid hv)]
      simp [hv]
    · obtain ⟨c, hc⟩ := isValid_iff_exists_parse.1 hv
      rw [readAll_cons_ok hc]
      simp [hv, ih]

theorem notices_readValid (d : Dialect) (vs : List Value) :
    (readValid d vs).notices
      = (vs.filter fun v => !isValid d v).flatMap fun v => [.rejected v, .ignored v] := by
  induction vs with
  | nil => rfl
  | cons v vs ih =>
    cases hv : isValid d v
    · rw [readValid, Traced.notices_bind, notices_parse, value_parse_of_not_valid hv]
      simp [hv, ih]
    · obtain ⟨c, hc⟩ := isValid_iff_exists_parse.1 hv
      rw [readValid, Traced.notices_bind, notices_parse, hc]
      simp [hv, ih]

theorem notices_parseElements (d : Dialect) (texts : Value) :
    (parseElements d texts).notices
      = (((texts.elements?.getD []).find? fun v => !isValid d v).map .rejected).toList := by
  unfold parseElements Value.elements
  rcases texts.elements? with _ | vs
  · rfl
  · simp [parseMany, notices_readAll]

theorem notices_heldClaims (d : Dialect) (permissions : Value) :
    (heldClaims d permissions).notices
      = ((permissions.elements?.getD []).filter fun v => !isValid d v).flatMap
        fun v => [.rejected v, .ignored v] := by
  unfold heldClaims Value.elements
  rcases permissions.elements? with _ | vs
  · rfl
  · simp [notices_readValid]

/-- Where something is refused, the parser has given a notice on the same value before. -/
theorem subject_of_mem_pair {m n : Notice} (h : n ∈ [.rejected m.subject, m]) :
    n.subject = m.subject := by
  rcases List.mem_pair.1 h with rfl | rfl <;> rfl

theorem subject_mem_of_mem_heldClaims {permissions : Value} {n : Notice}
    (h : n ∈ (heldClaims d permissions).notices) : n.subject ∈ permissions.elements?.getD [] := by
  rw [notices_heldClaims, List.mem_flatMap] at h
  obtain ⟨v, hv, hn⟩ := h
  have hs : n.subject = v := subject_of_mem_pair (m := .ignored v) hn
  exact hs ▸ List.mem_of_mem_filter hv

section Answers

variable {α : Type} {otherwise : α}

theorem notices_relateText (relation : Relation) (answer : Claim → α) (d : Dialect)
    (query : Value) :
    (relateText relation answer otherwise d query).notices
      = if isValid d query then [] else [.rejected query, .unrelated query relation] := by
  cases hq : isValid d query
  · simp [relateText, notices_parse, value_parse_of_not_valid hq, hq]
  · obtain ⟨c, hc⟩ := isValid_iff_exists_parse.1 hq
    simp [relateText, notices_parse, hc, hq]

theorem notices_matchText (answer : Claim → α) (d : Dialect) (query : Value) :
    (matchText answer otherwise d query).notices
      = if isValid d query then [] else [.rejected query, .unmatched query] := by
  cases hq : isValid d query
  · simp [matchText, notices_parse, value_parse_of_not_valid hq, hq]
  · obtain ⟨c, hc⟩ := isValid_iff_exists_parse.1 hq
    simp [matchText, notices_parse, hc, hq]

theorem notices_respond (answer : List Claim → Claim → α) (d : Dialect)
    (permissions request : Value) :
    (respond answer otherwise d permissions request).notices
      = if isValid d request then (heldClaims d permissions).notices
        else [.rejected request, .denied request] := by
  cases hr : isValid d request
  · simp [respond, notices_parse, value_parse_of_not_valid hr, hr]
  · obtain ⟨c, hc⟩ := isValid_iff_exists_parse.1 hr
    simp [respond, notices_parse, hc, hr]

theorem subject_of_mem_relateText {relation : Relation} {answer : Claim → α} {query : Value}
    {n : Notice} (h : n ∈ (relateText relation answer otherwise d query).notices) :
    n.subject = query := by
  rw [notices_relateText] at h
  split at h
  · simp at h
  · exact subject_of_mem_pair (m := .unrelated query relation) h

theorem subject_of_mem_matchText {answer : Claim → α} {query : Value} {n : Notice}
    (h : n ∈ (matchText answer otherwise d query).notices) : n.subject = query := by
  rw [notices_matchText] at h
  split at h
  · simp at h
  · exact subject_of_mem_pair (m := .unmatched query) h

theorem subject_mem_of_mem_respond {answer : List Claim → Claim → α}
    {permissions request : Value} {n : Notice}
    (h : n ∈ (respond answer otherwise d permissions request).notices) :
    n.subject ∈ request :: permissions.elements?.getD [] := by
  rw [notices_respond] at h
  split at h
  · exact List.mem_cons_of_mem _ (subject_mem_of_mem_heldClaims h)
  · exact List.mem_cons.2 (.inl (subject_of_mem_pair (m := .denied request) h))

end Answers

namespace Call

/-- The values from outside that a call is about: a single text, or a request and the elements of a
collection. -/
def given : Call → List Value
  | parse _ v => [v]
  | parseMany _ texts => texts.elements?.getD []
  | exactText _ _ query => [query]
  | checkText _ _ query => [query]
  | directChildText _ _ query => [query]
  | directDescendantText _ _ query => [query]
  | childrenText _ _ query => [query]
  | descendantsText _ _ query => [query]
  | checkAnyText _ _ query => [query]
  | heldClaims _ permissions => permissions.elements?.getD []
  | hasAccess _ permissions request => request :: permissions.elements?.getD []
  | visibleChildren _ permissions request => request :: permissions.elements?.getD []
  | visibleDescendants _ permissions request => request :: permissions.elements?.getD []

@[simp] theorem notices_truthCall (x : Traced Bool) : (truthCall x).notices = x.notices :=
  Traced.notices_map _ x

@[simp] theorem notices_doneCall {α : Type} (x : Traced α) : (doneCall x).notices = x.notices :=
  Traced.notices_map _ x

@[simp] theorem notices_elementsCall {α : Type} (answer : α → Answer)
    (x : Traced (Except NoElements α)) : (elementsCall answer x).notices = x.notices :=
  Traced.notices_map _ x

theorem notices_parseCall (d : Dialect) (v : Value) :
    (parseCall d v).notices = (Claim.parse d v).notices :=
  List.append_nil _

theorem notices_parseManyCall (d : Dialect) (texts : Value) :
    (parseManyCall d texts).notices = (parseElements d texts).notices := by
  unfold parseManyCall
  rw [Traced.notices_bind]
  cases (parseElements d texts).value <;> simp

/-- Every notice of a call is about a value that the call was given. -/
theorem subject_mem_given {x : Call} {n : Notice} (h : n ∈ x.run.notices) :
    n.subject ∈ x.given := by
  cases x
  case parse d v =>
    rw [run, notices_parseCall, notices_parse] at h
    split at h
    · simp at h
    · rw [List.mem_singleton.1 h]
      exact List.mem_singleton_self v
  case parseMany d texts =>
    rw [run, notices_parseManyCall, notices_parseElements, Option.mem_toList] at h
    obtain ⟨v, hv, rfl⟩ := Option.map_eq_some_iff.1 h
    exact List.mem_of_find?_eq_some hv
  case exactText | checkText | directChildText | directDescendantText =>
    simp only [run, notices_truthCall, notices_doneCall] at h
    exact List.mem_singleton.2 (subject_of_mem_relateText h)
  case childrenText | descendantsText | checkAnyText =>
    simp only [run, notices_truthCall, notices_doneCall] at h
    exact List.mem_singleton.2 (subject_of_mem_matchText h)
  case heldClaims =>
    rw [run, notices_elementsCall] at h
    exact subject_mem_of_mem_heldClaims h
  case hasAccess | visibleChildren | visibleDescendants =>
    rw [run, notices_elementsCall] at h
    exact subject_mem_of_mem_respond h

end Call

end Log

end PermissionClaims
