import PermissionClaims.Proofs.JsonReading
import PermissionClaims.Proofs.LogLine

/-!
# Extra fields in a line

A line is made from one list of entries, in which a caller's fields come after the record's own and
before its error. So what a line shows of the record itself is, field by field, what the caller has
under that name and else the record's own (`Style.line_json`, `Style.line_plain`). Only the message
is safe, as its name is refused to a caller; the other names are not.
-/

namespace PermissionClaims.Log

/-- What a line shows as the fields of its record. -/
structure OwnFields where
  timestamp : String
  level : String
  logger : String
  message : String
  exception : Option String
  deriving DecidableEq, Repr

namespace OwnFields

/-- Some members of an object have these fields under their names. -/
def Among (x : OwnFields) (members : Named String) : Prop :=
  members.get? "timestamp" = some x.timestamp ∧ members.get? "level" = some x.level
    ∧ members.get? "logger" = some x.logger ∧ members.get? "message" = some x.message
    ∧ members.get? "exception" = x.exception

/-- The plain text of these fields and some extra ones. -/
def plain (x : OwnFields) (extras : Named String) : String :=
  let line := " ".intercalate (["[" ++ x.timestamp ++ "]", x.level, x.logger]
    ++ extras.map (fun e => e.1 ++ "=" ++ e.2) ++ [": " ++ x.message])
  match x.exception with
  | some text => line ++ "\n" ++ text
  | none => line

theorem plainLine_of_among {x : OwnFields} {entries : Named String} (h : x.Among entries)
    (extras : Named String) : Style.plainLine entries extras = x.plain extras := by
  obtain ⟨ht, hl, hg, hm, he⟩ := h
  simp only [Style.plainLine, ht, hl, hg, hm, he]
  rfl

end OwnFields

namespace Record

variable {r : Record} {t m : String}

/-- The text shown of an extra field, the last one of its name. -/
def extra? (r : Record) (name : String) : Option String :=
  (Named.ofSettings r.extraPreviews).get? name

def ownFields (r : Record) (t m : String) : OwnFields :=
  ⟨t, levelName r.level, r.logger, m, r.raised.map Raised.line⟩

/-- The fields of a record under its extra ones. -/
def shownFields (r : Record) (t m : String) : OwnFields where
  timestamp := (r.extra? "timestamp").getD t
  level := (r.extra? "level").getD (levelName r.level)
  logger := (r.extra? "logger").getD r.logger
  message := m
  exception := (r.raised.map Raised.line).or (r.extra? "exception")

/-- No extra field says anything else than the field of the record that has its name. -/
structure SparesOwn (r : Record) (t : String) : Prop where
  timestamp : ∀ text, r.extra? "timestamp" = some text → text = t
  level : ∀ text, r.extra? "level" = some text → text = levelName r.level
  logger : ∀ text, r.extra? "logger" = some text → text = r.logger
  exception : r.raised = none → r.extra? "exception" = none

theorem getD_eq_right_iff {o : Option String} {s : String} :
    o.getD s = s ↔ ∀ text, o = some text → text = s := by
  cases o <;> simp

theorem shownFields_eq_iff : r.shownFields t m = r.ownFields t m ↔ r.SparesOwn t := by
  have he : (r.raised.map Raised.line).or (r.extra? "exception") = r.raised.map Raised.line
      ↔ (r.raised = none → r.extra? "exception" = none) := by
    cases r.raised <;> simp
  rw [shownFields, ownFields, OwnFields.mk.injEq, getD_eq_right_iff, getD_eq_right_iff,
    getD_eq_right_iff, he]
  exact ⟨fun ⟨ht, hl, hg, _, he⟩ => ⟨ht, hl, hg, he⟩,
    fun ⟨ht, hl, hg, he⟩ => ⟨ht, hl, hg, rfl, he⟩⟩

theorem notMem_ownNames (h : r.make = .ok r) {e : String × Value} (he : e ∈ r.extras) :
    e.1 ∉ ownNames := by
  rw [make] at h
  split at h
  · cases h
  · rename_i hn
    simpa using List.find?_eq_none.1 hn e he

theorem make_of_no_extras (h : r.extras = []) : r.make = .ok r := by
  rw [make, h]
  rfl

theorem shownFields_of_no_extras (h : r.extras = []) :
    r.shownFields t m = r.ownFields t m := by
  have hn : ∀ name, r.extra? name = none := by
    intro name
    rw [extra?, extraPreviews_of_no_extras h]
    rfl
  simp [shownFields, ownFields, hn]

theorem extra?_message (h : r.make = .ok r) : r.extra? "message" = none := by
  refine Named.get?_ofSettings_eq_none fun e he hn => ?_
  obtain ⟨f, hf, rfl⟩ := List.mem_map.1 he
  refine notMem_ownNames h (List.mem_of_mem_filter hf) ?_
  rw [show f.1 = "message" from hn]
  decide

end Record

namespace Style

variable {r : Record} {t m : String}

theorem get?_entries (r : Record) (t m name : String) :
    (entries r t m).get? name = ((raisedEntries r).get? name).or
      ((r.extra? name).or ((ownEntries r t m).get? name)) := by
  have hr : Named.ofSettings (raisedEntries r) = raisedEntries r := by
    rw [raisedEntries]
    cases r.raised <;> rfl
  rw [entries, Named.get?_setAll, Named.get?_setAll, hr]
  rfl

theorem nodup_names_entries (r : Record) (t m : String) :
    ((entries r t m).map (·.1)).Nodup := by
  refine Named.nodup_names_setAll _ (Named.nodup_names_setAll _ ?_)
  show ["timestamp", "level", "logger", "message"].Nodup
  decide

theorem get?_raisedEntries (r : Record) (name : String) :
    (raisedEntries r).get? name
      = if name = "exception" then r.raised.map Raised.line else none := by
  rw [raisedEntries]
  cases r.raised with
  | none => simp [Named.get?]
  | some e => exact Named.get?_cons ("exception", e.line) [] name

theorem among_entries (h : r.make = .ok r) (t m : String) :
    (r.shownFields t m).Among (entries r t m) := by
  have ho (o : Option String) (s : String) : o.or (some s) = some (o.getD s) := by
    cases o <;> rfl
  refine ⟨?_, ?_, ?_, ?_, ?_⟩ <;>
    simp [get?_entries, get?_raisedEntries, Record.shownFields, ownEntries, Named.get?_cons, ho,
      Record.extra?_message h]

/-- A JSON line is read back as an object with every name once and the fields under theirs. -/
theorem line_json (h : r.make = .ok r) {pattern : String}
    (ht : timestamp ⟨true, pattern⟩ r.time = .ok t) (hm : r.message = .ok m) :
    ∃ text members, line ⟨true, pattern⟩ r = .ok text ∧ Json.read text.toList = some members
      ∧ (members.map (·.1)).Nodup ∧ (r.shownFields t m).Among members := by
  exact ⟨_, entries r t m, line_of_ok ht hm, Json.read_ofList_ofEntries _,
    nodup_names_entries r t m, among_entries h t m⟩

theorem line_plain (h : r.make = .ok r) {pattern : String}
    (ht : timestamp ⟨false, pattern⟩ r.time = .ok t) (hm : r.message = .ok m) :
    line ⟨false, pattern⟩ r = .ok ((r.shownFields t m).plain r.extraPreviews) := by
  rw [line_of_ok ht hm, OwnFields.plainLine_of_among (among_entries h t m)]
  rfl

/-- Whether there is a line at all does not depend on the extra fields. -/
theorem line_error_iff (s : Style) (r : Record) (extras : Fields) (f : LineFault) :
    s.line { r with extras } = .error f ↔ s.line r = .error f := by
  rcases ht : s.timestamp r.time with f' | t
  · rw [line_of_timestamp_error ht, line_of_timestamp_error (r := { r with extras }) ht]
  · rcases hm : r.message with f' | m
    · rw [line_of_message_error ht hm, line_of_message_error (r := { r with extras }) ht hm]
    · rw [line_of_ok ht hm, line_of_ok (r := { r with extras }) ht hm]
      simp

end Style

/-- What a line shows as the fields of its record, in both formats, are the extra fields of their
names, except the message, and else the record's own; an error is shown if the record carries one or
else if there is an extra field of that name. These are the record's own, whatever the extra fields
are, if and only if no extra field says anything else than the field whose place it takes. Whether
there is a line does not depend on the extra fields. -/
theorem own_fields_shown_iff (pattern : String) (r : Record) (extras : Fields)
    (h : ({ r with extras } : Record).make = .ok { r with extras }) :
    (∀ t m : String, Style.timestamp ⟨false, pattern⟩ r.time = .ok t → r.message = .ok m →
      ∃ (shown : OwnFields) (text : String) (members : Named String),
        Style.line ⟨false, pattern⟩ { r with extras }
            = .ok (shown.plain ({ r with extras } : Record).extraPreviews)
          ∧ Style.line ⟨true, pattern⟩ { r with extras } = .ok text
          ∧ Json.read text.toList = some members
          ∧ (members.map (·.1)).Nodup ∧ shown.Among members
          ∧ shown = ({ r with extras } : Record).shownFields t m
          ∧ shown.message = m
          ∧ (shown = r.ownFields t m ↔ ({ r with extras } : Record).SparesOwn t))
    ∧ ∀ (json : Bool) (f : LineFault), Style.line ⟨json, pattern⟩ { r with extras } = .error f
      ↔ Style.line ⟨json, pattern⟩ r = .error f := by
  refine ⟨fun t m ht hm => ?_, fun json f => Style.line_error_iff _ r extras f⟩
  obtain ⟨text, members, hl, hr, hn, hx⟩ := Style.line_json h ht hm
  exact ⟨_, text, members, Style.line_plain h ht hm, hl, hr, hn, hx, rfl, rfl,
    Record.shownFields_eq_iff⟩

theorem own_fields_shown_iff_fake :
    let r : Record := ⟨"claimcore.test", .ofByte 30, .plain "x", [], [], none, 0⟩
    let named : Record := { r with extras := [("logger", .plain "fake")] }
    named.make = .ok named ∧ r.message = .ok "x" ∧ ∃ (t : String) (shown : OwnFields),
      Style.timestamp ⟨false, ""⟩ r.time = .ok t
        ∧ Style.line ⟨false, ""⟩ named = .ok (shown.plain named.extraPreviews)
        ∧ shown.message = "x" ∧ shown ≠ r.ownFields t "x" := by
  intro r named
  obtain ⟨seconds, hs⟩ : ∃ seconds, Time.seconds 0 = .ok seconds := Time.exists_seconds (by decide)
  obtain ⟨t, ht, -⟩ := Style.exists_timestamp false hs
  obtain ⟨shown, -, -, hl, -, -, -, -, -, hm, hi⟩ :=
    (own_fields_shown_iff "" r [("logger", .plain "fake")] rfl).1 t "x" ht rfl
  have hp : String.ofList (preview defaultLimit (.plain "fake")) = "'fake'" := by decide
  have he : named.extra? "logger" = some "'fake'" := by
    rw [← hp]
    rfl
  refine ⟨rfl, rfl, t, shown, ht, hl, hm, fun h => ?_⟩
  exact absurd ((hi.1 h).logger _ he) (by decide)

/-- A field of a caller can take the place of the logger, and one can be an error that the record
does not carry. -/
theorem logger_replaced_by_extra :
    let r : Record := ⟨"claimcore.test", .ofByte 30, .plain "x", [], [], none, 0⟩
    let named : Record := { r with extras := [("logger", .plain "fake")] }
    let failed : Record := { r with extras := [("exception", .plain "fake")] }
    named.make = .ok named ∧ failed.make = .ok failed ∧ ∃ t : String,
      Style.line ⟨false, ""⟩ r = .ok ("[" ++ t ++ "] WARNING claimcore.test : x")
        ∧ Style.line ⟨false, ""⟩ named
          = .ok ("[" ++ t ++ "] WARNING 'fake' logger='fake' : x")
        ∧ Style.line ⟨false, ""⟩ failed
          = .ok ("[" ++ t ++ "] WARNING claimcore.test exception='fake' : x\n'fake'")
        ∧ ∃ text members, Style.line ⟨true, ""⟩ named = .ok text
          ∧ Json.read text.toList = some members
          ∧ Named.get? members "logger" = some "'fake'" := by
  intro r named failed
  obtain ⟨seconds, hs⟩ : ∃ seconds, Time.seconds 0 = .ok seconds := Time.exists_seconds (by decide)
  obtain ⟨t, ht, -⟩ := Style.exists_timestamp false hs
  have hp : String.ofList (preview defaultLimit (.plain "fake")) = "'fake'" := by decide
  have hr : r.shownFields t "x" = ⟨t, "WARNING", "claimcore.test", "x", none⟩ := rfl
  have hn : named.shownFields t "x" = ⟨t, "WARNING", "'fake'", "x", none⟩ := by
    rw [← hp]
    rfl
  have hf : failed.shownFields t "x" = ⟨t, "WARNING", "claimcore.test", "x", some "'fake'"⟩ := by
    rw [← hp]
    rfl
  refine ⟨rfl, rfl, t, ?_, ?_, ?_, ?_⟩
  · rw [Style.line_plain (r := r) (m := "x") rfl ht rfl, hr]
    simp [OwnFields.plain, Record.extraPreviews, r, ← String.toList_inj]
  · rw [Style.line_plain (r := named) (m := "x") rfl ht rfl, hn]
    have he : named.extraPreviews = [("logger", "'fake'")] := by rw [← hp]; rfl
    simp [OwnFields.plain, he, ← String.toList_inj]
  · rw [Style.line_plain (r := failed) (m := "x") rfl ht rfl, hf]
    have he : failed.extraPreviews = [("exception", "'fake'")] := by rw [← hp]; rfl
    simp [OwnFields.plain, he, ← String.toList_inj]
  · obtain ⟨text, members, hl, hm, -, -, -, hg, -⟩ :=
      Style.line_json (r := named) (m := "x") rfl ht rfl
    exact ⟨text, members, hl, hm, hg.trans (by rw [hn])⟩

end PermissionClaims.Log
