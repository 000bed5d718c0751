import PermissionClaims.Proofs.LineFields

/-!
# What a JSON line says

A JSON line is one line, as no control character is left in it (`Json.no_control_ofEntries`), and
is read back as the entries that it was made from. These say of every name what the error of the
record says under it, or else the caller's field of that name, or else the record itself
(`Record.said?`). Of the names that are reserved for what every record has, the caller could give
only one, and it is not shown (`Record.extra?_eq_shownExtra?`).
-/

namespace PermissionClaims.Log

namespace Record

variable {r : Record} {t m : String}

/-- The names of what a record can have of its own, under which nothing is shown as a caller's
field. -/
def reservedNames : List String :=
  ["name", "msg", "args", "created", "filename", "funcName", "levelname", "levelno", "lineno",
    "module", "msecs", "message", "pathname", "process", "processName", "relativeCreated", "thread",
    "threadName", "exc_info", "exc_text", "stack_info", "taskName"]

/-- What is shown of the caller's field of a name, the last one if there are several. -/
def shownExtra? (r : Record) (name : String) : Option String :=
  if name ∈ reservedNames then none
  else (Named.get? r.extras.reverse name).map fun v => String.ofList (preview defaultLimit v)

/-- What a line has under a name, for a record with its time and message as texts: what the record
carries of an error comes before the caller's fields, and these before the record's own. -/
def said? (r : Record) (t m name : String) : Option String :=
  let own : Named String :=
    [("timestamp", t), ("level", levelName r.level), ("logger", r.logger), ("message", m)]
  ((if name = "exception" then r.raised.map Raised.line else none).or (r.shownExtra? name)).or
    (own.get? name)

theorem mem_of_mem_reservedNames : ∀ name ∈ reservedNames, name = hiddenName ∨ name ∈ ownNames := by
  decide

theorem extra?_eq_shownExtra? (h : r.make = .ok r) (name : String) :
    r.extra? name = r.shownExtra? name := by
  unfold extra? shownExtra?
  split_ifs with hn
  · refine Named.get?_ofSettings_eq_none fun e he hen => ?_
    obtain ⟨f, hf, rfl⟩ := List.mem_map.1 he
    obtain ⟨hf, hhidden⟩ := List.mem_filter.1 hf
    rcases mem_of_mem_reservedNames name hn with hh | ho
    · exact of_decide_eq_true hhidden (hen.trans hh)
    · exact notMem_ownNames h hf (show f.1 ∈ ownNames from hen ▸ ho)
  · have hhidden : name ≠ hiddenName := by
      rintro rfl
      exact hn (by decide)
    rw [Named.get?_ofSettings, extraPreviews, ← List.map_reverse,
      Named.get?_map fun v => String.ofList (preview defaultLimit v), ← List.filter_reverse,
      Named.get?_filter]
    rintro e - rfl
    exact decide_eq_true hhidden

theorem get?_entries_eq_said? (h : r.make = .ok r) (t m name : String) :
    (Style.entries r t m).get? name = r.said? t m name := by
  rw [Style.get?_entries, Style.get?_raisedEntries, extra?_eq_shownExtra? h, said?, Option.or_assoc,
    Style.ownEntries]

end Record

theorem Style.exists_line_iff {s : Style} {r : Record} :
    (∃ text, s.line r = .ok text)
      ↔ (∃ t, s.timestamp r.time = .ok t) ∧ ∃ m, r.message = .ok m := by
  rcases ht : s.timestamp r.time with f | t
  · simp [line_of_timestamp_error ht]
  · rcases hm : r.message with f | m
    · simp [line_of_message_error ht hm]
    · simp [line_of_ok ht hm]

/-- The JSON line of a record is without control characters, and is read as an object that has every
name once and under it what the record carries of an error, what the caller gave, or else what the
record says of itself. There is a line as soon as the record has a time that can be written and a
message. -/
theorem json_line_decodes (pattern : String) (r : Record) (h : r.make = .ok r) :
    (∀ t m : String, Style.timestamp ⟨true, pattern⟩ r.time = .ok t → r.message = .ok m →
      ∃ (text : String) (members : Named String),
        Style.line ⟨true, pattern⟩ r = .ok text
          ∧ (∀ c ∈ text.toList, 0x20 ≤ c.toNat)
          ∧ Json.read text.toList = some members
          ∧ (members.map (·.1)).Nodup
          ∧ ∀ name said, (name, said) ∈ members ↔ r.said? t m name = some said)
      ∧ ((∃ text, Style.line ⟨true, pattern⟩ r = .ok text)
        ↔ (∃ t, Style.timestamp ⟨true, pattern⟩ r.time = .ok t) ∧ ∃ m, r.message = .ok m) := by
  refine ⟨fun t m ht hm => ?_, Style.exists_line_iff⟩
  have hn := Style.nodup_names_entries r t m
  refine ⟨_, Style.entries r t m, Style.line_of_ok ht hm, fun c hc => ?_,
    Json.read_ofList_ofEntries _, hn, fun name said => ?_⟩
  · exact Json.no_control_ofEntries _ c (String.toList_ofList ▸ hc)
  · rw [← Record.get?_entries_eq_said? h, Named.get?_eq_some_iff_mem hn]

theorem json_line_decodes_forged :
    let extras : Fields := [("exception", .null), ("taskName", .null)]
    let r : Record := ⟨"a\nb", .ofByte 30, .plain "say \x22hi\x22", [], extras,
      some ⟨"ValueError", "two\nlines"⟩, 1234567890123⟩
    let forged : Record := { r with extras := [("logger", .plain "fake")] }
    r.make = .ok r ∧ forged.make = .ok forged
      ∧ Style.timestamp ⟨true, ""⟩ r.time = .ok "2009-02-13 23:31:30,123"
      ∧ r.message = .ok "say \x22hi\x22"
      ∧ (∃ (text : String) (members : Named String),
        Style.line ⟨true, ""⟩ r = .ok text ∧ (∀ c ∈ text.toList, 0x20 ≤ c.toNat)
          ∧ Json.read text.toList = some members
          ∧ (∀ e ∈ [("timestamp", "2009-02-13 23:31:30,123"), ("level", "WARNING"),
            ("logger", "a\nb"), ("message", "say \x22hi\x22"),
            ("exception", "ValueError: two\nlines")], e ∈ members)
          ∧ ∀ said, ("taskName", said) ∉ members)
      ∧ ∃ (text : String) (members : Named String),
        Style.line ⟨true, ""⟩ forged = .ok text ∧ Json.read text.toList = some members
          ∧ ("logger", "'fake'") ∈ members := by
  intro extras r forged
  have ht : Style.timestamp ⟨true, ""⟩ r.time = .ok "2009-02-13 23:31:30,123" := by decide +kernel
  have hm : r.message = .ok "say \x22hi\x22" := rfl
  obtain ⟨text, members, hl, hc, hr, -, hsaid⟩ := (json_line_decodes "" r rfl).1 _ _ ht hm
  obtain ⟨text', members', hl', -, hr', -, hsaid'⟩ :=
    (json_line_decodes "" forged rfl).1 _ _ ht hm
  refine ⟨rfl, rfl, ht, hm, ⟨text, members, hl, hc, hr, ?_, fun said h => ?_⟩,
    text', members', hl', hr', (hsaid' _ _).2 ?_⟩
  · simp only [List.forall_mem_cons, hsaid]
    exact ⟨rfl, rfl, rfl, rfl, rfl, List.forall_mem_nil _⟩
  · have hn : r.said? "2009-02-13 23:31:30,123" "say \x22hi\x22" "taskName" = none := rfl
    rw [hsaid, hn] at h
    cases h
  · have hp : String.ofList (preview defaultLimit (.plain "fake")) = "'fake'" := by decide
    rw [← hp]
    rfl

end PermissionClaims.Log
