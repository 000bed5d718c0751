import PermissionClaims.Proofs.LineFields
import PermissionClaims.Proofs.Notices
import PermissionClaims.Proofs.SetUp

/-!
# What calls write to the log

Once the log is set up, and as long as only the library is called, it has a single handler, and what
is made of the notices of a call stays the same: a call changes nothing but what is remembered of
decisions (`State.emitted_call`). So a run of calls writes, for each of them, the lines of its
records from the level of the handler on and nothing else (`State.writesLines_run`). Each line shows
its record by all of the record's own fields (`Style.shows_of_line`).
-/

namespace PermissionClaims

namespace Log

open Text

/-- A line shows a record by the record's own fields: as an object that has them under their names,
or as the plain text of them. -/
def Style.Shows (style : Style) (r : Record) (line : String) : Prop :=
  ∃ t m : String, style.timestamp r.time = .ok t ∧ r.message = .ok m ∧
    if style.json then
      ∃ members, Json.read line.toList = some members ∧ (r.ownFields t m).Among members
    else line = (r.ownFields t m).plain []

/-- The line of a record without fields of a caller shows the record's own. -/
theorem Style.shows_of_line {style : Style} {r : Record} {t m line : String} (hx : r.extras = [])
    (ht : style.timestamp r.time = .ok t) (hm : r.message = .ok m)
    (hl : style.line r = .ok line) : style.Shows r line := by
  have hmake := Record.make_of_no_extras hx
  have hown := Record.shownFields_of_no_extras (t := t) (m := m) hx
  refine ⟨t, m, ht, hm, ?_⟩
  rcases style with ⟨_ | _, pattern⟩
  · have hp := Style.line_plain hmake ht hm
    rw [hl, hown, Record.extraPreviews_of_no_extras hx] at hp
    exact Except.ok.inj hp
  · obtain ⟨text, members, htext, hr, -, hs⟩ := Style.line_json hmake ht hm
    obtain rfl := Except.ok.inj (hl.symm.trans htext)
    exact ⟨members, hr, hown ▸ hs⟩

/-- A text that consists of the lines of some records, in order: each shows its record and ends in a
line break, and there is no other one. -/
def WritesLines (style : Style) (records : List Record) (written : String) : Prop :=
  ∃ lines : List String,
    List.Forall₂ (fun r line =>
        style.line r = .ok line ∧ style.Shows r line ∧ Printable line.toList) records lines
      ∧ written.toList.splitOn '\n' = lines.map String.toList ++ [[]]

theorem break_notMem {cs : List Char} (h : Printable cs) : '\n' ∉ cs := by
  intro hb
  have hn : isPrintable '\n' = false := by decide
  rw [h _ hb] at hn
  simp at hn

theorem writesLines_join {style : Style} : ∀ {records : List Record},
    (∀ r ∈ records, ∃ line,
        style.line r = .ok line ∧ style.Shows r line ∧ Printable line.toList) →
      WritesLines style records (String.join (records.map fun r => Handler.ended (style.line r)))
  | [], _ => ⟨[], .nil, by simp⟩
  | r :: records, h => by
    obtain ⟨⟨line, hl, hsh, hp⟩, hrs⟩ := List.forall_mem_cons.1 h
    obtain ⟨lines, hls, hs⟩ := writesLines_join hrs
    refine ⟨line :: lines, .cons ⟨hl, hsh, hp⟩ hls, ?_⟩
    have hj : (String.join ((r :: records).map fun r => Handler.ended (style.line r))).toList
        = line.toList ++ '\n' ::
          (String.join (records.map fun r => Handler.ended (style.line r))).toList := by
      simp [Handler.ended, hl]
    rw [hj, List.splitOn_append_cons_self_of_not_mem (break_notMem hp), hs]
    rfl

theorem exists_line_ofNotice (json : Bool) {time seconds : Int}
    (h : Time.seconds time = .ok seconds) (n : Notice) :
    ∃ line, Style.line ⟨json, ""⟩ (Record.ofNotice time n) = .ok line
      ∧ Style.Shows ⟨json, ""⟩ (Record.ofNotice time n) line ∧ Printable line.toList := by
  have hm := n.message_ofNotice time
  obtain ⟨t, ht, -⟩ := Style.exists_timestamp json h
  obtain ⟨line, hl, hp⟩ := Style.exists_line (r := .ofNotice time n) json rfl rfl h hm
    n.printable_message n.printable_logger
  exact ⟨line, hl, Style.shows_of_line rfl ht hm hl, hp⟩

namespace State

/-- The records that are made of the notices of a call. -/
def emitted (s : State) (time : Int) (x : Call) : List Record :=
  (x.run.notices.filter fun n => s.isEnabled n.logger n.level.severity).map (Record.ofNotice time)

theorem isEnabled_foldl_rememberNotice (logger : String) (m : Int) :
    ∀ (s : State) (ns : List Notice),
      (ns.foldl rememberNotice s).isEnabled logger m = s.isEnabled logger m
  | _, [] => rfl
  | s, n :: ns => by
    rw [List.foldl_cons, isEnabled_foldl_rememberNotice, rememberNotice, isEnabled_remember]

variable {s : State} {level : Int} {json : Bool}

/-- A call does not change what is made of another one. -/
theorem emitted_call (s : State) (time : Int) (x : Traced (Except Failure Answer)) :
    (s.call time x).1.emitted = s.emitted := by
  funext time' y
  simp only [emitted, call, isEnabled_foldl_rememberNotice]

theorem handlers_call (s : State) (time : Int) (x : Traced (Except Failure Answer)) :
    (s.call time x).1.handlers = s.handlers :=
  congrArg Root.handlers (root_call s time x)

theorem emit_stream (h : s.handlers = [.stream level json]) (r : Record) :
    s.emit r = if level ≤ r.level.toInt then Handler.ended (Style.line ⟨json, ""⟩ r) else "" := by
  by_cases hl : level ≤ r.level.toInt <;> simp [emit, h, Handler.level, Handler.write, hl]

theorem join_emitNotice (h : s.handlers = [.stream level json]) (time : Int) :
    ∀ ns : List Notice, String.join (ns.map (s.emitNotice time))
      = String.join ((((ns.filter fun n => s.isEnabled n.logger n.level.severity).map
        (Record.ofNotice time)).filter fun r => level ≤ r.level.toInt).map
          fun r => Handler.ended (Style.line ⟨json, ""⟩ r))
  | [] => rfl
  | n :: ns => by
    have ih := join_emitNotice h time ns
    have he : s.emitNotice time n = if s.isEnabled n.logger n.level.severity then
        s.emit (Record.ofNotice time n) else "" := rfl
    by_cases hn : s.isEnabled n.logger n.level.severity = true
    · by_cases hl : level ≤ (Record.ofNotice time n).level.toInt <;>
        simp [he, hn, emit_stream h, hl, ih]
    · simp [he, hn, ih]

theorem writesLines_call (h : s.handlers = [.stream level json]) {time seconds : Int}
    (ht : Time.seconds time = .ok seconds) (x : Call) :
    WritesLines ⟨json, ""⟩ ((s.emitted time x).filter fun r => level ≤ r.level.toInt)
      (s.call time x.run).2.written := by
  show WritesLines _ _ (String.join (x.run.notices.map (s.emitNotice time)))
  rw [join_emitNotice h]
  refine writesLines_join fun r hr => ?_
  obtain ⟨n, -, rfl⟩ := List.mem_map.1 (List.mem_of_mem_filter hr)
  exact exists_line_ofNotice json ht n

theorem writesLines_run : ∀ {s : State}, s.handlers = [.stream level json] →
    ∀ {calls : List (Int × Call)}, (∀ x ∈ calls, ∃ seconds, Time.seconds x.1 = .ok seconds) →
      List.Forall₂ (fun x out => WritesLines ⟨json, ""⟩
          ((s.emitted x.1 x.2).filter fun r => level ≤ r.level.toInt) out.2.written)
        calls (s.run (calls.map fun x => (x.1, .call x.2)))
  | _, _, [], _ => .nil
  | s, h, (time, x) :: calls, ht => by
    obtain ⟨⟨seconds, hs⟩, hts⟩ := List.forall_mem_cons.1 ht
    have hr := writesLines_run ((handlers_call s time x.run).trans h) hts
    rw [emitted_call] at hr
    exact .cons (writesLines_call h hs x) hr

theorem isEnabled_setUp (h : ∀ name ∈ Notice.loggers, s.loggers.level? name = none) (c : Config)
    (choice : Option Bool) (n : Notice) :
    (s.setUp c choice).isEnabled n.logger n.level.severity
      = decide (c.logLevel.severity ≤ n.level.severity) := by
  have hr : isRoot n.logger = false := n.isRoot_logger
  have hp : 0 < n.level.severity := n.level.severity_pos
  have he : (s.setUp c choice).effectiveLevel n.logger = c.logLevel.severity := by
    rw [effectiveLevel, hr, setUp_eq, Loggers.level?_forget, h _ n.logger_mem_loggers]
    rfl
  have hd : (s.setUp c choice).loggers.decided? n.logger n.level.severity = none := by
    rw [setUp_eq]
    rfl
  rw [isEnabled, hd, he]
  simp [hp]

end State

/-- Whatever a call is given, each notice of it is a printable message around at most 240 characters
of a value that was given. After the log is set up, each call writes one line per record that is
made of its notices and reaches the level, which shows the record, in order and nothing else. Those
are all its notices of that level, if the loggers have no levels but the root's. -/
theorem calls_write_lines :
    (∀ (x : Call) (n : Notice), n ∈ x.run.notices → n.subject ∈ x.given
      ∧ ∀ time : Int, ∃ message : String,
        (Record.ofNotice time n).message = .ok message ∧ Notice.Shows n.subject message)
    ∧ ∀ (s : State) (settings : Option Fields) (env : Environment) (json : Option Bool)
        (c : Config) (start : Int) (calls : List (Int × Call)),
      readConfig settings env = .ok c →
      (∀ x ∈ calls, ∃ seconds, Time.seconds x.1 = .ok seconds) →
      ∃ (ready : State) (outcomes : List (State × Outcome)),
        s.run ((start, .setUp settings env json) :: calls.map fun x => (x.1, .call x.2))
            = (ready, .done) :: outcomes
          ∧ List.Forall₂ (fun x out => WritesLines ⟨json.getD c.logJson, ""⟩
              ((ready.emitted x.1 x.2).filter fun r => c.logLevel.severity ≤ r.level.toInt)
              out.2.written) calls outcomes
          ∧ ((∀ name ∈ Notice.loggers, s.loggers.level? name = none) →
            ∀ (time : Int) (x : Call), ready.emitted time x
              = (x.run.notices.filter fun n => c.logLevel.severity ≤ n.level.severity).map
                (Record.ofNotice time)) := by
  refine ⟨fun x n hn => ⟨Call.subject_mem_given hn, fun time =>
    ⟨n.message, n.message_ofNotice time, n.shows_message⟩⟩, ?_⟩
  intro s settings env json c start calls hc ht
  have hh : (s.setUp c json).handlers = [.stream c.logLevel.severity (json.getD c.logJson)] :=
    congrArg Root.handlers (State.root_setUp s c json)
  refine ⟨s.setUp c json, _, ?_, State.writesLines_run hh ht, fun h time x => ?_⟩
  · show s.step start (.setUp settings env json) :: _ = _
    rw [State.step, hc]
  · simp only [State.emitted, State.isEnabled_setUp h]

theorem calls_write_lines_held :
    let held : Call := .heldClaims .strict (.list [.plain "read:a", .plain "a\n%s"])
    let settings (l : LogLevel) : Option Fields := some [("log_level", .level l)]
    let rejected := "[1970-01-01 00:00:00,000] DEBUG claimcore.claims.parser : "
      ++ "rejected claim text 'a\\n%s'"
    let ignored := "[1970-01-01 00:00:00,000] WARNING claimcore.claims.access : "
      ++ "ignoring malformed permission 'a\\n%s'"
    (∀ l, readConfig (settings l) [] = .ok ⟨l, false, false⟩)
      ∧ (∃ seconds, Time.seconds 0 = .ok seconds)
      ∧ ∀ (l : LogLevel) (lines : List String),
        (l, lines) ∈ [(.debug, [rejected, ignored]), (.warning, [ignored]), (.critical, [])] →
          ∃ (ready : State) (out : State × Outcome),
            State.run {} [(0, .setUp (settings l) [] none), (0, .call held)]
              = [(ready, .done), out]
            ∧ out.2.written.toList.splitOn '\n' = lines.map String.toList ++ [[]] := by
  intro held settings rejected ignored
  have hc : ∀ l, readConfig (settings l) [] = .ok ⟨l, false, false⟩ := fun _ => rfl
  have ht : ∃ seconds, Time.seconds 0 = .ok seconds := Time.exists_seconds (by decide)
  refine ⟨hc, ht, fun l lines hl => ?_⟩
  have hu : ∀ name ∈ Notice.loggers, Loggers.level? {} name = none := by
    simp [Loggers.level?, Named.get?]
  obtain ⟨ready, outcomes, hrun, hlines, hall⟩ :=
    calls_write_lines.2 {} _ [] none _ 0 [(0, held)] (hc l) (List.forall_mem_singleton.2 ht)
  have hv : Grammar.isValid .strict (.plain "a\n%s") = false
    ∧ Grammar.isValid .strict (.plain "read:a") = true := by decide
  have hn : held.run.notices = [.rejected (.plain "a\n%s"), .ignored (.plain "a\n%s")] := by
    rw [Call.run, Call.notices_elementsCall, notices_heldClaims]
    simp [Value.elements?, hv]
  have hrejected : Style.line ⟨false, ""⟩ (.ofNotice 0 (.rejected (.plain "a\n%s")))
      = .ok rejected := by decide +kernel
  have hignored : Style.line ⟨false, ""⟩ (.ofNotice 0 (.ignored (.plain "a\n%s")))
      = .ok ignored := by decide +kernel
  obtain ⟨out, rfl⟩ := List.length_eq_one_iff.1 hlines.length_eq.symm
  obtain ⟨written, hf, hs⟩ := (List.forall₂_cons.1 hlines).1
  refine ⟨ready, out, hrun, hs.trans ?_⟩
  rw [hall hu, hn] at hf
  simp only [List.mem_cons, Prod.mk.injEq, List.not_mem_nil, or_false] at hl
  rcases hl with ⟨rfl, rfl⟩ | ⟨rfl, rfl⟩ | ⟨rfl, rfl⟩
  · rcases hf with _ | ⟨⟨h₁, -⟩, _ | ⟨⟨h₂, -⟩, _ | _⟩⟩
    rw [Except.ok.inj (h₁.symm.trans hrejected), Except.ok.inj (h₂.symm.trans hignored)]
  · rcases hf with _ | ⟨⟨h, -⟩, _ | _⟩
    rw [Except.ok.inj (h.symm.trans hignored)]
  · rcases hf with _ | _
    rfl

end Log

end PermissionClaims
