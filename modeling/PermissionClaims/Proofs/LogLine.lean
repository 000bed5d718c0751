import PermissionClaims.Proofs.Timestamp

/-!
# Log lines are single lines

A record with a printable message makes a line of printable characters, in plain format and as JSON
(`Style.exists_line`), so there is no line break in it: its time is printable
(`Time.printable_write`), and JSON escapes no printable character but quotes and backslashes.
-/

namespace PermissionClaims

open Text

namespace Log

namespace Json

section Characters

variable {P : Char → Prop} (hascii : ∀ x, isPlainAscii x = true → P x)

include hascii

/-- What is written of a character is plain ASCII, or the character itself if it is no control
character. -/
theorem forall_mem_escapeChar {c : Char} (hc : 0x20 ≤ c.toNat → P c) :
    ∀ x ∈ escapeChar c, P x := by
  have hb : P '\\' := hascii _ (by decide)
  have hpair {l : Char} (hl : P l) : ∀ x ∈ ['\\', l], P x := by simp [hb, hl]
  unfold escapeChar
  split_ifs with hq _ _ _ _ _ hn
  · rcases hq with rfl | rfl
    · exact hpair (hascii _ (by decide))
    · exact hpair hb
  · exact hpair (hascii 'n' (by decide))
  · exact hpair (hascii 'r' (by decide))
  · exact hpair (hascii 't' (by decide))
  · exact hpair (hascii 'f' (by decide))
  · exact hpair (hascii 'b' (by decide))
  · rw [List.forall_mem_cons, List.forall_mem_cons]
    exact ⟨hb, hascii 'u' (by decide), fun x hx => hascii x (isPlainAscii_of_mem_hexDigits hx)⟩
  · exact List.forall_mem_singleton.2 (hc (Nat.le_of_not_lt hn))

theorem forall_mem_ofText {cs : List Char} (h : ∀ c ∈ cs, 0x20 ≤ c.toNat → P c) :
    ∀ x ∈ ofText cs, P x := by
  have hq : P doubleQuote := hascii _ (by decide)
  rw [ofText, List.forall_mem_cons, List.forall_mem_append, List.forall_mem_singleton]
  refine ⟨hq, fun x hx => ?_, hq⟩
  obtain ⟨c, hc, hxc⟩ := List.mem_flatMap.1 hx
  exact forall_mem_escapeChar hascii (h c hc) x hxc

theorem forall_mem_ofEntries {entries : Named String}
    (h : ∀ e ∈ entries, (∀ c ∈ e.1.toList, 0x20 ≤ c.toNat → P c)
      ∧ ∀ c ∈ e.2.toList, 0x20 ≤ c.toNat → P c) :
    ∀ x ∈ ofEntries entries, P x := by
  have hsigns {cs : List Char} (hcs : cs.all isPlainAscii = true) : ∀ x ∈ cs, P x :=
    fun x hx => hascii x (List.all_eq_true.1 hcs x hx)
  have hm : ∀ m ∈ entries.map fun e => member e.1 e.2, ∀ x ∈ m, P x := by
    intro m hm
    obtain ⟨e, he, rfl⟩ := List.mem_map.1 hm
    rw [member, List.forall_mem_append, List.forall_mem_append]
    exact ⟨⟨forall_mem_ofText hascii (h e he).1, hsigns (by decide)⟩,
      forall_mem_ofText hascii (h e he).2⟩
  rw [ofEntries, List.forall_mem_cons, List.forall_mem_append, List.forall_mem_singleton]
  exact ⟨hascii _ (by decide), forall_mem_intercalate (hsigns (by decide)) hm,
    hascii _ (by decide)⟩

end Characters

theorem printable_ofEntries {entries : Named String}
    (h : ∀ e ∈ entries, Printable e.1.toList ∧ Printable e.2.toList) :
    Printable (ofEntries entries) :=
  forall_mem_ofEntries (fun _ => isPrintable_of_isPlainAscii) fun e he =>
    ⟨fun c hc _ => (h e he).1 c hc, fun c hc _ => (h e he).2 c hc⟩

/-- Whatever the entries hold, no control character is left of it. -/
theorem no_control_ofEntries (entries : Named String) :
    ∀ x ∈ ofEntries entries, 0x20 ≤ x.toNat := by
  refine forall_mem_ofEntries (fun x hx => ?_) fun e _ => ⟨fun _ _ h => h, fun _ _ h => h⟩
  rw [isPlainAscii, Bool.and_eq_true, decide_eq_true_eq] at hx
  exact hx.1

end Json

theorem Record.printable_levelName (level : Numeral) : Printable (levelName level).toList := by
  unfold levelName
  split
  · rename_i l _
    cases l <;> decide
  · split
    · decide
    · have hl : Printable "Level ".toList := by decide
      have hd : Printable (String.ofList level.toList).toList := by
        rw [String.toList_ofList]
        exact level.numeric_toList.printable
      rw [String.toList_append]
      exact printable_append.2 ⟨hl, hd⟩

theorem Record.extraPreviews_of_no_extras {r : Record} (h : r.extras = []) :
    r.extraPreviews = [] := by
  rw [extraPreviews, h]
  rfl

namespace Style

theorem exists_timestamp (json : Bool) {time seconds : Int} (h : Time.seconds time = .ok seconds) :
    ∃ t, timestamp ⟨json, ""⟩ time = .ok t ∧ Printable t.toList := by
  have hc : isPrintable ',' = true := by decide
  refine ⟨_, by rw [timestamp, h]; rfl, ?_⟩
  simp [hc, Time.printable_write, (Number.numeric_paddedDigits _ _).printable]

theorem plainLine_ownEntries (r : Record) (t message : String) :
    plainLine (ownEntries r t message) []
      = " ".intercalate ["[" ++ t ++ "]", Record.levelName r.level, r.logger, ": " ++ message] := by
  simp [plainLine, ownEntries, Named.get?_cons]

theorem line_of_ok {s : Style} {r : Record} {t message : String}
    (ht : s.timestamp r.time = .ok t) (hm : r.message = .ok message) :
    s.line r = .ok (if s.json then String.ofList (Json.ofEntries (entries r t message))
      else plainLine (entries r t message) r.extraPreviews) := by
  rw [line, ht, hm]
  rfl

theorem line_of_timestamp_error {s : Style} {r : Record} {f : LineFault}
    (ht : s.timestamp r.time = .error f) : s.line r = .error f := by
  rw [line, ht]
  rfl

theorem line_of_message_error {s : Style} {r : Record} {t : String} {f : Template.Fault}
    (ht : s.timestamp r.time = .ok t) (hm : r.message = .error f) :
    s.line r = .error (.template f) := by
  rw [line, ht, hm]
  rfl

/-- A record that has no fields of a caller and carries no error is a single line, if its message
is. -/
theorem exists_line (json : Bool) {r : Record} {seconds : Int} {message : String}
    (hx : r.extras = []) (hr : r.raised = none) (ht : Time.seconds r.time = .ok seconds)
    (hm : r.message = .ok message) (hp : Printable message.toList)
    (hl : Printable r.logger.toList) :
    ∃ text, line ⟨json, ""⟩ r = .ok text ∧ Printable text.toList := by
  obtain ⟨t, ht, htp⟩ := exists_timestamp json ht
  have hf := Record.extraPreviews_of_no_extras hx
  have he : entries r t message = ownEntries r t message := by
    rw [entries, hf, raisedEntries, hr]
    rfl
  have hn := Record.printable_levelName r.level
  refine ⟨_, line_of_ok ht hm, ?_⟩
  rw [he, hf, plainLine_ownEntries]
  split
  · rw [String.toList_ofList]
    refine Json.printable_ofEntries ?_
    simp only [ownEntries, List.forall_mem_cons]
    exact ⟨⟨by decide, htp⟩, ⟨by decide, hn⟩, ⟨by decide, hl⟩, ⟨by decide, hp⟩,
      List.forall_mem_nil _⟩
  · rw [String.toList_intercalate]
    refine printable_intercalate (by decide) ?_
    have hb : Printable "[".toList ∧ Printable "]".toList ∧ Printable ": ".toList := by decide
    simp only [List.map_cons, List.map_nil, List.forall_mem_cons, String.toList_append,
      printable_append]
    exact ⟨⟨⟨hb.1, htp⟩, hb.2.1⟩, hn, hl, ⟨hb.2.2, hp⟩, List.forall_mem_nil _⟩

end Style

end Log

end PermissionClaims
