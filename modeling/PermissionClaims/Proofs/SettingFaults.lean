import PermissionClaims.Proofs.SettingValues

/-!
# The faults of settings

Fields are looked at in a fixed order, the known ones first (`arranged`), and told one by one:
nothing of a field that stands for something and one fault of any other (`Told`). Fields make a
configuration if there is nothing to tell of them, and it has what they stand for
(`ofFields_eq_ok_iff`); otherwise all that there is to tell is told (`ofFields_eq_error_iff`).
To set attributes of a configuration leaves it as it is (`assignAll_eq_map`).
-/

namespace PermissionClaims

namespace Config

variable {c : Config} {v : Value} {cause : Cause} {name : String} {fields : Fields}
  {faults : List SettingFault}

/-! ## Single fields -/

def flagNames : List String :=
  ["log_json", "allow_trailing_dot"]

/-- A field stands for what a configuration has. -/
def Agrees (c : Config) (name : String) (v : Value) : Prop :=
  name = "log_level" ∧ IsLevel c.logLevel v
    ∨ name = "log_json" ∧ IsFlag c.logJson v
    ∨ name = "allow_trailing_dot" ∧ IsFlag c.allowTrailingDot v

/-- What is wrong with a field that stands for nothing. -/
inductive Faulty : String → Value → Cause → Prop
  | level {v : Value} {cause : Cause} (h : LevelFault v cause) : Faulty "log_level" v cause
  | flag {name : String} {v : Value} {cause : Cause} (mem : name ∈ flagNames)
    (h : FlagFault v cause) : Faulty name v cause
  | unknown {name : String} {v : Value} (notMem : name ∉ names) : Faulty name v .unknownSetting

theorem agrees_level_iff : c.Agrees "log_level" v ↔ readLevel v = .ok c.logLevel := by
  simp [Agrees, readLevel_eq_ok_iff]

theorem agrees_json_iff : c.Agrees "log_json" v ↔ readFlag v = .ok c.logJson := by
  simp [Agrees, readFlag_eq_ok_iff]

theorem agrees_dot_iff : c.Agrees "allow_trailing_dot" v ↔ readFlag v = .ok c.allowTrailingDot := by
  simp [Agrees, readFlag_eq_ok_iff]

theorem Agrees.mem_names (h : c.Agrees name v) : name ∈ names := by
  rcases h with ⟨rfl, -⟩ | ⟨rfl, -⟩ | ⟨rfl, -⟩ <;> decide

theorem faulty_level_iff : Faulty "log_level" v cause ↔ readLevel v = .error cause := by
  rw [readLevel_eq_error_iff]
  constructor
  · rintro (h | ⟨hm, -⟩ | hn)
    · exact h
    · exact absurd hm (by decide)
    · exact absurd hn (by decide)
  · exact .level

theorem faulty_flag_iff (hm : name ∈ flagNames) :
    Faulty name v cause ↔ readFlag v = .error cause := by
  rw [readFlag_eq_error_iff]
  constructor
  · rintro (h | ⟨-, h⟩ | hn)
    · exact absurd hm (by decide)
    · exact h
    · exact absurd (List.mem_cons_of_mem _ hm) hn
  · exact .flag hm

theorem faulty_unknown_iff (hn : name ∉ names) : Faulty name v cause ↔ cause = .unknownSetting := by
  constructor
  · rintro (_ | ⟨hm, -⟩ | -)
    · exact absurd List.mem_cons_self hn
    · exact absurd (List.mem_cons_of_mem _ hm) hn
    · rfl
  · rintro rfl
    exact .unknown hn

theorem not_agrees_of_faulty (h : Faulty name v cause) : ¬ c.Agrees name v := by
  rintro (⟨rfl, ha⟩ | ⟨rfl, ha⟩ | ⟨rfl, ha⟩)
  · rw [faulty_level_iff, readLevel_eq_ok_iff.2 ha] at h
    cases h
  all_goals
    rw [faulty_flag_iff (by decide), readFlag_eq_ok_iff.2 ha] at h
    cases h

theorem Faulty.unique {cause' : Cause} (h : Faulty name v cause) (h' : Faulty name v cause') :
    cause = cause' := by
  rcases h with h | ⟨hm, h⟩ | hn
  · rw [← readLevel_eq_error_iff] at h
    exact Except.error.inj (h.symm.trans (faulty_level_iff.1 h'))
  · rw [← readFlag_eq_error_iff] at h
    exact Except.error.inj (h.symm.trans ((faulty_flag_iff hm).1 h'))
  · exact ((faulty_unknown_iff hn).1 h').symm

/-! ## What is told of fields -/

/-- Fields told one by one: nothing is said of one that stands for something, and one fault of any
other. -/
inductive Told : Fields → List SettingFault → Prop
  | nil : Told [] []
  | good {c : Config} {name : String} {v : Value} {rest : Fields} {faults : List SettingFault}
    (h : c.Agrees name v) (told : Told rest faults) : Told ((name, v) :: rest) faults
  | bad {name : String} {v : Value} {cause : Cause} {rest : Fields} {faults : List SettingFault}
    (h : Faulty name v cause) (told : Told rest faults) :
    Told ((name, v) :: rest) (⟨name, v, cause⟩ :: faults)

theorem Told.append {others : Fields} {more : List SettingFault} (h : Told fields faults)
    (h' : Told others more) : Told (fields ++ others) (faults ++ more) := by
  induction h with
  | nil => exact h'
  | good h _ ih => exact .good h ih
  | bad h _ ih => exact .bad h ih

/-- As a field is never both good and bad, there is one way to tell of fields. -/
theorem Told.unique {faults' : List SettingFault} (h : Told fields faults)
    (h' : Told fields faults') : faults = faults' := by
  induction h generalizing faults' with
  | nil =>
    cases h'
    rfl
  | good h _ ih =>
    cases h' with
    | good _ told => exact ih told
    | bad hf _ => exact absurd h (not_agrees_of_faulty hf)
  | bad hf _ ih =>
    cases h' with
    | good h _ => exact absurd h (not_agrees_of_faulty hf)
    | bad hf' told => rw [hf.unique hf', ih told]

theorem Told.eq_nil_iff (h : Told fields faults) :
    faults = [] ↔ ∀ f ∈ fields, ∃ c : Config, c.Agrees f.1 f.2 := by
  induction h with
  | nil => simp
  | good h _ ih =>
    rw [ih, List.forall_mem_cons]
    exact (and_iff_right ⟨_, h⟩).symm
  | bad hf _ ih =>
    refine iff_of_false (List.cons_ne_nil _ _) fun h => ?_
    obtain ⟨c, hc⟩ := h _ List.mem_cons_self
    exact not_agrees_of_faulty hf hc

/-! ## The order of fields -/

/-- The field of a name, where there is one. -/
def fieldOf (fields : Fields) (name : String) : Fields :=
  ((fields.get? name).map fun v => (name, v)).toList

/-- The fields in the order in which they are looked at. -/
def arranged (fields : Fields) : Fields :=
  names.flatMap (fieldOf fields) ++ fields.filter fun f => f.1 ∉ names

theorem mem_fieldOf_iff {f : String × Value} :
    f ∈ fieldOf fields name ↔ f.1 = name ∧ fields.get? name = some f.2 := by
  obtain ⟨n, v⟩ := f
  simp only [fieldOf, Option.mem_toList, Option.map_eq_some_iff, Prod.mk.injEq]
  constructor
  · rintro ⟨v', hv, rfl, rfl⟩
    exact ⟨rfl, hv⟩
  · rintro ⟨rfl, hv⟩
    exact ⟨v, hv, rfl, rfl⟩

theorem mem_arranged_iff {f : String × Value} :
    f ∈ arranged fields ↔
      f.1 ∈ names ∧ fields.get? f.1 = some f.2 ∨ f ∈ fields ∧ f.1 ∉ names := by
  simp [arranged, mem_fieldOf_iff]

theorem nodup_arranged (h : fields.Nodup) : (arranged fields).Nodup := by
  have hnames : names.Nodup := by decide
  refine List.nodup_append.2 ⟨List.nodup_flatMap.2 ⟨fun name _ => ?_, ?_⟩, h.filter _, ?_⟩
  · unfold fieldOf
    rcases fields.get? name with _ | v <;> simp
  · refine hnames.imp fun hne f hf hf' => hne ?_
    rw [← (mem_fieldOf_iff.1 hf).1, ← (mem_fieldOf_iff.1 hf').1]
  · rintro f hf _ hf' rfl
    obtain ⟨name, hn, hf⟩ := List.mem_flatMap.1 hf
    rw [List.mem_filter, (mem_fieldOf_iff.1 hf).1] at hf'
    exact of_decide_eq_true hf'.2 hn

/-- Each field is looked at once. -/
theorem arranged_perm (h : (fields.map (·.1)).Nodup) : (arranged fields).Perm fields := by
  have hn : fields.Nodup := List.Nodup.of_map _ h
  refine (List.perm_ext_iff_of_nodup (nodup_arranged hn) hn).2 fun f => ?_
  rw [mem_arranged_iff, Named.get?_eq_some_iff_mem h]
  tauto

theorem told_read {α : Type} {reader : Value → Except Cause α} {otherwise : α}
    (hok : ∀ v x, reader v = .ok x → ∃ c : Config, c.Agrees name v)
    (herror : ∀ v cause, reader v = .error cause → Faulty name v cause) :
    Told (fieldOf fields name) (faultsOf (read reader name otherwise fields)) := by
  unfold fieldOf read
  rcases fields.get? name with _ | v
  · exact .nil
  · rcases h : reader v with cause | x
    · simp only [Option.map_some, Option.toList_some, h]
      exact .bad (herror v cause h) .nil
    · obtain ⟨c, hc⟩ := hok v x h
      simp only [Option.map_some, Option.toList_some, h]
      exact .good hc .nil

theorem told_of_unknown : ∀ {fields : Fields}, (∀ f ∈ fields, f.1 ∉ names) →
    Told fields (fields.map fun f => ⟨f.1, f.2, .unknownSetting⟩)
  | [], _ => .nil
  | f :: rest, h => by
    obtain ⟨hf, hrest⟩ := List.forall_mem_cons.1 h
    exact .bad (.unknown hf) (told_of_unknown hrest)

/-- All the faults of fields. -/
def allFaults (fields : Fields) : List SettingFault :=
  faultsOf (read readLevel "log_level" .info fields)
    ++ faultsOf (read readFlag "log_json" false fields)
    ++ faultsOf (read readFlag "allow_trailing_dot" false fields) ++ unknown fields

theorem told_allFaults (fields : Fields) : Told (arranged fields) (allFaults fields) := by
  have hlevel : Told (fieldOf fields "log_level")
      (faultsOf (read readLevel "log_level" .info fields)) :=
    told_read (fun v l h => ⟨{ logLevel := l }, agrees_level_iff.2 h⟩)
      fun v cause => faulty_level_iff.2
  have hjson : Told (fieldOf fields "log_json")
      (faultsOf (read readFlag "log_json" false fields)) :=
    told_read (fun v b h => ⟨{ logJson := b }, agrees_json_iff.2 h⟩)
      fun v cause => (faulty_flag_iff (by decide)).2
  have hdot : Told (fieldOf fields "allow_trailing_dot")
      (faultsOf (read readFlag "allow_trailing_dot" false fields)) :=
    told_read (fun v b h => ⟨{ allowTrailingDot := b }, agrees_dot_iff.2 h⟩)
      fun v cause => (faulty_flag_iff (by decide)).2
  have hothers : Told (fields.filter fun f => f.1 ∉ names) (unknown fields) :=
    told_of_unknown fun f hf => by simpa using (List.mem_filter.1 hf).2
  have hall := ((hlevel.append hjson).append hdot).append hothers
  simpa only [arranged, names, List.flatMap_cons, List.flatMap_nil, List.append_nil,
    List.append_assoc, allFaults] using hall

/-! ## Configurations -/

theorem ofFields_eq_error_iff_allFaults :
    ofFields fields = .error ⟨faults⟩ ↔ allFaults fields = faults ∧ faults ≠ [] := by
  unfold ofFields allFaults
  rcases read readLevel "log_level" .info fields with f | l <;>
  rcases read readFlag "log_json" false fields with f | j <;>
  rcases read readFlag "allow_trailing_dot" false fields with f | d <;>
  rcases unknown fields with _ | ⟨f, fs⟩ <;>
  simp only [faultsOf] <;> grind

theorem ofFields_eq_error_iff :
    ofFields fields = .error ⟨faults⟩ ↔ Told (arranged fields) faults ∧ faults ≠ [] := by
  rw [ofFields_eq_error_iff_allFaults]
  refine and_congr_left fun _ => ⟨?_, (told_allFaults fields).unique⟩
  rintro rfl
  exact told_allFaults fields

theorem read_eq_ok_iff {α : Type} {reader : Value → Except Cause α} {otherwise x : α} :
    read reader name otherwise fields = .ok x ↔
      (∀ v, fields.get? name = some v → reader v = .ok x)
        ∧ (fields.get? name = none → x = otherwise) := by
  unfold read
  rcases fields.get? name with _ | v
  · simp [eq_comm]
  · rcases h : reader v with cause | y <;> simp [Except.mapError, h]

theorem ofFields_eq_ok_iff_read :
    ofFields fields = .ok c ↔ read readLevel "log_level" .info fields = .ok c.logLevel
      ∧ read readFlag "log_json" false fields = .ok c.logJson
      ∧ read readFlag "allow_trailing_dot" false fields = .ok c.allowTrailingDot
      ∧ unknown fields = [] := by
  obtain ⟨l, j, d⟩ := c
  unfold ofFields
  rcases read readLevel "log_level" .info fields with f | l' <;>
  rcases read readFlag "log_json" false fields with f | j' <;>
  rcases read readFlag "allow_trailing_dot" false fields with f | d' <;>
  rcases unknown fields with _ | ⟨f, fs⟩ <;>
  simp

/-- A configuration as fields, each with its value. -/
def settings (c : Config) : Fields :=
  [("log_level", .level c.logLevel), ("log_json", .bool c.logJson),
    ("allow_trailing_dot", .bool c.allowTrailingDot)]

theorem unknown_eq_nil_iff : unknown fields = [] ↔ ∀ f ∈ fields, f.1 ∈ names := by
  simp [unknown, List.filter_eq_nil_iff]

/-- Fields stand for what a configuration has if they are read as it and are known. -/
theorem forall_agrees_iff (h : (fields.map (·.1)).Nodup) :
    (∀ f ∈ fields, c.Agrees f.1 f.2) ↔
      (∀ v, fields.get? "log_level" = some v → readLevel v = .ok c.logLevel)
        ∧ (∀ v, fields.get? "log_json" = some v → readFlag v = .ok c.logJson)
        ∧ (∀ v, fields.get? "allow_trailing_dot" = some v → readFlag v = .ok c.allowTrailingDot)
        ∧ unknown fields = [] := by
  simp only [unknown_eq_nil_iff, Named.get?_eq_some_iff_mem h, ← agrees_level_iff,
    ← agrees_json_iff, ← agrees_dot_iff]
  constructor
  · intro hall
    exact ⟨fun v => hall (_, v), fun v => hall (_, v), fun v => hall (_, v),
      fun f hf => (hall f hf).mem_names⟩
  · rintro ⟨hlevel, hjson, hdot, hnames⟩ ⟨name, v⟩ hf
    have hn : name ∈ ["log_level", "log_json", "allow_trailing_dot"] := hnames _ hf
    simp only [List.mem_cons, List.not_mem_nil, or_false] at hn
    rcases hn with rfl | rfl | rfl
    · exact hlevel v hf
    · exact hjson v hf
    · exact hdot v hf

/-- A configuration of fields has what they stand for, and what it has by default where there is no
field. -/
theorem ofFields_eq_ok_iff (h : (fields.map (·.1)).Nodup) :
    ofFields fields = .ok c ↔ (∀ f ∈ fields, c.Agrees f.1 f.2)
      ∧ ∀ name ∈ names, fields.get? name = none →
        c.settings.get? name = (settings {}).get? name := by
  have hdefault : (∀ name ∈ names, fields.get? name = none →
        c.settings.get? name = (settings {}).get? name)
      ↔ (fields.get? "log_level" = none → c.logLevel = .info)
        ∧ (fields.get? "log_json" = none → c.logJson = false)
        ∧ (fields.get? "allow_trailing_dot" = none → c.allowTrailingDot = false) := by
    simp [names, settings, Named.get?_cons, Value.level]
  rw [ofFields_eq_ok_iff_read, forall_agrees_iff h, hdefault]
  simp only [read_eq_ok_iff]
  tauto

theorem exists_ofFields_iff (h : (fields.map (·.1)).Nodup) :
    (∃ c, ofFields fields = .ok c) ↔ ∀ f ∈ fields, ∃ c : Config, c.Agrees f.1 f.2 := by
  rcases hr : ofFields fields with ⟨faults⟩ | c
  · obtain ⟨htold, hne⟩ := ofFields_eq_error_iff.1 hr
    refine iff_of_false (by simp) fun hall => hne (htold.eq_nil_iff.2 fun f hf => ?_)
    exact hall f ((arranged_perm h).subset hf)
  · exact iff_of_true ⟨c, rfl⟩ fun f hf => ⟨c, ((ofFields_eq_ok_iff h).1 hr).1 f hf⟩

theorem ofFields_settings {given : Fields} (h : given.Perm c.settings) :
    ofFields given = .ok c := by
  have hnames : (given.map (·.1)).Perm names := h.map _
  have hn : (given.map (·.1)).Nodup := hnames.nodup_iff.2 (by decide)
  refine (ofFields_eq_ok_iff hn).2 ⟨fun f hf => ?_, fun name hname hnone => ?_⟩
  · have hf' : f ∈ c.settings := h.subset hf
    simp only [settings, List.mem_cons, List.not_mem_nil, or_false] at hf'
    rcases hf' with rfl | rfl | rfl
    · exact agrees_level_iff.2 rfl
    · exact agrees_json_iff.2 rfl
    · exact agrees_dot_iff.2 rfl
  · obtain ⟨f, hf, rfl⟩ := List.mem_map.1 (hnames.symm.subset hname)
    rw [(Named.get?_eq_some_iff_mem hn).2 hf] at hnone
    cases hnone

/-! ## Setting attributes -/

theorem assign_of_not_own (c : Config) (v : Value) (h : isOwnName name = false) :
    c.assign name v = .error ⟨[⟨name, v, .frozen⟩]⟩ := by
  simp [assign, h]

/-- Whether it is refused or not, nothing of the configuration is set. -/
theorem toOption_assign_getD (c : Config) (name : String) (v : Value) :
    (c.assign name v).toOption.getD c = c := by
  unfold assign
  split_ifs <;> rfl

theorem assignAll_eq_map (c : Config) : ∀ sets : Fields,
    c.assignAll sets = sets.map fun f => (c.assign f.1 f.2, c)
  | [] => rfl
  | f :: rest => by
    rw [assignAll, toOption_assign_getD, assignAll_eq_map c rest, List.map_cons]

theorem forall₂_assignAll (c : Config) (sets : Fields) :
    List.Forall₂ (fun f step => isOwnName f.1 = false →
      step.1 = .error ⟨[⟨f.1, f.2, .frozen⟩]⟩) sets (c.assignAll sets) := by
  rw [assignAll_eq_map, List.forall₂_map_right_iff]
  exact List.forall₂_same.2 fun f _ => assign_of_not_own c f.2

theorem next_eq_of_mem_assignAll {sets : Fields} {step : Except Fault Config × Config}
    (h : step ∈ c.assignAll sets) : step.2 = c := by
  rw [assignAll_eq_map] at h
  obtain ⟨f, -, rfl⟩ := List.mem_map.1 h
  rfl

/-- To set an attribute is not always refused: an object's own can be set. -/
theorem own_name_not_refused :
    let sets : Fields := [("_x", .int (.ofByte 1))]
    ofFields [] = .ok {} ∧ ({} : Config).assignAll sets = [(.ok {}, {})]
      ∧ ¬ ∀ step ∈ ({} : Config).assignAll sets, ∃ fault, step.1 = .error fault := by
  intro sets
  have hrun : ({} : Config).assignAll sets = [(.ok {}, {})] := rfl
  refine ⟨rfl, hrun, fun h => ?_⟩
  obtain ⟨fault, hf⟩ := h (.ok {}, {}) (hrun ▸ List.mem_singleton_self _)
  cases hf

/-- Fields by distinct names make a configuration if each of them stands for something. If not, one
fault is told of each that does not, in order, and none of the others. A configuration that is made
has what the fields stand for and is made again of its own settings. Of its attributes none but the
object's own can be set, and whatever is tried it has what it had before. (With two underscores in
front, a name is of how the object is made, and nothing is said of it.) -/
theorem settings_taken_or_told (fields : Fields) (h : (fields.map (·.1)).Nodup) :
    ((∃ c, ofFields fields = .ok c) ↔ ∀ f ∈ fields, ∃ c : Config, c.Agrees f.1 f.2)
      ∧ (∀ faults, ofFields fields = .error ⟨faults⟩ ↔
        Told (arranged fields) faults ∧ faults ≠ [])
      ∧ (arranged fields).Perm fields
      ∧ ∀ c, ofFields fields = .ok c →
        (∀ f ∈ fields, c.Agrees f.1 f.2)
          ∧ (∀ name ∈ names, fields.get? name = none →
            c.settings.get? name = (settings {}).get? name)
          ∧ (∀ given : Fields, given.Perm c.settings → ofFields given = .ok c)
          ∧ ∀ sets : Fields,
            List.Forall₂ (fun f step => isOwnName f.1 = false →
              step.1 = .error ⟨[⟨f.1, f.2, .frozen⟩]⟩) sets (c.assignAll sets)
            ∧ ((∀ f ∈ sets, ¬ ['_', '_'] <+: f.1.toList) →
              ∀ step ∈ c.assignAll sets, step.2 = c) := by
  refine ⟨exists_ofFields_iff h, fun faults => ofFields_eq_error_iff, arranged_perm h,
    fun c hc => ?_⟩
  obtain ⟨hagrees, hdefault⟩ := (ofFields_eq_ok_iff h).1 hc
  refine ⟨hagrees, hdefault, fun given hg => ofFields_settings hg, fun sets => ?_⟩
  exact ⟨forall₂_assignAll c sets, fun _ step hs => next_eq_of_mem_assignAll hs⟩

theorem settings_taken_or_told_debug :
    let good : Fields := [("log_json", .bytes [0x4f, 0x4e]), ("log_level", .plain "Debug")]
    let bad : Fields := [("x", .null), ("allow_trailing_dot", .int (.ofByte 2)),
      ("log_level", .plain "debug"), ("log_json", .list [])]
    (good.map (·.1)).Nodup ∧ (bad.map (·.1)).Nodup
      ∧ (∀ f ∈ good, ∃ c : Config, c.Agrees f.1 f.2)
      ∧ ofFields [("allow_trailing_dot", .bool false), ("log_json", .bool true),
        ("log_level", .level .debug)] = .ok ⟨.debug, true, false⟩
      ∧ Told (arranged bad) [⟨"log_json", .list [], .notAFlag⟩,
        ⟨"allow_trailing_dot", .int (.ofByte 2), .unreadableFlag⟩,
        ⟨"x", .null, .unknownSetting⟩]
      ∧ (∀ step ∈ assignAll ⟨.debug, true, false⟩ [("log_json", .bool false), ("_x", .null)],
        step.2 = ⟨.debug, true, false⟩) := by
  intro good bad
  have hgood : (good.map (·.1)).Nodup := by decide
  have hbad : (bad.map (·.1)).Nodup := by decide
  have hmade : ofFields good = .ok ⟨.debug, true, false⟩ := rfl
  obtain ⟨hexists, -, -, hkept⟩ := settings_taken_or_told good hgood
  obtain ⟨-, htold, -⟩ := settings_taken_or_told bad hbad
  obtain ⟨-, -, hagain, hsets⟩ := hkept _ hmade
  have hperm := List.reverse_perm (settings ⟨.debug, true, false⟩)
  refine ⟨hgood, hbad, hexists.1 ⟨_, hmade⟩, hagain _ hperm, ((htold _).1 rfl).1,
    (hsets _).2 ?_⟩
  simp

end Config

end PermissionClaims
