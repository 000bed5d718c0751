import Mathlib.Computability.Language
import PermissionClaims.Text.Pattern

/-!
# The languages of patterns

A pattern without groups leads a reader past the words of a language and nowhere else
(`Pattern.Reads`), in whatever order it comes to them. So what such a pattern accepts is its
language (`accepts_iff`), and where all matches agree on the groups the first one is as good as any
(`fullMatch?_eq_some_iff`).
-/

namespace PermissionClaims

open Computability

namespace Cursor

/-- A reader at `s` that goes past the word `w` is at `t`. -/
structure Past (s : Cursor) (w : List Char) (t : Cursor) : Prop where
  ahead : s.ahead = w ++ t.ahead
  behind : t.behind = w.reverse ++ s.behind
  position : t.position = s.position + w.length
  groups : t.groups = s.groups

variable {s t u : Cursor} {v w : List Char}

theorem past_nil_iff : s.Past [] t ↔ t = s := by
  constructor
  · rintro ⟨ha, hb, hp, hg⟩
    cases s
    cases t
    simp_all
  · rintro rfl
    exact ⟨rfl, rfl, rfl, rfl⟩

theorem Past.trans (h : s.Past v t) (h' : t.Past w u) : s.Past (v ++ w) u where
  ahead := by rw [h.ahead, h'.ahead, List.append_assoc]
  behind := by rw [h'.behind, h.behind, List.reverse_append, List.append_assoc]
  position := by rw [h'.position, h.position, List.length_append, Nat.add_assoc]
  groups := h'.groups.trans h.groups

theorem past_append_iff : s.Past (v ++ w) u ↔ ∃ t, s.Past v t ∧ t.Past w u := by
  constructor
  · intro h
    refine ⟨⟨s.position + v.length, v.reverse ++ s.behind, w ++ u.ahead, s.groups⟩,
      ⟨?_, rfl, rfl, rfl⟩, ⟨rfl, ?_, ?_, h.groups⟩⟩
    · rw [h.ahead, List.append_assoc]
    · rw [h.behind, List.reverse_append, List.append_assoc]
    · rw [h.position, List.length_append, Nat.add_assoc]
  · rintro ⟨t, h, h'⟩
    exact h.trans h'

theorem Past.since (h : s.Past w t) : t.since s = w := by
  have hn : t.position - s.position = w.length := by rw [h.position]; omega
  rw [Cursor.since, hn, h.ahead, List.take_left]

theorem Past.length_ahead (h : s.Past w t) : s.ahead.length = w.length + t.ahead.length := by
  rw [h.ahead, List.length_append]

theorem exists_past {rest : List Char} (h : s.ahead = w ++ rest) :
    ∃ t, s.Past w t ∧ t.ahead = rest :=
  ⟨⟨s.position + w.length, w.reverse ++ s.behind, rest, s.groups⟩, ⟨h, rfl, rfl, rfl⟩, rfl⟩

theorem start_past_iff {cs : List Char} :
    (∃ t, (start cs).Past w t ∧ t.ahead = []) ↔ w = cs := by
  constructor
  · rintro ⟨t, h, ht⟩
    have := h.ahead
    rw [ht, List.append_nil] at this
    exact this.symm
  · rintro rfl
    exact exists_past (List.append_nil w).symm

end Cursor

namespace Pattern

variable {p q : Pattern} {L M : Language Char} {isIn : Char → Bool} {s t : Cursor}

/-- A pattern leads a reader past the words of a language, and nowhere else. -/
def Reads (p : Pattern) (L : Language Char) : Prop :=
  ∀ s t : Cursor, t ∈ p.ends s ↔ ∃ w ∈ L, s.Past w t

/-- The words of a single character of a class. -/
def single (isIn : Char → Bool) : Language Char :=
  {w | ∃ c, isIn c = true ∧ w = [c]}

theorem Reads.congr (hp : p.Reads L) (h : ∀ w, w ∈ L ↔ w ∈ M) : p.Reads M := by
  intro s t
  simp only [hp s t, h]

theorem mem_ends_seq : t ∈ (seq p q).ends s ↔ ∃ m ∈ p.ends s, t ∈ q.ends m := by
  simp [ends]

theorem reads_nothing : Reads nothing 1 := by
  intro s t
  simp only [ends, List.mem_singleton, Language.mem_one, exists_eq_left, Cursor.past_nil_iff]

theorem reads_one (isIn : Char → Bool) : Reads (one isIn) (single isIn) := by
  intro s t
  constructor
  · intro h
    simp only [ends] at h
    split at h
    · simp at h
    · rename_i c rest ha
      split_ifs at h with hc
      · rw [List.mem_singleton] at h
        subst h
        exact ⟨[c], ⟨c, hc, rfl⟩, ha, rfl, rfl, rfl⟩
      · simp at h
  · rintro ⟨_, ⟨c, hc, rfl⟩, ha, hb, hp, hg⟩
    cases t
    simp_all [ends]

theorem Reads.seq (hp : p.Reads L) (hq : q.Reads M) : Reads (.seq p q) (L * M) := by
  intro s t
  rw [mem_ends_seq]
  constructor
  · rintro ⟨m, hm, ht⟩
    obtain ⟨v, hv, hsm⟩ := (hp s m).1 hm
    obtain ⟨w, hw, hmt⟩ := (hq m t).1 ht
    exact ⟨v ++ w, Language.append_mem_mul hv hw, hsm.trans hmt⟩
  · rintro ⟨_, hvw, h⟩
    obtain ⟨v, hv, w, hw, rfl⟩ := Language.mem_mul.1 hvw
    obtain ⟨m, hsm, hmt⟩ := Cursor.past_append_iff.1 h
    exact ⟨m, (hp s m).2 ⟨v, hv, hsm⟩, (hq m t).2 ⟨w, hw, hmt⟩⟩

theorem Reads.either (hp : p.Reads L) (hq : q.Reads M) : Reads (.either p q) (L + M) := by
  intro s t
  simp only [ends, List.mem_append, hp s t, hq s t, Language.mem_add, or_and_right, exists_or]

/-- With as many steps as there are characters ahead, a reader gets past any number of words. -/
theorem mem_repeated_iff (hp : p.Reads L) :
    ∀ (n : ℕ) {s t : Cursor}, s.ahead.length ≤ n →
      (t ∈ repeated p.ends n s ↔ ∃ w ∈ L∗, s.Past w t)
  | 0, s, t, hn => by
    have ha : s.ahead = [] := List.length_eq_zero_iff.1 (by omega)
    simp only [repeated, List.mem_singleton]
    constructor
    · rintro rfl
      exact ⟨[], Language.nil_mem_kstar L, Cursor.past_nil_iff.2 rfl⟩
    · rintro ⟨w, -, h⟩
      have hw := h.ahead
      rw [ha, eq_comm, List.append_eq_nil_iff] at hw
      obtain ⟨rfl, -⟩ := hw
      exact Cursor.past_nil_iff.1 h
  | n + 1, s, t, hn => by
    simp only [repeated, List.mem_append, List.mem_flatMap, List.mem_filter, List.mem_singleton,
      decide_eq_true_eq]
    constructor
    · rintro (⟨m, ⟨hm, hlt⟩, ht⟩ | rfl)
      · obtain ⟨v, hv, hsm⟩ := (hp s m).1 hm
        have hlen : m.ahead.length ≤ n := by
          have hahead := hsm.length_ahead
          have hposition := hsm.position
          omega
        obtain ⟨w, hw, hmt⟩ := (mem_repeated_iff hp n hlen).1 ht
        refine ⟨v ++ w, ?_, hsm.trans hmt⟩
        rw [← Language.one_add_self_mul_kstar_eq_kstar L]
        exact Or.inr (Language.append_mem_mul hv hw)
      · exact ⟨[], Language.nil_mem_kstar L, Cursor.past_nil_iff.2 rfl⟩
    · rintro ⟨w, hw, h⟩
      -- by non-empty words, as only a step that reads something counts
      obtain ⟨words, rfl, hwords⟩ := Language.mem_kstar_iff_exists_nonempty.1 hw
      rcases words with _ | ⟨v, words⟩
      · exact Or.inr (Cursor.past_nil_iff.1 h)
      · obtain ⟨m, hsm, hmt⟩ := Cursor.past_append_iff.1 h
        obtain ⟨hv, hne⟩ := hwords v List.mem_cons_self
        have hpos : 0 < v.length := List.length_pos_of_ne_nil hne
        have hlen : m.ahead.length ≤ n := by
          have hahead := hsm.length_ahead
          omega
        refine Or.inl ⟨m, ⟨(hp s m).2 ⟨v, hv, hsm⟩, by rw [hsm.position]; omega⟩,
          (mem_repeated_iff hp n hlen).2 ⟨words.flatten, ?_, hmt⟩⟩
        exact Language.join_mem_kstar fun y hy => (hwords y (List.mem_cons_of_mem v hy)).1

theorem Reads.many (hp : p.Reads L) : Reads (.many p) L∗ :=
  fun _ _ => mem_repeated_iff hp _ le_rfl

theorem Reads.atLeastOnce (hp : p.Reads L) : Reads (.atLeastOnce p) (L * L∗) :=
  hp.seq hp.many

theorem Reads.optional (hp : p.Reads L) : Reads (.optional p) (L + 1) :=
  hp.either reads_nothing

/-- What is next where a pattern that reads something starts is the first of what it reads. -/
theorem Reads.followedBy_seq (hp : p.Reads L) (hL : [] ∉ L) :
    Reads (.seq (.followedBy isIn) p) {w | w ∈ L ∧ w.head?.any isIn = true} := by
  have hhead : ∀ {s t : Cursor} {w}, w ∈ L → s.Past w t → s.ahead.head? = w.head? := by
    intro s t w hw h
    rw [h.ahead]
    exact List.head?_append_of_ne_nil w (fun he => hL (he ▸ hw))
  intro s t
  rw [mem_ends_seq]
  constructor
  · rintro ⟨m, hm, ht⟩
    simp only [ends] at hm
    split_ifs at hm with ha
    · rw [List.mem_singleton] at hm
      subst hm
      obtain ⟨w, hw, h⟩ := (hp m t).1 ht
      exact ⟨w, ⟨hw, hhead hw h ▸ ha⟩, h⟩
    · simp at hm
  · rintro ⟨w, ⟨hw, hf⟩, h⟩
    refine ⟨s, ?_, (hp s t).2 ⟨w, hw, h⟩⟩
    simp only [ends]
    rw [if_pos (hhead hw h ▸ hf)]
    exact List.mem_singleton_self s

theorem Reads.seq_precededBy (hp : p.Reads L) (hL : [] ∉ L) :
    Reads (.seq p (.precededBy isIn)) {w | w ∈ L ∧ w.getLast?.any isIn = true} := by
  have hlast : ∀ {s t : Cursor} {w}, w ∈ L → s.Past w t → t.behind.head? = w.getLast? := by
    intro s t w hw h
    have hne : w.reverse ≠ [] := fun he => hL (List.reverse_eq_nil_iff.1 he ▸ hw)
    rw [h.behind, List.head?_append_of_ne_nil _ hne, List.head?_reverse]
  intro s t
  rw [mem_ends_seq]
  constructor
  · rintro ⟨m, hm, ht⟩
    simp only [ends] at ht
    split_ifs at ht with hb
    · rw [List.mem_singleton] at ht
      subst ht
      obtain ⟨w, hw, h⟩ := (hp s t).1 hm
      exact ⟨w, ⟨hw, hlast hw h ▸ hb⟩, h⟩
    · simp at ht
  · rintro ⟨w, ⟨hw, hl⟩, h⟩
    refine ⟨t, (hp s t).2 ⟨w, hw, h⟩, ?_⟩
    simp only [ends]
    rw [if_pos (hlast hw h ▸ hl)]
    exact List.mem_singleton_self t

/-- A group is the word that is read in it. -/
theorem mem_ends_group (hp : p.Reads L) {name : String} :
    t ∈ (group name p).ends s ↔
      ∃ w ∈ L, ∃ m, s.Past w m ∧ t = { m with groups := m.groups.set name w } := by
  simp only [ends, List.mem_map]
  constructor
  · rintro ⟨m, hm, rfl⟩
    obtain ⟨w, hw, h⟩ := (hp s m).1 hm
    exact ⟨w, hw, m, h, by rw [h.since]⟩
  · rintro ⟨w, hw, m, h, rfl⟩
    exact ⟨m, (hp s m).2 ⟨w, hw, h⟩, by rw [h.since]⟩

theorem reads_char (c : Char) : Reads (char c) {[c]} := by
  refine (reads_one _).congr fun w => ?_
  constructor
  · rintro ⟨d, hd, rfl⟩
    rw [of_decide_eq_true hd]
    rfl
  · rintro rfl
    exact ⟨c, decide_eq_true rfl, rfl⟩

theorem mem_kstar_single {w : List Char} : w ∈ (single isIn)∗ ↔ ∀ c ∈ w, isIn c = true := by
  rw [Language.mem_kstar]
  constructor
  · rintro ⟨words, rfl, hwords⟩ c hc
    obtain ⟨v, hv, hcv⟩ := List.mem_flatten.1 hc
    obtain ⟨d, hd, rfl⟩ := hwords v hv
    rwa [List.mem_singleton.1 hcv]
  · intro h
    refine ⟨w.map fun c => [c], by rw [← List.flatMap_def, List.flatMap_singleton'], fun v hv => ?_⟩
    obtain ⟨c, hc, rfl⟩ := List.mem_map.1 hv
    exact ⟨c, h c hc, rfl⟩

theorem reads_word (isIn : Char → Bool) :
    Reads (.atLeastOnce (.one isIn)) {w | w ≠ [] ∧ ∀ c ∈ w, isIn c = true} := by
  refine (reads_one isIn).atLeastOnce.congr fun w => ?_
  rw [Language.mem_mul]
  constructor
  · rintro ⟨_, ⟨c, hc, rfl⟩, rest, hrest, rfl⟩
    refine ⟨List.cons_ne_nil c rest, fun d hd => ?_⟩
    rcases List.mem_cons.1 hd with rfl | hd
    · exact hc
    · exact mem_kstar_single.1 hrest d hd
  · rintro ⟨hne, h⟩
    obtain ⟨c, rest, rfl⟩ := List.exists_cons_of_ne_nil hne
    refine ⟨[c], ⟨c, h c List.mem_cons_self, rfl⟩, rest, mem_kstar_single.2 fun d hd => ?_, rfl⟩
    exact h d (List.mem_cons_of_mem c hd)

theorem intercalate_cons_eq_flatMap (sep : Char) (v : List Char) (words : List (List Char)) :
    [sep].intercalate (v :: words) = v ++ words.flatMap (sep :: ·) := by
  induction words generalizing v with
  | nil => simp
  | cons v' words ih =>
    rw [List.intercalate_cons_cons, ih]
    simp

theorem mem_kstar_char_mul {sep : Char} {w : List Char} :
    w ∈ ({[sep]} * L)∗ ↔ ∃ words : List (List Char), (∀ v ∈ words, v ∈ L) ∧
      w = words.flatMap (sep :: ·) := by
  rw [Language.mem_kstar]
  constructor
  · rintro ⟨words, rfl, hwords⟩
    have hcons : ∀ y ∈ words, ∃ v ∈ L, y = sep :: v := by
      intro y hy
      obtain ⟨_, rfl, v, hv, rfl⟩ := Language.mem_mul.1 (hwords y hy)
      exact ⟨v, hv, rfl⟩
    refine ⟨words.map List.tail, fun u hu => ?_, ?_⟩
    · obtain ⟨y, hy, rfl⟩ := List.mem_map.1 hu
      obtain ⟨v, hv, rfl⟩ := hcons y hy
      exact hv
    · have hsame : ∀ y ∈ words, sep :: y.tail = y := by
        intro y hy
        obtain ⟨v, -, rfl⟩ := hcons y hy
        rfl
      rw [List.flatMap_map, List.flatMap_def, List.map_congr_left hsame, List.map_id']
  · rintro ⟨words, hwords, rfl⟩
    refine ⟨words.map (sep :: ·), List.flatMap_def, fun y hy => ?_⟩
    obtain ⟨v, hv, rfl⟩ := List.mem_map.1 hy
    exact Language.mem_mul.2 ⟨[sep], rfl, v, hwords v hv, rfl⟩

/-- Words with a separator between them. -/
theorem Reads.separated (hp : p.Reads L) (sep : Char) :
    Reads (.seq p (.many (.seq (.char sep) p)))
      {w | ∃ words : List (List Char), words ≠ [] ∧ (∀ v ∈ words, v ∈ L) ∧
        w = [sep].intercalate words} := by
  refine (hp.seq ((reads_char sep).seq hp).many).congr fun w => ?_
  rw [Language.mem_mul]
  constructor
  · rintro ⟨v, hv, _, hrest, rfl⟩
    obtain ⟨words, hwords, rfl⟩ := mem_kstar_char_mul.1 hrest
    exact ⟨v :: words, List.cons_ne_nil v words, List.forall_mem_cons.2 ⟨hv, hwords⟩,
      (intercalate_cons_eq_flatMap sep v words).symm⟩
  · rintro ⟨words, hne, hwords, rfl⟩
    obtain ⟨v, words, rfl⟩ := List.exists_cons_of_ne_nil hne
    obtain ⟨hv, hwords⟩ := List.forall_mem_cons.1 hwords
    exact ⟨v, hv, _, mem_kstar_char_mul.2 ⟨words, hwords, rfl⟩,
      (intercalate_cons_eq_flatMap sep v words).symm⟩

/-! ## Whole texts -/

theorem accepts_iff_exists {cs : List Char} :
    p.accepts cs = true ↔ ∃ t ∈ p.ends (.start cs), t.ahead = [] := by
  simp [accepts, fullMatch?, List.find?_isSome]

theorem Reads.accepts_iff (hp : p.Reads L) {cs : List Char} : p.accepts cs = true ↔ cs ∈ L := by
  rw [accepts_iff_exists]
  constructor
  · rintro ⟨t, ht, ha⟩
    obtain ⟨w, hw, h⟩ := (hp _ t).1 ht
    exact Cursor.start_past_iff.1 ⟨t, h, ha⟩ ▸ hw
  · intro h
    obtain ⟨t, ht, ha⟩ := Cursor.start_past_iff.2 rfl
    exact ⟨t, (hp _ t).2 ⟨cs, h, ht⟩, ha⟩

/-- Where no two matches differ in their groups, the first match has those of any. -/
theorem fullMatch?_eq_some_iff {cs : List Char}
    (hu : ∀ t ∈ p.ends (.start cs), ∀ u ∈ p.ends (.start cs), t.ahead = [] → u.ahead = [] →
      t.groups = u.groups) {groups : Named (List Char)} :
    p.fullMatch? cs = some groups ↔ ∃ t ∈ p.ends (.start cs), t.ahead = [] ∧ t.groups = groups := by
  simp only [fullMatch?, Option.map_eq_some_iff]
  constructor
  · rintro ⟨t, ht, rfl⟩
    exact ⟨t, List.mem_of_find?_eq_some ht, by simpa using List.find?_some ht, rfl⟩
  · rintro ⟨t, ht, ha, rfl⟩
    have hs : ((p.ends (.start cs)).find? fun t => t.ahead.isEmpty).isSome := by
      rw [List.find?_isSome]
      exact ⟨t, ht, by simp [ha]⟩
    obtain ⟨u, hf⟩ := Option.isSome_iff_exists.1 hs
    exact ⟨u, hf, hu u (List.mem_of_find?_eq_some hf) t ht (by simpa using List.find?_some hf) ha⟩

end Pattern

end PermissionClaims
