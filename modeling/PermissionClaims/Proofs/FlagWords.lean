import PermissionClaims.Config.Environment
import PermissionClaims.Proofs.LetterCase

/-!
# Flags by word

A flag is given by one of a few words, in either case of the letters of ASCII and with blanks of any
kind around it (`Says`). To trim the text and write it in small letters finds exactly these
(`says_iff`): no word holds a letter that a character from outside of ASCII turns into.
-/

namespace PermissionClaims

namespace Text

variable {before word after : List Char}

theorem exists_trim (cs : List Char) : ∃ before after : List Char,
    cs = before ++ trim cs ++ after ∧ (∀ c ∈ before, isBlank c = true)
      ∧ ∀ c ∈ after, isBlank c = true := by
  refine ⟨cs.takeWhile isBlank, ((cs.dropWhile isBlank).reverse.takeWhile isBlank).reverse, ?_,
    fun c hc => List.mem_takeWhile_imp hc,
    fun c hc => List.mem_takeWhile_imp (List.mem_reverse.1 hc)⟩
  rw [trim, List.append_assoc, ← List.reverse_append, List.takeWhile_append_dropWhile,
    List.reverse_reverse, List.takeWhile_append_dropWhile]

theorem dropWhile_isBlank_append (hb : ∀ c ∈ before, isBlank c = true) (hne : word ≠ [])
    (hw : ∀ c ∈ word, isBlank c = false) :
    (before ++ (word ++ after)).dropWhile isBlank = word ++ after := by
  obtain ⟨c, cs, rfl⟩ := List.exists_cons_of_ne_nil hne
  have hc : isBlank c = false := hw c List.mem_cons_self
  rw [List.dropWhile_append_of_pos hb, List.cons_append, List.dropWhile_cons_of_neg (by simp [hc])]

theorem trim_append (hb : ∀ c ∈ before, isBlank c = true) (ha : ∀ c ∈ after, isBlank c = true)
    (hw : ∀ c ∈ word, isBlank c = false) : trim (before ++ word ++ after) = word := by
  by_cases hne : word = []
  · have hall : ∀ c ∈ before ++ word ++ after, isBlank c = true := by
      rw [hne, List.append_nil, List.forall_mem_append]
      exact ⟨hb, ha⟩
    rw [trim, List.dropWhile_eq_nil_iff.2 hall, hne]
    rfl
  · have ha' : ∀ c ∈ after.reverse, isBlank c = true := fun c hc => ha c (List.mem_reverse.1 hc)
    have hw' : ∀ c ∈ word.reverse, isBlank c = false := fun c hc => hw c (List.mem_reverse.1 hc)
    have hr : (after.reverse ++ (word.reverse ++ [])).dropWhile isBlank = word.reverse ++ [] :=
      dropWhile_isBlank_append ha' (List.reverse_ne_nil_iff.2 hne) hw'
    rw [List.append_nil] at hr
    rw [trim, List.append_assoc, dropWhile_isBlank_append hb hne hw, List.reverse_append, hr,
      List.reverse_reverse]

end Text

namespace Environment

open Text

def words (b : Bool) : List String :=
  if b then trueWords else falseWords

/-- A text says yes or no: it is one of the words for it in any case of the letters of ASCII, with
or without blanks around it. -/
def Says (b : Bool) (given : String) : Prop :=
  ∃ (w : String) (before word after : List Char), w ∈ words b
    ∧ given.toList = before ++ word ++ after ∧ word.map Char.toLower = w.toList
    ∧ (∀ c ∈ before, isBlank c = true) ∧ ∀ c ∈ after, isBlank c = true

theorem words_plain : ∀ b, ∀ w ∈ words b, (∀ s ∈ lowerStrays, ¬ s <:+: w.toList)
    ∧ w.toList.all isPlainAscii = true ∧ w.toList.any isBlank = false := by
  decide

theorem lower_eq_word_iff {b : Bool} {w : String} (hw : w ∈ words b) (cs : List Char) :
    lower cs = w.toList ↔ cs.map Char.toLower = w.toList :=
  flatMap_eq_iff_map_eq lowerChar_cases (words_plain b w hw).1 (words_plain b w hw).2.1 cs

theorem isBlank_toLower {c : Char} (h : isBlank c = true) : isBlank c.toLower = true := by
  have hall : ∀ n < 91, 65 ≤ n → isBlank (Char.ofNat n) = false := by decide
  have hu : ¬ c.isUpper := by
    intro hu
    have hc : 65 ≤ c.toNat ∧ c.toNat ≤ 90 := by
      simpa [Char.isUpper, UInt32.le_iff_toNat_le] using hu
    have hb := hall c.toNat (by omega) hc.1
    rw [Char.ofNat_toNat, h] at hb
    cases hb
  rw [Char.toLower_eq_of_not_isUpper hu, h]

theorem not_isBlank_of_word {b : Bool} {w : String} {word : List Char} (hw : w ∈ words b)
    (h : word.map Char.toLower = w.toList) : ∀ c ∈ word, isBlank c = false := by
  intro c hc
  by_contra hb
  have hl := isBlank_toLower (eq_true_of_ne_false hb)
  exact List.any_eq_false.1 (words_plain b w hw).2.2 _ (h ▸ List.mem_map_of_mem hc) hl

theorem says_iff {b : Bool} {given : String} :
    Says b given ↔ String.ofList (lower (trim given.toList)) ∈ words b := by
  constructor
  · rintro ⟨w, before, word, after, hw, hg, hword, hb, ha⟩
    rw [hg, trim_append hb ha (not_isBlank_of_word hw hword), (lower_eq_word_iff hw _).2 hword,
      String.ofList_toList]
    exact hw
  · intro hw
    obtain ⟨before, after, hg, hb, ha⟩ := exists_trim given.toList
    have hl := (lower_eq_word_iff hw (trim given.toList)).1 String.toList_ofList.symm
    exact ⟨_, before, _, after, hw, hg, hl, hb, ha⟩

/-- No text says both. -/
theorem Says.unique {b b' : Bool} {given : String} (h : Says b given) (h' : Says b' given) :
    b = b' := by
  have hdisjoint : ∀ w ∈ trueWords, w ∉ falseWords := by decide
  rw [says_iff] at h h'
  cases b <;> cases b'
  · rfl
  · exact absurd h (hdisjoint _ h')
  · exact absurd h' (hdisjoint _ h)
  · rfl

variable {env : Environment} {name : String} {b : Bool}

theorem flag_eq (env : Environment) (name : String) :
    env.flag name =
      if String.ofList (lower (trim (env.get name "false").toList)) ∈ words true then .ok true else
      if String.ofList (lower (trim (env.get name "false").toList)) ∈ words false then .ok false
      else .error (.badFlag name (env.get name "false")) := rfl

theorem flag_of_says (h : Says b (env.get name "false")) : env.flag name = .ok b := by
  have hw := says_iff.1 h
  cases b with
  | true => rw [flag_eq, if_pos hw]
  | false =>
    have hn := mt says_iff.2 fun ht : Says true _ => Bool.false_ne_true (h.unique ht)
    rw [flag_eq, if_neg hn, if_pos hw]

theorem flag_of_not_says (h : ∀ b, ¬ Says b (env.get name "false")) :
    env.flag name = .error (.badFlag name (env.get name "false")) := by
  rw [flag_eq, if_neg (mt says_iff.2 (h true)), if_neg (mt says_iff.2 (h false))]

end Environment

end PermissionClaims
