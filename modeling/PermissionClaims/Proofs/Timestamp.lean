import Mathlib.Algebra.Order.Ring.Int
import PermissionClaims.Log.Line
import PermissionClaims.Proofs.PrintableValue

/-!
# Times in log lines

What the clock makes of a time in milliseconds is not far off from it, so within thirty thousand
years of 1970 every date can be written (`Time.exists_seconds`). By the default pattern it is
written with digits and signs of punctuation (`Time.printable_write`).
-/

namespace PermissionClaims

open Text

theorem Number.roundDiv_le (n d : Nat) : roundDiv n d ≤ n / d + 1 := by
  simp only [roundDiv]
  split <;> omega

namespace Binary64

theorem leadingBit_le (num den : Nat) : leadingBit num den ≤ num.log2 := by
  simp only [leadingBit]
  split <;> omega

theorem scaled_neg (m : Nat) {k : Nat} (hk : 0 < k) :
    Number.scaled m 2 (-(k : Int)) = (m, 2 ^ k) := by
  have hn : ¬ (0 : Int) ≤ -(k : Int) := by omega
  rw [Number.scaled, if_neg hn, Int.neg_neg, Int.toNat_natCast]
  rfl

/-- A number that is at most `b` in size has a floor that is, too. -/
theorem exists_floor?_finite (negative : Bool) {m b k : Nat} (hk : 0 < k) (hm : m ≤ b * 2 ^ k) :
    ∃ n : Int, (finite negative m (-(k : Int))).floor? = some n ∧ -(b : Int) ≤ n ∧ n ≤ b := by
  have hd : (0 : Int) < (2 ^ k : Nat) := Int.natCast_pos.2 (Nat.two_pow_pos k)
  have hb : (m : Int) ≤ b * (2 ^ k : Nat) := by exact_mod_cast hm
  refine ⟨_, by rw [floor?, magnitude, scaled_neg m hk], ?_, ?_⟩
  · rw [Int.le_ediv_iff_mul_le hd, Int.neg_mul]
    split <;> omega
  · refine Int.ediv_le_of_le_mul hd ?_
    split <;> omega

theorem exists_floor?_ofMantissa (negative : Bool) {m b k : Nat} (hk : 1 < k)
    (hm : m ≤ b * 2 ^ k) :
    ∃ n : Int, (ofMantissa negative m (-(k : Int))).floor? = some n ∧ -(b : Int) ≤ n ∧ n ≤ b := by
  have hmax : ¬ maxExponent < -(k : Int) := by
    simp only [maxExponent]
    omega
  by_cases hb : m = mantissaBound
  · obtain ⟨j, rfl⟩ : ∃ j, k = j + 1 := ⟨k - 1, by omega⟩
    have he : -((j + 1 : Nat) : Int) + 1 = -(j : Int) := by omega
    have hmax' : ¬ maxExponent < -(j : Int) := by
      simp only [maxExponent]
      omega
    have hh : mantissaBound / 2 ≤ b * 2 ^ j := by
      rw [hb, Nat.pow_succ, ← Nat.mul_assoc] at hm
      omega
    simp only [ofMantissa, hb, if_true, he, if_neg hmax']
    exact exists_floor?_finite negative (by omega) hh
  · simp only [ofMantissa, if_neg hb, if_neg hmax]
    exact exists_floor?_finite negative (by omega) hm

/-- The unit is a fraction of one here, so rounding adds at most one to the size of a quotient. -/
theorem exists_floor?_ofRatio (negative : Bool) {num : Nat} (den : Nat) (hn : num < 2 ^ 50) :
    ∃ n : Int, (ofRatio negative num den).floor? = some n
      ∧ -((num + 1 : Nat) : Int) ≤ n ∧ n ≤ (num + 1 : Nat) := by
  have hmin : minExponent = -1074 := rfl
  unfold ofRatio
  split
  · rename_i h
    subst h
    exact exists_floor?_finite negative (by decide : 0 < 1074) (Nat.zero_le _)
  · rename_i h
    have hl : num.log2 < 50 := (Nat.log2_lt h).2 hn
    have hle : leadingBit num den ≤ num.log2 := leadingBit_le num den
    obtain ⟨k, he⟩ : ∃ k : Nat, max (leadingBit num den - 52) minExponent = -(k : Int) :=
      Int.exists_eq_neg_ofNat (by omega)
    have hk : 1 < k := by omega
    simp only [he, scaled_neg 1 (by omega : 0 < k), Nat.mul_one]
    refine exists_floor?_ofMantissa negative hk ?_
    have hr := Number.roundDiv_le (num * 2 ^ k) den
    have hd := Nat.div_le_self (num * 2 ^ k) den
    have hp : 0 < 2 ^ k := Nat.two_pow_pos k
    rw [Nat.succ_mul]
    omega

end Binary64

namespace Time

/-- A cycle of the calendar has 400 years, and the last of them ends in the next one. -/
theorem yearOf_bounds (seconds : Int) :
    400 * ((seconds / 86400 + epoch) / cycle) ≤ yearOf seconds
      ∧ yearOf seconds ≤ 400 * ((seconds / 86400 + epoch) / cycle) + 402 := by
  have hb (p : Prop) [Decidable p] :
      0 ≤ (if p then 1 else 0 : Int) ∧ (if p then 1 else 0 : Int) ≤ 1 := by
    split <;> omega
  have hr : ((seconds / 86400 + epoch) % cycle).toNat ≤ 146096 := by
    simp only [cycle]
    omega
  have hy (rest : Nat) (h : rest ≤ 146096) :
      (rest - rest / 1460 + rest / 36524 - rest / 146096) / 365 ≤ 401 := by omega
  obtain ⟨y, b, hy, hb, he⟩ : ∃ (y : Nat) (b : Int), y ≤ 401 ∧ (0 ≤ b ∧ b ≤ 1)
      ∧ yearOf seconds = 400 * ((seconds / 86400 + epoch) / cycle) + y + b :=
    ⟨_, _, hy _ hr, hb _, rfl⟩
  omega

theorem fault?_eq_none {seconds : Int} (h : -2 ^ 50 ≤ seconds) (h' : seconds ≤ 2 ^ 50) :
    fault? seconds = none := by
  have hy := yearOf_bounds seconds
  simp only [epoch, cycle] at hy
  have h₁ : ¬ (seconds < -clockBound ∨ clockBound < seconds) := by
    simp only [clockBound]
    omega
  have h₂ : ¬ (yearOf seconds - firstYear < -yearBound
      ∨ yearBound ≤ yearOf seconds - firstYear) := by
    simp only [yearBound, firstYear]
    omega
  have h₃ : ¬ yearBound ≤ yearOf seconds := by
    simp only [yearBound]
    omega
  simp only [fault?]
  rw [if_neg h₁, if_neg h₂, if_neg h₃]

/-- Within thirty thousand years of 1970 every date can be written. -/
theorem exists_seconds {time : Int} (h : time.natAbs < 2 ^ 50) : ∃ n, seconds time = .ok n := by
  obtain ⟨n, hn, hl, hu⟩ := Binary64.exists_floor?_ofRatio (time < 0) 1000 h
  have hf : fault? n = none := fault?_eq_none (by omega) (by omega)
  refine ⟨n, ?_⟩
  rw [seconds, clock?, hn]
  simp [hf]

/-! ## The default pattern -/

theorem Stretch.printable_toList {s : Stretch} (hs : Printable s.sign)
    (hf : isPrintable s.filler = true) (hb : Printable s.body) : Printable s.toList :=
  printable_append.2 ⟨printable_append.2 ⟨hs, printable_replicate hf⟩, hb⟩

theorem Stretch.printable_literal {c : Char} (h : isPrintable c = true) :
    Printable (literal c).toList := by
  have hb : isPrintable ' ' = true := by decide
  exact printable_toList printable_nil hb (printable_cons.2 ⟨h, printable_nil⟩)

theorem Stretch.printable_toText {ss : List Stretch} (h : ∀ s ∈ ss, Printable s.toList) :
    Printable (toText ss) :=
  printable_flatMap h

theorem Directive.printable_number (d : Directive) (usual : Filling) (atLeast : Nat) (n : Int) :
    Printable (d.number usual atLeast n).toList := by
  have hds := (Number.numeric_digits n.natAbs).printable
  have hs : Printable (if n < 0 then ['-'] else []) := by split <;> decide
  have hz : isPrintable '0' = true := by decide
  have hb : isPrintable ' ' = true := by decide
  unfold Directive.number
  cases d.filling.getD usual with
  | zeros => exact Stretch.printable_toList hs hz hds
  | blanks | nothing =>
    exact Stretch.printable_toList printable_nil hb (printable_append.2 ⟨hs, hds⟩)

def numberLetters : List Char :=
  ['Y', 'm', 'd', 'H', 'M', 'S']

theorem writeDirective_ofLetter {letter : Char} (h : letter ∈ numberLetters) (time : Int) :
    ∃ usual atLeast n, writeDirective time (.ofLetter letter)
      = [(Directive.ofLetter letter).number usual atLeast n] := by
  simp only [numberLetters, List.mem_cons, List.not_mem_nil, or_false] at h
  rcases h with rfl | rfl | rfl | rfl | rfl | rfl <;> exact ⟨_, _, _, rfl⟩

theorem pieces_defaultPattern :
    pieces Log.Style.defaultPattern.toList
      = [.directive (.ofLetter 'Y'), .literal '-', .directive (.ofLetter 'm'), .literal '-',
        .directive (.ofLetter 'd'), .literal ' ', .directive (.ofLetter 'H'), .literal ':',
        .directive (.ofLetter 'M'), .literal ':', .directive (.ofLetter 'S')] := by
  simp [Log.Style.defaultPattern, pieces, readDirective, readVariant, isFlag, fillingOf?,
    Directive.ofLetter]

/-- A time written by the default pattern has numbers and signs of punctuation only. -/
theorem printable_write (time : Int) :
    Printable (write Log.Style.defaultPattern.toList time) := by
  have hd (letter : Char) (h : letter ∈ numberLetters) :
      ∀ s ∈ writeDirective time (.ofLetter letter), Printable s.toList := by
    obtain ⟨usual, atLeast, n, hn⟩ := writeDirective_ofLetter h time
    rw [hn]
    exact List.forall_mem_singleton.2 (Directive.printable_number _ usual atLeast n)
  have hl (c : Char) (h : isPrintable c = true) :
      ∀ s ∈ [Stretch.literal c], Printable s.toList :=
    List.forall_mem_singleton.2 (Stretch.printable_literal h)
  have hs : ∀ s ∈ stretches (writeDirective time) Log.Style.defaultPattern.toList,
      Printable s.toList := by
    rw [stretches, pieces_defaultPattern, List.forall_mem_flatMap]
    intro p hp
    simp only [List.mem_cons, List.not_mem_nil, or_false] at hp
    rcases hp with rfl | rfl | rfl | rfl | rfl | rfl | rfl | rfl | rfl | rfl | rfl
    all_goals first | exact hd _ (by decide) | exact hl _ (by decide)
  simp only [write]
  split
  · exact Stretch.printable_toText hs
  · exact printable_nil

end Time

end PermissionClaims
