import PermissionClaims.Log.Preview
import PermissionClaims.Proofs.DottedPath

/-!
# What a value shows

Whatever a value holds, what is written for it is printable (`printable_render`): a text or bytes in
it stand between quotes, where a character that does not show as itself is written by its code
point. So is a preview, which has no more characters than its limit (`printable_preview`,
`length_preview_le`).
-/

namespace PermissionClaims

open Text

variable {cs : List Char}

theorem printable_intercalate {sep : List Char} {pieces : List (List Char)} (hs : Printable sep)
    (h : ∀ s ∈ pieces, Printable s) : Printable (sep.intercalate pieces) :=
  forall_mem_intercalate hs h

theorem printable_flatMap {α : Type} {f : α → List Char} {xs : List α}
    (h : ∀ x ∈ xs, Printable (f x)) : Printable (xs.flatMap f) := by
  intro c hc
  obtain ⟨x, hx, hcx⟩ := List.mem_flatMap.1 hc
  exact h x hx c hcx

/-! ## Numbers -/

theorem isPrintable_of_isPlainAscii {c : Char} (h : isPlainAscii c = true) :
    isPrintable c = true := by
  rw [isPrintable, h, Bool.true_or]

/-- The characters that numbers are written with. -/
def isNumeral (c : Char) : Bool :=
  c.isDigit || c ∈ ['-', '+', '.', 'e', 'i', 'n', 'f', 'a']

theorem isNumeral_of_isDigit {c : Char} (h : c.isDigit = true) : isNumeral c = true := by
  rw [isNumeral, h, Bool.true_or]

theorem isPrintable_of_isNumeral {c : Char} (h : isNumeral c = true) : isPrintable c = true := by
  refine isPrintable_of_isPlainAscii ?_
  rw [isNumeral, Bool.or_eq_true, decide_eq_true_eq] at h
  rcases h with hd | hm
  · have hc : 48 ≤ c.toNat ∧ c.toNat ≤ 57 := by
      simpa [Char.isDigit, UInt32.le_iff_toNat_le] using hd
    simp only [isPlainAscii, Bool.and_eq_true, decide_eq_true_eq]
    omega
  · have hall : ['-', '+', '.', 'e', 'i', 'n', 'f', 'a'].all isPlainAscii = true := by decide
    exact List.all_eq_true.1 hall c hm

/-- A text of numerals. -/
def Numeric (cs : List Char) : Prop :=
  ∀ c ∈ cs, isNumeral c = true

instance (cs : List Char) : Decidable (Numeric cs) :=
  decidable_of_iff (cs.all isNumeral = true) List.all_eq_true

@[simp] theorem numeric_cons {c : Char} :
    Numeric (c :: cs) ↔ isNumeral c = true ∧ Numeric cs :=
  List.forall_mem_cons

@[simp] theorem numeric_append {ds : List Char} :
    Numeric (cs ++ ds) ↔ Numeric cs ∧ Numeric ds :=
  List.forall_mem_append

theorem Numeric.mono {ds : List Char} (h : Numeric ds) (hs : cs ⊆ ds) : Numeric cs :=
  fun c hc => h c (hs hc)

theorem Numeric.printable (h : Numeric cs) : Printable cs :=
  fun c hc => isPrintable_of_isNumeral (h c hc)

theorem numeric_zeros (n : Nat) : Numeric (List.replicate n '0') := by
  intro c hc
  rw [List.eq_of_mem_replicate hc]
  rfl

namespace Number

theorem numeric_digits (n : Nat) : Numeric (digits n) :=
  fun _ hc => isNumeral_of_isDigit (Nat.isDigit_of_mem_toDigits (by decide) (by decide) hc)

theorem numeric_paddedDigits (width n : Nat) : Numeric (paddedDigits width n) :=
  numeric_append.2 ⟨numeric_zeros _, numeric_digits n⟩

theorem numeric_signedDigits (n : Int) : Numeric (signedDigits n) := by
  have hd := numeric_digits n.natAbs
  unfold signedDigits
  split
  · exact numeric_cons.2 ⟨rfl, hd⟩
  · exact hd

end Number

theorem Numeral.numeric_toList (n : Numeral) : Numeric n.toList :=
  Number.numeric_signedDigits n.toInt

namespace Binary64

theorem numeric_sign (negative : Bool) : Numeric (sign negative) := by
  cases negative <;> decide

theorem numeric_withPoint {point : Bool} {whole fraction : List Char} (hw : Numeric whole)
    (hf : Numeric fraction) : Numeric (withPoint point whole fraction) := by
  have hp : isNumeral '.' = true := rfl
  unfold withPoint
  split
  · exact hw
  · simp [hw, hf, hp]

theorem numeric_exponentPart (e : Int) : Numeric (exponentPart 'e' e) := by
  have hm : isNumeral 'e' = true := rfl
  have hs : isNumeral (if e < 0 then '-' else '+') = true := by split <;> rfl
  simp [exponentPart, hm, hs, Number.numeric_paddedDigits]

theorem numeric_dropFinalZeros (h : Numeric cs) : Numeric (dropFinalZeros cs) := by
  refine h.mono fun c hc => ?_
  rw [dropFinalZeros, List.mem_reverse] at hc
  exact List.mem_reverse.1 ((List.dropWhile_sublist _).subset hc)

theorem numeric_positional (point : Bool) (h : Numeric cs) (leading : Int) :
    Numeric (positional point cs leading) := by
  have ht (n : Nat) : Numeric (cs.take n) := h.mono (List.take_subset n cs)
  have hd (n : Nat) : Numeric (cs.drop n) := h.mono (List.drop_subset n cs)
  unfold positional
  split
  · exact numeric_withPoint (by decide) (numeric_append.2 ⟨numeric_zeros _, h⟩)
  · exact numeric_withPoint (numeric_append.2 ⟨ht _, numeric_zeros _⟩) (hd _)

theorem numeric_exponential (point : Bool) (h : Numeric cs) (leading : Int) :
    Numeric (exponential point 'e' cs leading) :=
  numeric_append.2 ⟨numeric_withPoint (h.mono (List.take_subset 1 cs))
    (h.mono (List.drop_subset 1 cs)), numeric_exponentPart leading⟩

theorem numeric_render : ∀ x : Binary64, Numeric x.render
  | .nan => by decide
  | .infinity s => by cases s <;> decide
  | .finite s 0 _ => numeric_append.2 ⟨numeric_sign s, by decide⟩
  | .finite s (m + 1) e => by
    have hds := numeric_dropFinalZeros (Number.numeric_digits (shortest (m + 1) e).coefficient)
    have hz : Numeric ['.', '0'] := by decide
    simp only [render]
    split
    · exact numeric_append.2 ⟨numeric_sign s, numeric_exponential false hds _⟩
    · refine numeric_append.2 ⟨numeric_sign s, ?_⟩
      have hp := numeric_positional false hds
      split
      · exact hp _
      · exact numeric_append.2 ⟨hp _, hz⟩

end Binary64

/-! ## Texts and bytes -/

namespace Text

theorem isPlainAscii_of_mem_hexDigits {x : Char} : ∀ {width n : Nat}, x ∈ hexDigits width n →
    isPlainAscii x = true
  | 0, _, h => by cases h
  | width + 1, n, h => by
    have hall : ∀ n < 16, isPlainAscii (Nat.digitChar n) = true := by decide
    rw [hexDigits, List.mem_append, List.mem_singleton] at h
    rcases h with h | rfl
    · exact isPlainAscii_of_mem_hexDigits h
    · exact hall _ (Nat.mod_lt n (by decide))

theorem printable_hexDigits (width n : Nat) : Printable (hexDigits width n) :=
  fun _ hx => isPrintable_of_isPlainAscii (isPlainAscii_of_mem_hexDigits hx)

theorem printable_codeEscape (c : Char) : Printable (codeEscape c) := by
  have hb : isPrintable '\\' = true := by decide
  have hx : isPrintable 'x' = true ∧ isPrintable 'u' = true ∧ isPrintable 'U' = true := by decide
  simp only [codeEscape]
  split_ifs <;> simp [hb, hx, printable_hexDigits]

/-- A character between quotes is written with printable ones, whatever it is itself. -/
theorem printable_escape {raw : Char → Bool} (hraw : ∀ c, raw c = true → isPrintable c = true)
    {q : Char} (hq : isPrintable q = true) (c : Char) : Printable (escape raw q c) := by
  have hb : isPrintable '\\' = true := by decide
  unfold escape
  split_ifs with h _ _ _ hr
  · rcases h with rfl | rfl
    · simp [hb, hq]
    · simp [hb]
  · decide
  · decide
  · decide
  · simp [hraw c hr]
  · exact printable_codeEscape c

theorem printable_quotedWith {raw : Char → Bool}
    (hraw : ∀ c, raw c = true → isPrintable c = true) (cs : List Char) :
    Printable (quotedWith raw cs) := by
  have hq : isPrintable (quoteFor cs) = true := by
    unfold quoteFor
    split <;> decide
  have hc : Printable (cs.flatMap (escape raw (quoteFor cs))) :=
    printable_flatMap fun c _ => printable_escape hraw hq c
  simp [quotedWith, hq, hc]

theorem printable_quoted (cs : List Char) : Printable (quoted cs) :=
  printable_quotedWith (fun _ h => h) cs

theorem printable_quotedBytes (bytes : List UInt8) : Printable (quotedBytes bytes) :=
  printable_cons.2 ⟨by decide, printable_quotedWith (fun _ => isPrintable_of_isPlainAscii) _⟩

theorem printable_render : ∀ t : Text, Printable t.render
  | .plain s => printable_quoted s.toList
  | .level l => by cases l <;> decide

end Text

/-! ## Values -/

namespace Value

theorem printable_separator : Printable separator := by decide

mutual

/-- By induction on the value: what stands around its parts is printable, and so are they. -/
theorem printable_render : ∀ v : Value, Printable v.render
  | .null => by decide
  | .bool true => by decide
  | .bool false => by decide
  | .int n => n.numeric_toList.printable
  | .float x => x.numeric_render.printable
  | .text t => t.printable_render
  | .bytes b => printable_quotedBytes b
  | .list items => by
    have hi := printable_intercalate printable_separator (printable_renderAll items)
    have hb : isPrintable '[' = true ∧ isPrintable ']' = true := by decide
    simp [render, hi, hb]
  | .tuple items => by
    have hi := printable_intercalate printable_separator (printable_renderAll items)
    have hb : isPrintable '(' = true ∧ isPrintable ')' = true := by decide
    have hf : Printable (if items.length = 1 then [','] else []) := by split <;> decide
    simp [render, hi, hb, hf]
  | .dict entries => by
    have hi := printable_intercalate printable_separator (printable_renderEntries entries)
    have hb : isPrintable '\x7b' = true ∧ isPrintable '\x7d' = true := by decide
    simp [render, hi, hb]

theorem printable_renderAll : ∀ vs : List Value, ∀ s ∈ renderAll vs, Printable s
  | [] => by simp [renderAll]
  | v :: vs => by
    simp only [renderAll, List.forall_mem_cons]
    exact ⟨printable_render v, printable_renderAll vs⟩

theorem printable_renderEntries :
    ∀ entries : List (Value × Value), ∀ s ∈ renderEntries entries, Printable s
  | [] => by simp [renderEntries]
  | (k, v) :: rest => by
    have hc : Printable [':', ' '] := by decide
    simp only [renderEntries, List.forall_mem_cons, printable_append]
    exact ⟨⟨⟨printable_render k, hc⟩, printable_render v⟩, printable_renderEntries rest⟩

end

end Value

/-! ## Previews -/

namespace Log

theorem escapeBreak_eq {c : Char} (h : isPrintable c = true) : escapeBreak c = [c] := by
  have hn : c ≠ '\n' := by
    rintro rfl
    exact absurd h (by decide)
  have hr : c ≠ '\r' := by
    rintro rfl
    exact absurd h (by decide)
  rw [escapeBreak, if_neg hn, if_neg hr]

/-- In a printable text there is no line break to be written out. -/
theorem oneLine_eq : ∀ {cs : List Char}, Printable cs → oneLine cs = cs
  | [], _ => rfl
  | c :: cs, h => by
    rw [printable_cons] at h
    rw [oneLine, List.flatMap_cons, escapeBreak_eq h.1, ← oneLine, oneLine_eq h.2]
    rfl

theorem printable_cutTo {limit : Int} (h : Printable cs) : Printable (cutTo limit cs) := by
  have he : isPrintable ellipsis = true := by decide +kernel
  unfold cutTo firstChars
  split
  · simp [he, h.mono (List.take_subset _ cs)]
  · exact h

theorem cutTo_of_le {limit : Int} (h : (cs.length : Int) ≤ limit) : cutTo limit cs = cs :=
  if_neg (by omega)

theorem cutTo_of_lt {limit : Int} (h : limit < cs.length) :
    cutTo limit cs = firstChars (limit - 1) cs ++ [ellipsis] :=
  if_pos h

theorem length_cutTo_of_lt {limit : Int} (hl : 1 ≤ limit) (h : limit < cs.length) :
    ((cutTo limit cs).length : Int) = limit := by
  rw [cutTo_of_lt h, firstChars, List.length_append, List.length_take, List.length_singleton,
    if_pos (by omega)]
  omega

theorem length_cutTo_le {limit : Int} (hl : 1 ≤ limit) :
    ((cutTo limit cs).length : Int) ≤ limit := by
  by_cases h : limit < cs.length
  · exact Int.le_of_eq (length_cutTo_of_lt hl h)
  · rw [cutTo_of_le (by omega)]
    omega

theorem printable_preview (limit : Int) (v : Value) : Printable (preview limit v) := by
  cases v with
  | null => exact printable_nil
  | _ =>
    refine printable_cutTo ?_
    rw [oneLine_eq (Value.printable_render _)]
    exact Value.printable_render _

theorem length_preview_le {limit : Int} (hl : 1 ≤ limit) (v : Value) :
    ((preview limit v).length : Int) ≤ limit := by
  cases v with
  | null =>
    simp only [preview, List.length_nil]
    omega
  | _ => exact length_cutTo_le hl

end Log

end PermissionClaims
