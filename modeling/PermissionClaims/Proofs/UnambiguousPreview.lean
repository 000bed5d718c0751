import PermissionClaims.Proofs.PrintableValue
import PermissionClaims.Proofs.QuotedReading

/-!
# What a preview tells

No value is written with an ellipsis at its end (`Value.getLast?_render_ne`), so a preview ends in
one only if it was cut. Of all values only plain texts are written with a quote at the start
(`Value.eq_plain_of_isQuote`), and no two of them alike; so a preview that shows all of a value is
that of a plain text only if the value is this text (`eq_plain_of_preview_eq`).
-/

namespace PermissionClaims

open Text

theorem not_isQuote_of_isNumeral {c : Char} (h : isNumeral c = true) : isQuote c = false := by
  by_contra hq
  obtain rfl | rfl := isQuote_iff.1 (eq_true_of_ne_false hq)
  · exact absurd h (by decide)
  · exact absurd h (by decide)

theorem Numeric.ellipsis_notMem {cs : List Char} (h : Numeric cs) : Log.ellipsis ∉ cs :=
  fun he => absurd (h _ he) (by decide)

theorem getLast?_cons_concat (a b : Char) (cs : List Char) :
    (a :: (cs ++ [b])).getLast? = some b := by
  rw [← List.cons_append, List.getLast?_concat]

namespace Value

/-- Nothing but a plain text is written with a quote at the start. -/
theorem eq_plain_of_isQuote {v : Value} {c : Char} (h : v.render.head? = some c)
    (hq : isQuote c = true) : ∃ s, v = plain s := by
  have hn {cs : List Char} (hs : Numeric cs) (hc : cs.head? = some c) : False := by
    have hf := not_isQuote_of_isNumeral (hs c (List.mem_of_mem_head? hc))
    exact Bool.false_ne_true (hf.symm.trans hq)
  have hd {d : Char} (hc : some d = some c) (hdq : isQuote d = false) : False := by
    rw [← Option.some.inj hc, hdq] at hq
    cases hq
  cases v with
  | null => exact (hd h rfl).elim
  | bool b => cases b <;> exact (hd h rfl).elim
  | int n => exact (hn n.numeric_toList h).elim
  | float x => exact (hn x.numeric_render h).elim
  | text t =>
    cases t with
    | plain s => exact ⟨s, rfl⟩
    | level l => exact (hd h rfl).elim
  | bytes b => exact (hd h rfl).elim
  | list items => exact (hd h rfl).elim
  | tuple items => exact (hd h rfl).elim
  | dict entries => exact (hd h rfl).elim

theorem getLast?_render_ne (v : Value) : v.render.getLast? ≠ some Log.ellipsis := by
  intro h
  have hn {cs : List Char} (hs : Numeric cs) (hc : cs.getLast? = some Log.ellipsis) : False :=
    hs.ellipsis_notMem (List.mem_of_getLast? hc)
  have hd {a d : Char} {cs : List Char} (hc : (a :: (cs ++ [d])).getLast? = some Log.ellipsis)
      (hde : d ≠ Log.ellipsis) : False := by
    rw [getLast?_cons_concat] at hc
    exact hde (Option.some.inj hc)
  have hq (cs : List Char) : quoteFor cs ≠ Log.ellipsis := by
    unfold quoteFor
    split <;> decide
  cases v with
  | null => exact absurd h (by decide)
  | bool b => cases b <;> exact absurd h (by decide)
  | int n => exact hn n.numeric_toList h
  | float x => exact hn x.numeric_render h
  | text t =>
    cases t with
    | plain s => exact hd h (hq _)
    | level l => exact hd h (by decide)
  | bytes b =>
    have hb : quotedBytes b = 'b' :: ((quoteFor _ :: _) ++ [quoteFor _]) := rfl
    rw [render, hb] at h
    exact hd h (hq _)
  | list items => exact hd h (by decide)
  | tuple items => exact hd h (by decide)
  | dict entries => exact hd h (by decide)

end Value

namespace Log

variable {limit limit' : Int} {cs : List Char} {s : String} {v : Value}

theorem getLast?_cutTo_iff (he : cs.getLast? ≠ some ellipsis) :
    (cutTo limit cs).getLast? = some ellipsis ↔ limit < cs.length := by
  by_cases h : limit < cs.length
  · rw [cutTo_of_lt h, List.getLast?_concat]
    exact iff_of_true rfl h
  · rw [cutTo_of_le (by omega)]
    exact iff_of_false he h

/-- All that a preview shows where there is room for it. -/
def whole : Value → List Char
  | .null => []
  | v => v.render

theorem preview_eq_cutTo (hl : 1 ≤ limit) (v : Value) :
    preview limit v = cutTo limit (whole v) := by
  cases v with
  | null =>
    refine (cutTo_of_le ?_).symm
    show (0 : Int) ≤ limit
    omega
  | _ => exact congrArg (cutTo limit) (oneLine_eq (Value.printable_render _))

theorem getLast?_whole_ne (v : Value) : (whole v).getLast? ≠ some ellipsis := by
  cases v with
  | null => exact Option.some_ne_none _ ∘ Eq.symm
  | _ => exact Value.getLast?_render_ne _

theorem getLast?_preview_iff (hl : 1 ≤ limit) (v : Value) :
    (preview limit v).getLast? = some ellipsis ↔ limit < (whole v).length := by
  rw [preview_eq_cutTo hl, getLast?_cutTo_iff (getLast?_whole_ne v)]

theorem eq_plain_of_whole_eq (h : whole (.plain s) = whole v) : v = .plain s := by
  have hq : (whole v).head? = some (quoteFor s.toList) := by
    rw [← h]
    rfl
  obtain ⟨t, rfl⟩ : ∃ t, v = .plain t := by
    cases v with
    | null => cases hq
    | _ => exact Value.eq_plain_of_isQuote hq (isQuote_quoteFor _)
  have hst : s.toList = t.toList := quotedWith_injective isPrintable h
  rw [String.toList_inj.1 hst]

/-- What all is shown of a value is shown of no plain text but the value itself, be it cut or
not. -/
theorem eq_plain_of_preview_eq (hl : 1 ≤ limit) (hl' : 1 ≤ limit')
    (hv : ((whole v).length : Int) ≤ limit') (h : preview limit (.plain s) = preview limit' v) :
    v = .plain s := by
  have hs : ¬ limit < (whole (.plain s)).length := by
    rw [← getLast?_preview_iff hl, h, getLast?_preview_iff hl']
    omega
  rw [preview_eq_cutTo hl, preview_eq_cutTo hl', cutTo_of_le (by omega), cutTo_of_le hv] at h
  exact eq_plain_of_whole_eq h

/-- A preview has no more characters than its limit, and all of them are printable. It shows all
of a value, or ends in an ellipsis and is as long as it may be. As far as they are not cut, two
texts do not have the same preview, and no other value has the preview of a text. -/
theorem preview_tells_value {limit : Int} (hl : 1 ≤ limit) :
    (∀ v : Value,
      ((preview limit v).length : Int) ≤ limit ∧ Printable (preview limit v)
        ∧ ((preview limit v).getLast? = some ellipsis ↔ limit < (whole v).length)
        ∧ (limit < (whole v).length → ((preview limit v).length : Int) = limit)
        ∧ ((whole v).length ≤ limit → preview limit v = whole v))
      ∧ (∀ s t : String, (whole (.plain s)).length ≤ limit → (whole (.plain t)).length ≤ limit →
        preview limit (.plain s) = preview limit (.plain t) → s = t)
      ∧ ∀ (s : String) (v : Value) (limit' : Int), 1 ≤ limit' → (∀ t, v ≠ .plain t) →
        (whole v).length ≤ limit' → preview limit (.plain s) ≠ preview limit' v := by
  refine ⟨fun v => ⟨length_preview_le hl v, printable_preview limit v, getLast?_preview_iff hl v,
    fun h => ?_, fun h => ?_⟩, fun s t _ ht h => ?_, fun s v limit' hl' hv hw h => ?_⟩
  · rw [preview_eq_cutTo hl, length_cutTo_of_lt hl h]
  · rw [preview_eq_cutTo hl, cutTo_of_le h]
  · have hts : Value.plain t = .plain s := eq_plain_of_preview_eq hl hl ht h
    exact (Text.plain.inj (Value.text.inj hts)).symm
  · exact hv s (eq_plain_of_preview_eq hl hl' hw h)

-- with its quotes the first text has one character too many, and the second has just enough
theorem preview_tells_value_five :
    (1 : Int) ≤ 5 ∧ (preview 5 (.plain "abcd")).getLast? = some ellipsis
      ∧ ((preview 5 (.plain "abcd")).length : Int) = 5
      ∧ preview 5 (.plain "abc") = whole (.plain "abc")
      ∧ preview 5 (.plain "\n") ≠ preview 5 (.plain "n")
      ∧ preview 5 (.plain "[1]") ≠ preview 3 (.list [.int (.ofByte 1)]) := by
  have hl : (1 : Int) ≤ 5 := by decide
  obtain ⟨hall, htexts, hothers⟩ := preview_tells_value hl
  have hcut : (5 : Int) < (whole (.plain "abcd")).length := by decide
  obtain ⟨-, -, hlast, hlength, -⟩ := hall (.plain "abcd")
  obtain ⟨-, -, -, -, hwhole⟩ := hall (.plain "abc")
  refine ⟨hl, hlast.2 hcut, hlength hcut, hwhole (by decide), fun h => ?_, ?_⟩
  · exact absurd (htexts "\n" "n" (by decide) (by decide) h) (by decide)
  · exact hothers "[1]" (.list [.int (.ofByte 1)]) 3 (by decide) (fun t => by simp [Value.plain])
      (by decide)

end Log

end PermissionClaims
