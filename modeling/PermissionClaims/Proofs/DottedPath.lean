import Mathlib.Data.List.Basic
import Mathlib.Data.List.TakeWhile

/-!
# Texts between dots

A text is what its pieces between the dots make up, so a text is told by its pieces
(`splitOn_dot_inj`). What lies below it, behind a further dot, has further pieces
(`splitOn_dot_eq_append_iff`), and pieces match from the start only at a dot or at the end
(`splitOn_dot_prefix_iff`).
-/

namespace PermissionClaims

variable {xs ys rest s : List Char}

theorem isSuffixOf?_append (rest xs : List Char) : xs.isSuffixOf? (rest ++ xs) = some rest :=
  List.isSuffixOf?_eq_some_iff_append_eq.2 rfl

theorem isSuffixOf?_eq_none (h : ∀ rest, ys ≠ rest ++ xs) : xs.isSuffixOf? ys = none := by
  refine Option.eq_none_iff_forall_ne_some.2 fun rest hr => h rest ?_
  exact (List.isSuffixOf?_eq_some_iff_append_eq.1 hr).symm

theorem forall_mem_intercalate {P : Char → Prop} {sep : List Char} (hsep : ∀ c ∈ sep, P c) :
    ∀ {pieces : List (List Char)}, (∀ s ∈ pieces, ∀ c ∈ s, P c) → ∀ c ∈ sep.intercalate pieces, P c
  | [], _ => by simp
  | [s], h => by simpa using h
  | s :: t :: pieces, h => by
    have ih := forall_mem_intercalate hsep fun u hu => h u (List.mem_cons_of_mem s hu)
    intro c hc
    rw [List.intercalate_cons_cons, List.mem_append, List.mem_append] at hc
    rcases hc with (hc | hc) | hc
    · exact h s List.mem_cons_self c hc
    · exact hsep c hc
    · exact ih c hc

/-- What stands before the first of some character, and what stands behind it. -/
theorem append_cons_inj {c : Char} {rest' : List Char} (hx : c ∉ xs) (hy : c ∉ ys)
    (h : xs ++ c :: rest = ys ++ c :: rest') : xs = ys ∧ rest = rest' := by
  have hsplit := congrArg (List.splitOn c) h
  rw [List.splitOn_append_cons_self_of_not_mem hx, List.splitOn_append_cons_self_of_not_mem hy,
    List.cons.injEq] at hsplit
  obtain ⟨rfl, -⟩ := hsplit
  exact ⟨rfl, (List.cons.inj (List.append_cancel_left h)).2⟩

theorem splitOn_dot_inj : xs.splitOn '.' = ys.splitOn '.' ↔ xs = ys := by
  refine ⟨fun h => ?_, congrArg _⟩
  calc xs = ['.'].intercalate (xs.splitOn '.') := (List.intercalate_splitOn '.').symm
    _ = ys := by rw [h, List.intercalate_splitOn]

theorem splitOn_dot_eq_append_iff :
    ys.splitOn '.' = xs.splitOn '.' ++ rest.splitOn '.' ↔ ys = xs ++ '.' :: rest := by
  rw [← List.splitOn_append_cons_self, splitOn_dot_inj]

theorem dot_notMem_of_mem_splitOn {xs s : List Char} (h : s ∈ xs.splitOn '.') : '.' ∉ s := by
  by_cases hd : '.' ∈ xs
  · obtain ⟨as, bs, rfl, has⟩ := List.eq_append_cons_of_mem hd
    rw [List.splitOn_append_cons_self_of_not_mem has] at h
    rcases List.mem_cons.1 h with rfl | h
    · exact has
    · exact dot_notMem_of_mem_splitOn h
  · rw [List.splitOn_eq_singleton hd, List.mem_singleton] at h
    exact h ▸ hd
termination_by xs.length
decreasing_by
  subst_vars
  simp only [List.length_append, List.length_cons]
  omega

/-- The first piece is what stands before the first dot. -/
theorem takeWhile_of_splitOn_dot {pieces : List (List Char)} (h : xs.splitOn '.' = s :: pieces) :
    xs.takeWhile (· ≠ '.') = s := by
  have hs : '.' ∉ s := dot_notMem_of_mem_splitOn (h ▸ List.mem_cons_self)
  have hxs : xs = ['.'].intercalate (s :: pieces) := by rw [← h, List.intercalate_splitOn]
  have hall : ∀ c ∈ s, decide (c ≠ '.') = true := by
    intro c hc
    exact decide_eq_true fun he => hs (he ▸ hc)
  rcases pieces with _ | ⟨t, ts⟩
  · rw [hxs, List.intercalate_singleton]
    exact List.takeWhile_eq_self_iff.2 hall
  · rw [hxs, List.intercalate_cons_cons, List.append_assoc, List.takeWhile_append_of_pos hall]
    simp

/-- Where the pieces of one text come first among those of another, the other is the same or lies
below it. -/
theorem splitOn_dot_prefix_iff :
    xs.splitOn '.' <+: ys.splitOn '.' ↔ ys = xs ∨ ∃ rest, ys = xs ++ '.' :: rest := by
  constructor
  · rintro ⟨pieces, h⟩
    by_cases hp : pieces = []
    · rw [hp, List.append_nil] at h
      exact Or.inl (splitOn_dot_inj.1 h.symm)
    · have hd : ∀ s ∈ pieces, '.' ∉ s := fun s hs =>
        dot_notMem_of_mem_splitOn (h ▸ List.mem_append_right _ hs)
      rw [← List.splitOn_intercalate '.' hd hp] at h
      exact Or.inr ⟨_, splitOn_dot_eq_append_iff.1 h.symm⟩
  · rintro (rfl | ⟨rest, rfl⟩)
    · exact List.prefix_rfl
    · rw [List.splitOn_append_cons_self]
      exact List.prefix_append _ _

end PermissionClaims
