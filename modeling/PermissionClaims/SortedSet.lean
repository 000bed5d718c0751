/-!
# Sets as increasing lists

A finite set over a strict order is the list of its members in increasing order. Of members that the
order does not tell apart the first one stays.
-/

namespace PermissionClaims.SortedSet

variable {α : Type}

def insert (lt : α → α → Bool) (x : α) : List α → List α
  | [] => [x]
  | y :: ys =>
    if lt x y then x :: y :: ys else if lt y x then y :: insert lt x ys else y :: ys

def ofList (lt : α → α → Bool) (xs : List α) : List α :=
  xs.foldl (fun s x => insert lt x s) []

variable {lt : α → α → Bool}

theorem mem_insert_imp {x y : α} :
    ∀ {s : List α}, y ∈ insert lt x s → y = x ∨ y ∈ s
  | [], h => by simpa [insert] using h
  | z :: s, h => by
    unfold insert at h
    split at h
    · exact List.mem_cons.1 h
    · split at h
      · rcases List.mem_cons.1 h with rfl | h
        · exact .inr List.mem_cons_self
        · exact (mem_insert_imp h).imp_right (List.mem_cons_of_mem z)
      · exact .inr h

theorem pairwise_insert (trans : ∀ a b c, lt a b = true → lt b c = true → lt a c = true) (x : α) :
    ∀ {s : List α}, s.Pairwise (lt · ·) → (insert lt x s).Pairwise (lt · ·)
  | [], _ => List.pairwise_singleton _ x
  | y :: s, h => by
    have ⟨hy, hs⟩ := List.pairwise_cons.1 h
    unfold insert
    split
    · rename_i hx
      refine List.pairwise_cons.2 ⟨fun z hz => ?_, h⟩
      rcases List.mem_cons.1 hz with rfl | hz
      · exact hx
      · exact trans x y z hx (hy z hz)
    · split
      · rename_i hx
        refine List.pairwise_cons.2 ⟨fun z hz => ?_, pairwise_insert trans x hs⟩
        rcases mem_insert_imp hz with rfl | hz
        · exact hx
        · exact hy z hz
      · exact h

theorem mem_insert_of_mem {x y : α} : ∀ {s : List α}, y ∈ s → y ∈ insert lt x s
  | [], h => absurd h List.not_mem_nil
  | z :: s, h => by
    unfold insert
    split
    · exact List.mem_cons_of_mem x h
    · split
      · rcases List.mem_cons.1 h with rfl | h
        · exact List.mem_cons_self
        · exact List.mem_cons_of_mem z (mem_insert_of_mem h)
      · exact h

/-- What is put in is there afterwards, or something that the order does not tell from it. -/
theorem exists_mem_insert (x : α) :
    ∀ s : List α, ∃ y ∈ insert lt x s, y = x ∨ lt x y = false ∧ lt y x = false
  | [] => ⟨x, List.mem_singleton_self x, .inl rfl⟩
  | z :: s => by
    unfold insert
    split
    · exact ⟨x, List.mem_cons_self, .inl rfl⟩
    · rename_i hx
      split
      · obtain ⟨y, hy, h⟩ := exists_mem_insert x s
        exact ⟨y, List.mem_cons_of_mem z hy, h⟩
      · rename_i hz
        exact ⟨z, List.mem_cons_self, .inr ⟨Bool.not_eq_true _ ▸ hx, Bool.not_eq_true _ ▸ hz⟩⟩

theorem mem_foldl_insert_imp {y : α} :
    ∀ (xs : List α) {s : List α}, y ∈ xs.foldl (fun s x => insert lt x s) s → y ∈ s ∨ y ∈ xs
  | [], _, h => .inl h
  | x :: xs, s, h => by
    rcases mem_foldl_insert_imp xs h with h | h
    · rcases mem_insert_imp h with rfl | h
      · exact .inr List.mem_cons_self
      · exact .inl h
    · exact .inr (List.mem_cons_of_mem x h)

theorem mem_foldl_insert_of_mem {y : α} :
    ∀ (xs : List α) {s : List α}, y ∈ s → y ∈ xs.foldl (fun s x => insert lt x s) s
  | [], _, h => h
  | _ :: xs, _, h => mem_foldl_insert_of_mem xs (mem_insert_of_mem h)

theorem exists_mem_foldl_insert {x : α} :
    ∀ (xs s : List α), x ∈ xs → ∃ y ∈ xs.foldl (fun s x => insert lt x s) s,
      y = x ∨ lt x y = false ∧ lt y x = false
  | z :: xs, s, h => by
    rcases List.mem_cons.1 h with rfl | h
    · obtain ⟨y, hy, hxy⟩ := exists_mem_insert x s
      exact ⟨y, mem_foldl_insert_of_mem xs hy, hxy⟩
    · exact exists_mem_foldl_insert xs _ h

theorem pairwise_foldl_insert
    (trans : ∀ a b c, lt a b = true → lt b c = true → lt a c = true) :
    ∀ (xs : List α) {s : List α}, s.Pairwise (lt · ·) →
      (xs.foldl (fun s x => insert lt x s) s).Pairwise (lt · ·)
  | [], _, h => h
  | x :: xs, _, h => pairwise_foldl_insert trans xs (pairwise_insert trans x h)

theorem pairwise_ofList (trans : ∀ a b c, lt a b = true → lt b c = true → lt a c = true)
    (xs : List α) : (ofList lt xs).Pairwise (lt · ·) :=
  pairwise_foldl_insert trans xs List.Pairwise.nil

theorem mem_ofList_imp {xs : List α} {x : α} (h : x ∈ ofList lt xs) : x ∈ xs :=
  (mem_foldl_insert_imp xs h).resolve_left List.not_mem_nil

theorem exists_mem_ofList {xs : List α} {x : α} (h : x ∈ xs) :
    ∃ y ∈ ofList lt xs, y = x ∨ lt x y = false ∧ lt y x = false :=
  exists_mem_foldl_insert xs [] h

theorem mem_ofList_iff (h : ∀ x y, lt x y = false → lt y x = false → x = y) {xs : List α} {x : α} :
    x ∈ ofList lt xs ↔ x ∈ xs := by
  refine ⟨mem_ofList_imp, fun hx => ?_⟩
  obtain ⟨y, hy, hxy⟩ : ∃ y ∈ ofList lt xs, y = x ∨ lt x y = false ∧ lt y x = false :=
    exists_mem_ofList hx
  rcases hxy with rfl | ⟨h₁, h₂⟩
  · exact hy
  · exact h x y h₁ h₂ ▸ hy

end PermissionClaims.SortedSet
