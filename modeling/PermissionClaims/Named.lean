/-!
# Things by name

A list of named things keeps the order in which the names first came. To set a name that is there
changes the thing and not its place.
-/

namespace PermissionClaims

abbrev Named (α : Type) := List (String × α)

namespace Named

variable {α : Type}

def get? (entries : Named α) (name : String) : Option α :=
  entries.lookup name

def has (entries : Named α) (name : String) : Bool :=
  entries.any fun e => e.1 = name

def set (name : String) (x : α) : Named α → Named α
  | [] => [(name, x)]
  | (n, y) :: rest => if n = name then (n, x) :: rest else (n, y) :: set name x rest

def setAll (entries settings : Named α) : Named α :=
  settings.foldl (fun entries e => set e.1 e.2 entries) entries

def ofSettings (settings : Named α) : Named α :=
  setAll [] settings

@[simp]
theorem get?_nil (name : String) : Named.get? ([] : Named α) name = none := rfl

theorem get?_cons (e : String × α) (rest : Named α) (name : String) :
    Named.get? (e :: rest) name = if name = e.1 then some e.2 else Named.get? rest name := by
  unfold get?
  rw [List.lookup_cons]
  by_cases h : name = e.1
  · simp [h]
  · rw [beq_false_of_ne h]
    simp [h]

theorem isSome_get? (entries : Named α) (name : String) :
    (entries.get? name).isSome = entries.has name := by
  induction entries with
  | nil => rfl
  | cons e rest ih =>
    rw [get?_cons, has, List.any_cons]
    by_cases h : name = e.1
    · simp [h]
    · rw [if_neg h, ih]
      simp [has, Ne.symm h]

theorem get?_filter {keep : String × α → Bool} {name : String} : ∀ {entries : Named α},
    (∀ e ∈ entries, e.1 = name → keep e = true) →
      Named.get? (entries.filter keep) name = entries.get? name
  | [], _ => rfl
  | e :: rest, h => by
    obtain ⟨he, hr⟩ := List.forall_mem_cons.1 h
    by_cases hk : keep e = true
    · rw [List.filter_cons_of_pos hk, get?_cons, get?_cons, get?_filter hr]
    · rw [List.filter_cons_of_neg hk, get?_cons, if_neg fun hn => hk (he hn.symm), get?_filter hr]

theorem get?_map {β : Type} (f : α → β) (name : String) : ∀ entries : Named α,
    Named.get? (entries.map fun e => (e.1, f e.2)) name = (entries.get? name).map f
  | [] => rfl
  | e :: rest => by
    rw [List.map_cons, get?_cons, get?_cons, get?_map f name rest]
    split <;> rfl

/-- What is not there is filled in from elsewhere. -/
theorem get?_append_missing (entries others : Named α) (name : String) :
    Named.get? (entries ++ others.filter fun e => !entries.has e.1) name
      = (entries.get? name).or (others.get? name) := by
  rw [Named.get?, List.lookup_append]
  show (entries.get? name).or (Named.get? _ name) = _
  rcases h : entries.get? name with _ | x
  · rw [get?_filter]
    rintro e - rfl
    rw [← isSome_get?, h]
    rfl
  · rfl

theorem nodup_names_append_missing {entries others : Named α} (h : (others.map (·.1)).Nodup) :
    ((entries ++ others.filter fun e => !entries.has e.1).map (·.1)).Nodup
      ↔ (entries.map (·.1)).Nodup := by
  have hfilter : ((others.filter fun e => !entries.has e.1).map (·.1)).Nodup :=
    h.sublist (List.filter_sublist.map _)
  rw [List.map_append, List.nodup_append]
  refine ⟨fun h => h.1, fun hn => ⟨hn, hfilter, fun name hname other hother heq => ?_⟩⟩
  obtain ⟨e, he, rfl⟩ := List.mem_map.1 hname
  obtain ⟨o, ho, rfl⟩ := List.mem_map.1 hother
  have hmissing : entries.has o.1 = false := by simpa using (List.mem_filter.1 ho).2
  rw [has, List.any_eq_false] at hmissing
  exact hmissing e he (decide_eq_true heq)

theorem get?_set (name : String) (x : α) (entries : Named α) (other : String) :
    (set name x entries).get? other = if other = name then some x else entries.get? other := by
  induction entries with
  | nil => exact get?_cons (name, x) [] other
  | cons e rest ih => grind [set, get?_cons]

/-- The names stay in their order, and a new one comes last. -/
theorem names_set (name : String) (x : α) (entries : Named α) :
    (set name x entries).map (·.1) =
      if name ∈ entries.map (·.1) then entries.map (·.1) else entries.map (·.1) ++ [name] := by
  induction entries with
  | nil => rfl
  | cons e rest ih =>
    by_cases he : e.1 = name
    · simp [set, he]
    · by_cases h : name ∈ rest.map (·.1) <;> simp_all [set, Ne.symm he]

theorem nodup_names_set (name : String) (x : α) {entries : Named α}
    (h : (entries.map (·.1)).Nodup) : ((set name x entries).map (·.1)).Nodup := by
  rw [names_set]
  split
  · exact h
  · rename_i hn
    refine List.nodup_append.2 ⟨h, by simp, fun n h₁ m h₂ he => hn ?_⟩
    rwa [← List.mem_singleton.1 h₂, ← he]

theorem nodup_names_setAll : ∀ (settings : Named α) {entries : Named α},
    (entries.map (·.1)).Nodup → ((entries.setAll settings).map (·.1)).Nodup
  | [], _, h => h
  | e :: rest, _, h => nodup_names_setAll rest (nodup_names_set e.1 e.2 h)

/-- What is set comes before what was there. -/
theorem get?_setAll (name : String) : ∀ settings entries : Named α,
    (entries.setAll settings).get? name
      = ((ofSettings settings).get? name).or (entries.get? name)
  | [], _ => rfl
  | e :: rest, entries => by
    have ih := get?_setAll name rest
    show (setAll (set e.1 e.2 entries) rest).get? name
      = ((setAll (set e.1 e.2 []) rest).get? name).or (entries.get? name)
    rw [ih, ih, get?_set, get?_set, Option.or_assoc]
    split <;> rfl

theorem get?_ofSettings_eq_none {name : String} : ∀ {settings : Named α},
    (∀ e ∈ settings, e.1 ≠ name) → (ofSettings settings).get? name = none
  | [], _ => rfl
  | e :: rest, h => by
    obtain ⟨he, hr⟩ := List.forall_mem_cons.1 h
    show (setAll (set e.1 e.2 []) rest).get? name = none
    rw [get?_setAll, get?_ofSettings_eq_none hr, get?_set, if_neg he.symm]
    rfl

/-- Of the settings of a name the last one stays. -/
theorem get?_ofSettings (name : String) : ∀ settings : Named α,
    (ofSettings settings).get? name = Named.get? settings.reverse name
  | [] => rfl
  | e :: rest => by
    show (setAll (set e.1 e.2 []) rest).get? name = _
    rw [get?_setAll, get?_ofSettings name rest, List.reverse_cons]
    show _ = List.lookup name (rest.reverse ++ [e])
    rw [List.lookup_append]
    rfl

theorem get?_eq_some_iff_mem {name : String} {x : α} : ∀ {entries : Named α},
    (entries.map (·.1)).Nodup → (entries.get? name = some x ↔ (name, x) ∈ entries)
  | [], _ => by simp
  | e :: rest, h => by
    rw [List.map_cons, List.nodup_cons] at h
    rw [get?_cons, List.mem_cons]
    by_cases hn : name = e.1
    · have hr : (name, x) ∉ rest := fun hm => h.1 (hn ▸ List.mem_map_of_mem hm)
      rw [if_pos hn, or_iff_left hr, Option.some.injEq, Prod.ext_iff]
      exact ⟨fun hx => ⟨hn, hx.symm⟩, fun hx => hx.2.symm⟩
    · have he : (name, x) ≠ e := fun he => hn (congrArg Prod.fst he)
      rw [if_neg hn, or_iff_right he, get?_eq_some_iff_mem h.2]

end Named

end PermissionClaims
