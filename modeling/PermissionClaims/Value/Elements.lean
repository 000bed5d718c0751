import PermissionClaims.Value.Basic

/-!
# The elements of a value

A list or a tuple is gone through by its items, a text by its characters, bytes by their numbers and
a dictionary by its keys. No other value has elements.
-/

namespace PermissionClaims

structure NoElements where
  value : Value

def NoElements.message (e : NoElements) : String :=
  "'" ++ e.value.kind ++ "' object is not iterable"

namespace Value

def elements? : Value → Option (List Value)
  | list items => some items
  | tuple items => some items
  | text t => some (t.content.toList.map fun c => plain (String.ofList [c]))
  | bytes b => some (b.map fun x => int (.ofByte x))
  | dict entries => some (entries.map (·.1))
  | _ => none

def elements (v : Value) : Except NoElements (List Value) :=
  match v.elements? with
  | some vs => .ok vs
  | none => .error ⟨v⟩

theorem elements_eq_ok_iff {v : Value} {vs : List Value} :
    v.elements = .ok vs ↔ v.elements? = some vs := by
  unfold elements
  cases v.elements? <;> simp

theorem elements_of_eq_none {v : Value} (h : v.elements? = none) : v.elements = .error ⟨v⟩ := by
  unfold elements
  rw [h]

end Value

end PermissionClaims
