import PermissionClaims.Value.Basic

/-!
# Values as keys

Keys are the same if they are equal as numbers, whatever their kind, as texts, or as bytes; tuples
are compared item by item.
-/

namespace PermissionClaims.Value

/-- A truth value counts as the number one or zero. -/
def asInt? : Value → Option Int
  | bool b => some (if b then 1 else 0)
  | int n => some n.toInt
  | _ => none

def sameNumber (v w : Value) : Bool :=
  match v.asInt?, w.asInt?, v, w with
  | some m, some n, _, _ => m = n
  | some m, none, _, float y => y.equalsInt m
  | none, some n, float x, _ => x.equalsInt n
  | none, none, float x, float y => x.equals y
  | _, _, _, _ => false

mutual

def same : Value → Value → Bool
  | null, null => true
  | text s, text t => s.content = t.content
  | bytes b, bytes c => b = c
  | list vs, list ws => sameAll vs ws
  | tuple vs, tuple ws => sameAll vs ws
  | v, w => sameNumber v w

def sameAll : List Value → List Value → Bool
  | [], [] => true
  | v :: vs, w :: ws => same v w && sameAll vs ws
  | _, _ => false

end

/-- Sets a key: in the place it has, or at the end. -/
def setEntry (k v : Value) : List (Value × Value) → List (Value × Value)
  | [] => [(k, v)]
  | (k', v') :: rest => if same k' k then (k', v) :: rest else (k', v') :: setEntry k v rest

/-- The dictionary of a list of settings, later ones over earlier ones. -/
def ofEntries (entries : List (Value × Value)) : Value :=
  dict (entries.foldl (fun d e => setEntry e.1 e.2 d) [])

def entry? (key : String) (entries : List (Value × Value)) : Option Value :=
  (entries.find? fun e => same e.1 (plain key)).map (·.2)

end PermissionClaims.Value
