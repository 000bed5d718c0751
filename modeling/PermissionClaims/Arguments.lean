import PermissionClaims.Value.Basic

/-!
# Arguments

An operation takes arguments by position and by name. Those given by name are looked at first, in
order; then it is seen whether there are too many by position, and last whether any is missing. The
object that an operation works on is its first argument and is always there.
-/

namespace PermissionClaims

inductive ArgumentFault where
  | unexpected (operation name : String)
  | repeated (operation name : String)
  /-- A name is given that the operation passes on by itself. -/
  | taken (operation name : String)
  | tooMany (operation : String) (least most given : Nat)
  | missing (operation name : String)
  | noneByName (operation : String)

namespace ArgumentFault

def inQuotes (s : String) : String :=
  "'" ++ s ++ "'"

def message : ArgumentFault → String
  | unexpected operation name =>
    operation ++ "() got an unexpected keyword argument " ++ inQuotes name
  | repeated operation name => operation ++ "() got multiple values for argument " ++ inQuotes name
  | taken operation name =>
    operation ++ "() got multiple values for keyword argument " ++ inQuotes name
  | tooMany operation least most given =>
    operation ++ "() takes from " ++ toString least ++ " to " ++ toString most ++
      " positional arguments but " ++ toString given ++ " were given"
  | missing operation name =>
    operation ++ "() missing 1 required positional argument: " ++ inQuotes name
  | noneByName operation => operation ++ "() takes no keyword arguments"

end ArgumentFault

/-- The parameters of an operation: those that are required, those that are not, and whether it
takes any others by name. -/
structure Signature where
  operation : String
  required : List String
  optional : List String
  takesOthers : Bool

/-- Arguments by their parameter, and those beside the parameters. -/
structure Arguments where
  bound : Fields
  others : Fields

namespace Signature

def receiver : String := "self"

def parameters (s : Signature) : List String :=
  s.required ++ s.optional

def bindNamed (s : Signature) (args : Arguments) : Fields → Except ArgumentFault Arguments
  | [] => .ok args
  | (name, v) :: rest =>
    if name = receiver ∨ args.bound.has name then .error (.repeated s.operation name)
    else if name ∈ s.parameters then
      bindNamed s { args with bound := args.bound ++ [(name, v)] } rest
    else if s.takesOthers then
      bindNamed s { args with others := args.others ++ [(name, v)] } rest
    else .error (.unexpected s.operation name)

def bind (s : Signature) (positional : List Value) (named : Fields) :
    Except ArgumentFault Arguments := do
  let args ← s.bindNamed ⟨s.parameters.zip positional, []⟩ named
  if s.parameters.length < positional.length then
    throw (.tooMany s.operation (s.required.length + 1) (s.parameters.length + 1)
      (positional.length + 1))
  match s.required.find? fun name => !args.bound.has name with
  | some name => throw (.missing s.operation name)
  | none => return args

end Signature

end PermissionClaims
