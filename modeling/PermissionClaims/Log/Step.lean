import PermissionClaims.Log.Call
import PermissionClaims.Log.State

/-!
# Runs of a log

A log goes through steps: it is set up, its levels and handlers change, records are given to it, and
the library is called and gives it notices. To set up is all or nothing: if the settings are at
fault everything stays as it was.
-/

namespace PermissionClaims.Log

inductive Step where
  /-- Sets up the root from settings or, without them, from the environment. -/
  | setUp (settings : Option Fields) (env : Environment) (json : Option Bool)
  | addSilent (level : Int)
  | setLevel (logger : String) (level : Int)
  | log (record : Record)
  | parse (d : Dialect) (v : Value)
  | checkText (held : List Value) (query : Value)
  | access (permissions request : Value)
  | call (x : Call)

structure Outcome where
  result : Except Failure Answer
  written : String

def Outcome.done : Outcome :=
  ⟨.ok .done, ""⟩

def readConfig (settings : Option Fields) (env : Environment) : Except Failure Config :=
  match settings with
  | some fields => (Config.ofFields fields).mapError .settings
  | none => env.config.mapError .environment

/-- A check against a claim that is made from arguments first. -/
def checkCall (held : List Value) (query : Value) : Traced (Except Failure Answer) := do
  match (Claim.ofArguments held []).mapError Failure.ofChangeFault with
  | .ok c => return .ok (.truth (← c.checkText .strict query))
  | .error f => return .error f

namespace State

/-- What comes of a call of the library, whose notices all go to the log. -/
def observe (s : State) (time : Int) (call : Traced (Except Failure Answer)) : Outcome :=
  ⟨call.value, String.join (call.notices.map (s.emitNotice time))⟩

def call (s : State) (time : Int) (x : Traced (Except Failure Answer)) : State × Outcome :=
  (x.notices.foldl rememberNotice s, s.observe time x)

def give (s : State) (r : Record) : Outcome :=
  if s.isEnabled r.logger r.level.toInt then
    match r.make with
    | .ok r => ⟨.ok .done, s.emit r⟩
    | .error f => ⟨.error (.nameTaken f), ""⟩
  else .done

def step (s : State) (time : Int) : Step → State × Outcome
  | .setUp settings env json =>
    match readConfig settings env with
    | .ok c => (s.setUp c json, .done)
    | .error f => (s, ⟨.error f, ""⟩)
  | .addSilent level => (s.addHandler (.silent level), .done)
  | .setLevel logger level => (s.setLevel logger level, .done)
  | .log r =>
    let logger := if isRoot r.logger then rootName else r.logger
    let s := s.addLogger logger
    (s.remember logger r.level.toInt, s.give { r with time, logger })
  | .parse d v => s.call time (parseCall d v)
  | .checkText held query => s.call time (checkCall held query)
  | .access permissions request => s.call time (Call.run (.hasAccess .strict permissions request))
  | .call x => s.call time x.run

def run (s : State) : List (Int × Step) → List (State × Outcome)
  | [] => []
  | (time, x) :: xs => s.step time x :: run (s.step time x).1 xs

end State

end PermissionClaims.Log
