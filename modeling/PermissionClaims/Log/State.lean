import PermissionClaims.Config.Basic
import PermissionClaims.Log.Line
import PermissionClaims.Log.Loggers
import PermissionClaims.Log.Notice

/-!
# Where log records go

A log has loggers with levels, and handlers at the root. A record is made only if its level is at
least that of its logger, and is then given to every handler whose level it reaches. While there is
no handler at all, a record that calls for attention is written as its bare message.
-/

namespace PermissionClaims.Log

/-- A handler, with its level. One kind writes nothing and the other lines of a style. -/
inductive Handler where
  | silent (level : Int)
  | stream (level : Int) (json : Bool)
  deriving DecidableEq, Repr

namespace Handler

def level : Handler → Int
  | silent level => level
  | stream level _ => level

/-- A line with its end; a record that has no line leaves none. -/
def ended {ε : Type} (line : Except ε String) : String :=
  match line with
  | .ok text => text ++ "\n"
  | .error _ => ""

def write (r : Record) : Handler → String
  | silent _ => ""
  | stream _ json => ended (Style.line ⟨json, ""⟩ r)

end Handler

structure State where
  rootLevel : Int := LogLevel.warning.severity
  handlers : List Handler := []
  loggers : Loggers := {}
  deriving DecidableEq, Repr

namespace State

def effectiveLevel (s : State) (logger : String) : Int :=
  if isRoot logger then s.rootLevel else (s.loggers.level? logger).getD s.rootLevel

/-- Whether a record is made at all, as decided before or else by the level of the logger; at zero
or below none is. -/
def isEnabled (s : State) (logger : String) (level : Int) : Bool :=
  (s.loggers.decided? logger level).getD (0 < level && s.effectiveLevel logger ≤ level)

def remember (s : State) (logger : String) (level : Int) : State :=
  { s with loggers := s.loggers.keep logger level (s.isEnabled logger level) }

def emit (s : State) (r : Record) : String :=
  if s.handlers.isEmpty then
    if LogLevel.warning.severity ≤ r.level.toInt then Handler.ended r.message else ""
  else String.join ((s.handlers.filter fun h => h.level ≤ r.level.toInt).map (Handler.write r))

def emitNotice (s : State) (time : Int) (n : Notice) : String :=
  let r := Record.ofNotice time n
  if s.isEnabled r.logger r.level.toInt then s.emit r else ""

def rememberNotice (s : State) (n : Notice) : State :=
  s.remember n.logger n.level.severity

/-- To remember a decision changes no other one. -/
theorem isEnabled_remember (s : State) (logger other : String) (level n : Int) :
    (s.remember logger level).isEnabled other n = s.isEnabled other n := by
  have hl : (s.remember logger level).effectiveLevel other = s.effectiveLevel other := by
    simp only [effectiveLevel, remember, Loggers.level?_keep]
  rw [isEnabled, hl]
  simp only [remember, Loggers.decided?_keep]
  split
  · rename_i h
    obtain ⟨rfl, rfl⟩ := h
    rfl
  · rfl

/-- A logger that records are given to is there from then on. -/
def addLogger (s : State) (logger : String) : State :=
  { s with loggers := s.loggers.add logger }

def addHandler (s : State) (h : Handler) : State :=
  { s with handlers := s.handlers ++ [h] }

def removeHandler (s : State) (h : Handler) : State :=
  { s with handlers := s.handlers.erase h }

def setLevel (s : State) (logger : String) (level : Int) : State :=
  if isRoot logger then { s with rootLevel := level, loggers := s.loggers.forget }
  else { s with loggers := s.loggers.setLevel logger level }

/-- The root gets the configured level and a handler in place of all that it had; a choice of JSON
comes before the configured one. -/
def setUp (s : State) (c : Config) (json : Option Bool) : State :=
  let level := c.logLevel.severity
  let s := s.setLevel rootName level
  let s := s.handlers.foldl removeHandler s
  s.addHandler (.stream level (json.getD c.logJson))

/-- Where the handlers to remove are those that there are, each is the first one in its turn. -/
theorem foldl_removeHandler : ∀ {s : State} {hs : List Handler}, s.handlers = hs →
    hs.foldl removeHandler s = { s with handlers := [] }
  | s, [], e => by rw [List.foldl_nil, ← e]
  | s, h :: hs, e => by
    have hr : (s.removeHandler h).handlers = hs := by rw [removeHandler, e, List.erase_cons_head]
    rw [List.foldl_cons, foldl_removeHandler hr, removeHandler]

/-- What there was at the root leaves no trace. -/
theorem setUp_eq (s : State) (c : Config) (json : Option Bool) :
    s.setUp c json =
      { rootLevel := c.logLevel.severity,
        handlers := [.stream c.logLevel.severity (json.getD c.logJson)],
        loggers := s.loggers.forget } := by
  have hl : s.setLevel rootName c.logLevel.severity
      = { s with rootLevel := c.logLevel.severity, loggers := s.loggers.forget } :=
    if_pos (by decide)
  rw [setUp, foldl_removeHandler rfl, hl]
  rfl

end State

end PermissionClaims.Log
