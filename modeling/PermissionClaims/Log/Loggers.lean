import PermissionClaims.Named

/-!
# Loggers

A logger has a name with dots and can have a level of its own. The loggers that there are hang
together by their names: each is below the nearest one above it, or else below the root, and counts
as of the level of the nearest that has one.

What was decided for a logger and a level holds until some level is set, even if another logger has
come between in the meantime.
-/

namespace PermissionClaims.Log

def rootName : String := "root"

def isRoot (logger : String) : Bool :=
  logger = "" || logger = rootName

/-- The names above a name, the nearest first, all of them written backwards: what comes before a
dot. The character right before a dot ends a name, even if it is a dot itself. -/
def namesAbove : List Char → List (List Char)
  | '.' :: c :: cs => (c :: cs) :: namesAbove cs
  | _ :: cs => namesAbove cs
  | [] => []

theorem length_lt_of_mem_namesAbove {cs name : List Char} (h : name ∈ namesAbove cs) :
    name.length < cs.length := by
  fun_induction namesAbove cs with
  | case1 c cs ih =>
    rcases List.mem_cons.1 h with rfl | h
    · simp
    · have := ih h
      simp only [List.length_cons]
      omega
  | case2 c cs _ ih =>
    have := ih h
    simp only [List.length_cons]
    omega
  | case3 => simp at h

def above (logger : String) : List String :=
  (namesAbove logger.toList.reverse).map fun cs => String.ofList cs.reverse

theorem length_lt_of_mem_above {logger upper : String} (h : upper ∈ above logger) :
    upper.length < logger.length := by
  obtain ⟨cs, hcs, rfl⟩ := List.mem_map.1 h
  have := length_lt_of_mem_namesAbove hcs
  simpa [← String.length_toList] using this

/-- The loggers in the order in which they came, their levels, and what was decided for a logger and
a level since a level was set. A level of zero counts as not set. -/
structure Loggers where
  names : List String := []
  levels : Named Int := []
  decisions : List ((String × Int) × Bool) := []
  deriving DecidableEq, Repr

namespace Loggers

def add (s : Loggers) (logger : String) : Loggers :=
  if isRoot logger ∨ logger ∈ s.names then s else { s with names := s.names ++ [logger] }

def cameBefore (s : Loggers) (first second : String) : Bool :=
  first ∈ s.names.takeWhile (· ≠ second)

/-- Whether a logger can have another one below it. One whose name is a start of the root's name
leaves to the root what was there before. -/
def admits (s : Loggers) (upper lower : String) : Bool :=
  upper ∈ s.names && !(upper.toList.isPrefixOf rootName.toList && s.cameBefore lower upper)

/-- The logger that another one is below, if that is not the root. -/
def parent? (s : Loggers) (logger : String) : Option String :=
  (above logger).find? fun upper => s.admits upper logger

theorem length_parent?_lt {s : Loggers} {logger upper : String}
    (h : s.parent? logger = some upper) : upper.length < logger.length :=
  length_lt_of_mem_above (List.mem_of_find?_eq_some h)

/-- A logger and those that it is below, without the root. -/
def lineage (s : Loggers) (logger : String) : List String :=
  match h : s.parent? logger with
  | some upper =>
    have := length_parent?_lt h
    logger :: s.lineage upper
  | none => [logger]
termination_by logger.length

/-- The level of the nearest logger that has one. -/
def level? (s : Loggers) (logger : String) : Option Int :=
  (s.lineage logger).findSome? fun name => (s.levels.get? name).filter (· ≠ 0)

def forget (s : Loggers) : Loggers :=
  { s with decisions := [] }

def setLevel (s : Loggers) (logger : String) (level : Int) : Loggers :=
  { (s.add logger).forget with levels := s.levels.set logger level }

def decided? (s : Loggers) (logger : String) (level : Int) : Option Bool :=
  s.decisions.lookup (logger, level)

def keep (s : Loggers) (logger : String) (level : Int) (made : Bool) : Loggers :=
  { s with decisions := ((logger, level), made) :: s.decisions }

theorem decided?_keep (s : Loggers) (logger other : String) (level n : Int) (made : Bool) :
    (s.keep logger level made).decided? other n =
      if other = logger ∧ n = level then some made else s.decided? other n := by
  simp only [decided?, keep, List.lookup_cons]
  by_cases h : (other, n) = (logger, level)
  · obtain ⟨rfl, rfl⟩ := Prod.mk.inj h
    simp
  · rw [beq_false_of_ne h, if_neg fun hs => h (Prod.ext hs.1 hs.2)]

/-- What a logger is below depends on the names alone. -/
theorem lineage_eq_of_names {s t : Loggers} (h : t.names = s.names) (logger : String) :
    t.lineage logger = s.lineage logger := by
  have hp (name : String) : t.parent? name = s.parent? name := by
    simp only [parent?, admits, cameBefore, h]
  fun_induction s.lineage logger with
  | case1 logger upper h _ ih =>
    rw [lineage]
    split
    · rename_i h'
      rw [hp, h, Option.some.injEq] at h'
      subst h'
      simp [ih]
    · rename_i h'
      simp [hp, h] at h'
  | case2 logger h =>
    rw [lineage]
    split
    · rename_i h'
      simp [hp, h] at h'
    · rfl

theorem level?_eq_of_names {s t : Loggers} (hn : t.names = s.names) (hl : t.levels = s.levels)
    (logger : String) : t.level? logger = s.level? logger := by
  rw [level?, level?, lineage_eq_of_names hn, hl]

theorem level?_keep (s : Loggers) (logger other : String) (level : Int) (made : Bool) :
    (s.keep logger level made).level? other = s.level? other := by
  refine level?_eq_of_names ?_ ?_ other <;> rfl

theorem level?_forget (s : Loggers) (logger : String) :
    s.forget.level? logger = s.level? logger := by
  refine level?_eq_of_names ?_ ?_ logger <;> rfl

end Loggers

end PermissionClaims.Log
