import PermissionClaims.Log.Step

/-!
# Setting up the root

What there is of the root are its level and its handlers. A step does to them what it does whatever
else there is (`State.root_step`), so from the same root on all runs go through the same ones
(`State.roots_run_congr`). Setting up puts level and handlers in place together or changes nothing,
and what it puts in place does not depend on what was there; so a run has no memory of the root that
it had before the log was set up.
-/

namespace PermissionClaims.Log

structure Root where
  level : Int
  handlers : List Handler
  deriving DecidableEq, Repr

/-- The root as it is set up. -/
def Root.configured (c : Config) (json : Option Bool) : Root :=
  ⟨c.logLevel.severity, [.stream c.logLevel.severity (json.getD c.logJson)]⟩

/-- What a step makes of the root. -/
def Step.onRoot (x : Step) (r : Root) : Root :=
  match x with
  | .setUp settings env json =>
    match readConfig settings env with
    | .ok c => .configured c json
    | .error _ => r
  | .addSilent level => { r with handlers := r.handlers ++ [.silent level] }
  | .setLevel logger level => if isRoot logger then { r with level } else r
  | _ => r

namespace State

variable {settings : Option Fields} {env : Environment}

def root (s : State) : Root :=
  ⟨s.rootLevel, s.handlers⟩

theorem root_foldl_rememberNotice : ∀ (s : State) (ns : List Notice),
    (ns.foldl rememberNotice s).root = s.root
  | _, [] => rfl
  | s, n :: ns => by
    rw [List.foldl_cons, root_foldl_rememberNotice]
    rfl

theorem root_call (s : State) (time : Int) (x : Traced (Except Failure Answer)) :
    (s.call time x).1.root = s.root :=
  root_foldl_rememberNotice s x.notices

theorem root_setUp (s : State) (c : Config) (json : Option Bool) :
    (s.setUp c json).root = .configured c json := by
  rw [setUp_eq]
  rfl

theorem step_setUp_ok {c : Config} (h : readConfig settings env = .ok c) (s : State) (time : Int)
    (json : Option Bool) :
    s.step time (.setUp settings env json) = (s.setUp c json, .done) := by
  rw [step, h]

theorem step_setUp_error {f : Failure} (h : readConfig settings env = .error f) (s : State)
    (time : Int) (json : Option Bool) :
    s.step time (.setUp settings env json) = (s, ⟨.error f, ""⟩) := by
  rw [step, h]

/-- A step does the same to the root whatever the loggers are. -/
theorem root_step (s : State) (time : Int) (x : Step) :
    (s.step time x).1.root = x.onRoot s.root := by
  cases x with
  | setUp settings env json =>
    rcases h : readConfig settings env with f | c
    · rw [step_setUp_error h, Step.onRoot, h]
    · rw [step_setUp_ok h, Step.onRoot, h]
      exact root_setUp s c json
  | addSilent level => rfl
  | setLevel logger level =>
    by_cases h : isRoot logger = true <;> simp [step, setLevel, Step.onRoot, h, root]
  | log r => rfl
  | parse d v => exact root_call s time _
  | checkText held query => exact root_call s time _
  | access permissions request => exact root_call s time _
  | call x => exact root_call s time _

/-- The state that some steps come to. -/
def after (s : State) : List (Int × Step) → State
  | [] => s
  | (time, x) :: xs => (s.step time x).1.after xs

theorem run_append : ∀ (s : State) (xs ys : List (Int × Step)),
    s.run (xs ++ ys) = s.run xs ++ (s.after xs).run ys
  | _, [], _ => rfl
  | s, (time, x) :: xs, ys => by
    rw [List.cons_append, run, run, run_append, after, List.cons_append]

/-- The roots that a run goes through. -/
def roots (s : State) (xs : List (Int × Step)) : List Root :=
  (s.run xs).map fun out => out.1.root

theorem roots_run_congr : ∀ {s t : State}, s.root = t.root →
    ∀ xs : List (Int × Step), s.roots xs = t.roots xs
  | _, _, _, [] => rfl
  | s, t, h, (time, x) :: xs => by
    have hx : (s.step time x).1.root = (t.step time x).1.root := by
      rw [root_step, root_step, h]
    rw [roots, roots, run, run, List.map_cons, List.map_cons, hx]
    exact congrArg _ (roots_run_congr hx xs)

theorem setUp_setUp (s : State) (c : Config) (json : Option Bool) :
    (s.setUp c json).setUp c json = s.setUp c json := by
  rw [setUp_eq, setUp_eq]
  rfl

/-- At any point of a run, setting up the log either puts the number of the configured level and a
single handler in place, and has nothing left to do when repeated, or fails on its settings and
changes nothing.
No other logger has its level changed, and the roots from there on are the same in all runs,
whatever came before. -/
theorem setUp_all_or_nothing (settings : Option Fields) (env : Environment) (json : Option Bool) :
    (∀ (start : State) (earlier later : List (Int × Step)) (time : Int),
      (∀ c : Config, readConfig settings env = .ok c →
        ∃ ready : State,
          start.run (earlier ++ (time, .setUp settings env json) :: later)
              = start.run earlier ++ (ready, ⟨.ok .done, ""⟩) :: ready.run later
            ∧ (c.logLevel, ready.rootLevel)
                ∈ [(.debug, 10), (.info, 20), (.warning, 30), (.error, 40), (.critical, 50)]
            ∧ ready.handlers = [.stream ready.rootLevel (json.getD c.logJson)]
            ∧ ready.loggers.levels = (start.after earlier).loggers.levels
            ∧ ∀ time' : Int,
              ready.step time' (.setUp settings env json) = (ready, ⟨.ok .done, ""⟩))
      ∧ ∀ f : Failure, readConfig settings env = .error f →
        start.run (earlier ++ (time, .setUp settings env json) :: later)
          = start.run earlier ++ (start.after earlier, ⟨.error f, ""⟩)
            :: (start.after earlier).run later)
    ∧ ∀ c : Config, readConfig settings env = .ok c →
      ∀ (start start' : State) (earlier earlier' later : List (Int × Step)) (time : Int),
        (start.after earlier).roots ((time, .setUp settings env json) :: later)
          = (start'.after earlier').roots ((time, .setUp settings env json) :: later) := by
  refine ⟨fun start earlier later time => ⟨fun c hc => ?_, fun f hf => ?_⟩,
    fun c hc start start' earlier earlier' later time => ?_⟩
  · have hr := root_setUp (start.after earlier) c json
    have hlevel : ((start.after earlier).setUp c json).rootLevel = c.logLevel.severity :=
      congrArg Root.level hr
    have hhandlers : ((start.after earlier).setUp c json).handlers
        = [.stream c.logLevel.severity (json.getD c.logJson)] := congrArg Root.handlers hr
    have hl : ((start.after earlier).setUp c json).loggers.levels
        = (start.after earlier).loggers.levels := by
      rw [setUp_eq]
      rfl
    refine ⟨(start.after earlier).setUp c json, ?_, ?_, ?_, hl, fun time' => ?_⟩
    · rw [run_append, run, step_setUp_ok hc]
      rfl
    · rw [hlevel]
      cases c.logLevel <;> decide
    · rw [hlevel, hhandlers]
    · rw [step_setUp_ok hc, setUp_setUp]
      rfl
  · rw [run_append, run, step_setUp_error hf]
  · have hr : ((start.after earlier).setUp c json).root
        = ((start'.after earlier').setUp c json).root :=
      (root_setUp _ c json).trans (root_setUp _ c json).symm
    rw [roots, roots, run, run, step_setUp_ok hc, step_setUp_ok hc, List.map_cons, List.map_cons,
      hr]
    exact congrArg _ (roots_run_congr hr later)

theorem setUp_all_or_nothing_error :
    let earlier : List (Int × Step) :=
      [(0, .addSilent 5), (1, .setLevel "a" 20), (2, .setLevel "root" 50)]
    let env : Environment := [("CLAIMCORE_LOG_LEVEL", "error"), ("CLAIMCORE_LOG_JSON", "1")]
    let loud : Option Fields := some [("log_level", .plain "LOUD")]
    ∃ (f : Failure) (failed ready : State),
      readConfig none env = .ok ⟨.error, true, false⟩ ∧ readConfig loud env = .error f
        ∧ run {} (earlier ++ [(3, .setUp loud env none), (4, .setUp none env (some false))])
          = run {} earlier ++ [(failed, ⟨.error f, ""⟩), (ready, ⟨.ok .done, ""⟩)]
        ∧ failed.root = ⟨50, [.silent 5]⟩ ∧ ready.root = ⟨40, [.stream 40 false]⟩
        ∧ ready.loggers.levels = [("a", 20)] := by
  intro earlier env loud
  -- the variables stand here themselves, as evaluation does not get through their local name
  have he : readConfig none [("CLAIMCORE_LOG_LEVEL", "error"), ("CLAIMCORE_LOG_JSON", "1")]
      = .ok ⟨.error, true, false⟩ := rfl
  obtain ⟨f, hf⟩ : ∃ f, readConfig loud env = .error f := ⟨_, rfl⟩
  obtain ⟨ready, hr, hl, hh, hs, -⟩ :=
    ((setUp_all_or_nothing none env (some false)).1 (after {} earlier) [] [] 4).1 _ he
  have hlevel : ready.rootLevel = 40 := by simpa using hl
  refine ⟨f, after {} earlier, ready, he, hf, ?_, rfl, ?_, hs⟩
  · rw [((setUp_all_or_nothing loud env none).1 {} earlier _ 3).2 f hf]
    exact congrArg _ (congrArg _ hr)
  · rw [root, hh, hlevel]
    rfl

end State

end PermissionClaims.Log
