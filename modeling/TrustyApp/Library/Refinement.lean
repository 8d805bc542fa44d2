import TrustyApp.Library.Agreement
import TrustyApp.Library.Reactive

/-!
# Refinement

A system simulates another if every step of it either amounts to a step of the other
or changes nothing that the other knows of.  Then every run of it shows what some run
of the other does.
-/

namespace Refinement

open Reactive

universe u

variable {State Event Output Halt : Type*} {AbsState AbsEvent AbsOutput AbsHalt : Type*}

/-- What has to be shown of one step.  `shows` is what a step amounts to, and `Abs`
relates the states of the two systems. -/
structure Simulation (system : System State Event Output Halt)
    (abstract : System AbsState AbsEvent AbsOutput AbsHalt) (Abs : State → AbsState → Prop)
    (shows : Step State Event Output → Option (AbsEvent × AbsOutput)) : Prop where
  initially : Abs system.initial abstract.initial
  /-- A step that shows nothing is not noticed. -/
  stutters : ∀ {step other}, Reachable system step.pre → Reachable abstract other →
    Abs step.pre other → system.Performs step → shows step = none → Abs step.post other
  follows : ∀ {step other event output}, Reachable system step.pre → Reachable abstract other →
    Abs step.pre other → system.Performs step → shows step = some (event, output) →
    ∃ post, abstract.Performs ⟨other, event, output, post⟩ ∧ Abs step.post post

variable {system : System State Event Output Halt}
  {abstract : System AbsState AbsEvent AbsOutput AbsHalt} {Abs : State → AbsState → Prop}
  {shows : Step State Event Output → Option (AbsEvent × AbsOutput)}
  {history : List (Step State Event Output)} {state : State}

theorem Simulation.run (simulation : Simulation system abstract Abs shows)
    (run : Exec system history state) :
    ∃ followed other, Exec abstract followed other ∧ Abs state other ∧
      followed.map (fun step => (step.event, step.output)) = history.filterMap shows := by
  induction run with
  | start => exact ⟨[], abstract.initial, .start, simulation.initially, rfl⟩
  | @step history step run performs inductionHypothesis =>
      obtain ⟨followed, other, followedRun, related, same⟩ := inductionHypothesis
      cases shown : shows step with
      | none =>
          have unnoticed := simulation.stutters run.reachable followedRun.reachable related
            performs shown
          exact ⟨followed, other, followedRun, unnoticed, by simpa [shown] using same⟩
      | some shownEvent =>
          obtain ⟨event, output⟩ := shownEvent
          obtain ⟨post, performed, stillRelated⟩ :=
            simulation.follows run.reachable followedRun.reachable related performs shown
          let step' : Step AbsState AbsEvent AbsOutput := ⟨other, event, output, post⟩
          have followedRun' : Exec abstract (step' :: followed) step'.post :=
            .step followedRun performed
          exact ⟨_, post, followedRun', stillRelated, by simpa [shown, step'] using same⟩

/-- Both results are errors for the same reason, or their values are related. -/
inductive Agrees {Value AbsValue : Type*} (Related : Value → AbsValue → Prop) :
    Except Halt Value → Except Halt AbsValue → Prop
  | halts (halt : Halt) : Agrees Related (.error halt) (.error halt)
  | returns {value : Value} {absValue : AbsValue} :
      Related value absValue → Agrees Related (.ok value) (.ok absValue)

theorem Agrees.bind {Value AbsValue Result AbsResult : Type u}
    {Related : Value → AbsValue → Prop} {RelatedResult : Result → AbsResult → Prop}
    {action : Except Halt Value} {absAction : Except Halt AbsValue}
    {next : Value → Except Halt Result} {absNext : AbsValue → Except Halt AbsResult}
    (agrees : Agrees Related action absAction)
    (continues : ∀ value absValue, Related value absValue →
      Agrees RelatedResult (next value) (absNext absValue)) :
    Agrees RelatedResult (action >>= next) (absAction >>= absNext) := by
  cases agrees with
  | halts halt => exact .halts halt
  | returns related => exact continues _ _ related

theorem Agrees.and {Value AbsValue : Type*} {Related : Value → AbsValue → Prop}
    {action : Except Halt Value} {absAction : Except Halt AbsValue} {Known : Value → Prop}
    (agrees : Agrees Related action absAction) (known : ∀ value, action = .ok value → Known value) :
    Agrees (fun value absValue => Related value absValue ∧ Known value) action absAction := by
  cases agrees with
  | halts halt => exact .halts halt
  | returns related => exact .returns ⟨related, known _ rfl⟩

theorem Agrees.mono {Value AbsValue : Type*} {Related Weaker : Value → AbsValue → Prop}
    {action : Except Halt Value} {absAction : Except Halt AbsValue}
    (agrees : Agrees Related action absAction)
    (implies : ∀ value absValue, Related value absValue → Weaker value absValue) :
    Agrees Weaker action absAction := by
  cases agrees with
  | halts halt => exact .halts halt
  | returns related => exact .returns (implies _ _ related)

theorem Agrees.of_agree {Value : Type u} {AbsValue : Type*} {Same : Value → Value → Prop}
    {Related : Value → AbsValue → Prop} {action other : Except Halt Value}
    {absAction : Except Halt AbsValue} (same : Agreement.Agree Same action other)
    (agrees : Agrees Related other absAction)
    (transfers : ∀ value value' absValue, Same value value' → Related value' absValue →
      Related value absValue) : Agrees Related action absAction := by
  cases same with
  | halt error =>
      cases agrees with
      | halts => exact .halts error
  | done looksSame =>
      cases agrees with
      | returns related => exact .returns (transfers _ _ _ looksSame related)

/-- Two systems that react to the same events, in related states alike; `sees` is what
the other system knows of an output. -/
structure LockStep (system : System State Event Output Halt)
    (abstract : System AbsState Event AbsOutput Halt) (Abs : State → AbsState → Prop)
    (sees : Output → AbsOutput) : Prop where
  initially : Abs system.initial abstract.initial
  enabled : ∀ {state other event}, Abs state other → system.enabled state event →
    abstract.enabled other event
  agrees : ∀ {state other event}, Abs state other → system.enabled state event →
    Agrees (fun result absResult => Abs result.1 absResult.1 ∧ sees result.2 = absResult.2)
      (system.handle state event) (abstract.handle other event)

section LockStep

variable {lockedTo : System AbsState Event AbsOutput Halt} {sees : Output → AbsOutput}

theorem LockStep.simulation (lockStep : LockStep system lockedTo Abs sees) :
    Simulation system lockedTo Abs fun step => some (step.event, sees step.output) where
  initially := lockStep.initially
  stutters _ _ _ _ shown := nomatch shown
  follows := by
    rintro step other event output - - related ⟨enabled, handles⟩ shown
    obtain ⟨rfl, rfl⟩ := Prod.mk.inj (Option.some.inj shown)
    have agrees := lockStep.agrees related enabled
    rw [handles] at agrees
    generalize handledAs : lockedTo.handle other step.event = handled at agrees
    cases agrees with
    | @returns value absValue both =>
        obtain ⟨post, absOutput⟩ := absValue
        obtain ⟨stillRelated, rfl⟩ := both
        exact ⟨post, ⟨lockStep.enabled related enabled, handledAs⟩, stillRelated⟩

theorem LockStep.answer_eq (lockStep : LockStep system lockedTo Abs sees) {other : AbsState}
    (related : Abs state other) {event : Event} (enabled : system.enabled state event) :
    (system.handle state event).map (fun result => sees result.2) =
      (lockedTo.handle other event).map Prod.snd := by
  have agrees := lockStep.agrees related enabled
  generalize system.handle state event = handled at agrees ⊢
  generalize lockedTo.handle other event = followed at agrees ⊢
  cases agrees with
  | halts halt => rfl
  | returns both => exact congrArg Except.ok both.2

end LockStep

/-- A component of a system: its state is part of the system's, and a step of the system
is one of the component or leaves that part alone. -/
structure Component (system : System State Event Output Halt)
    (part : System AbsState AbsEvent AbsOutput AbsHalt) (stateOf : State → AbsState)
    (shows : Step State Event Output → Option (AbsEvent × AbsOutput)) : Prop where
  initially : stateOf system.initial = part.initial
  stutters : ∀ {step}, system.Performs step → shows step = none →
    stateOf step.post = stateOf step.pre
  follows : ∀ {step event output}, Reachable system step.pre → system.Performs step →
    shows step = some (event, output) →
    part.Performs ⟨stateOf step.pre, event, output, stateOf step.post⟩

def stepOf (stateOf : State → AbsState)
    (shows : Step State Event Output → Option (AbsEvent × AbsOutput))
    (step : Step State Event Output) : Option (Step AbsState AbsEvent AbsOutput) :=
  (shows step).map fun shown => ⟨stateOf step.pre, shown.1, shown.2, stateOf step.post⟩

theorem Component.run {part : System AbsState AbsEvent AbsOutput AbsHalt}
    {stateOf : State → AbsState} (component : Component system part stateOf shows)
    (run : Exec system history state) :
    Exec part (history.filterMap (stepOf stateOf shows)) (stateOf state) := by
  induction run with
  | start =>
      rw [component.initially]
      exact .start
  | @step history step run performs inductionHypothesis =>
      cases shown : shows step with
      | none =>
          rw [component.stutters performs shown]
          simpa [stepOf, shown] using inductionHypothesis
      | some shownEvent =>
          obtain ⟨event, output⟩ := shownEvent
          have performed := component.follows run.reachable performs shown
          simp only [List.filterMap_cons, stepOf, shown, Option.map_some]
          exact .step inductionHypothesis performed

end Refinement
