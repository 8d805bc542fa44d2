import Mathlib.Data.List.Basic
import Mathlib.Logic.Basic

/-!
# Event-driven services

A service reacts to one event at a time and runs its handler to the end before
the next event is taken.  What it did is kept as a list of completed steps,
the most recent one first, so that a statement about a period of a run is a
statement about a segment of that list.
-/

namespace Reactive

universe u

section Except

variable {Error : Type*} {Value Result : Type u}

@[simp] theorem ok_bind (value : Value) (next : Value → Except Error Result) :
    (Except.ok value >>= next) = next value := rfl

@[simp] theorem error_bind (error : Error) (next : Value → Except Error Result) :
    (Except.error error >>= next) = .error error := rfl

theorem bind_eq_ok {action : Except Error Value} {next : Value → Except Error Result}
    {result : Result} :
    action >>= next = .ok result ↔ ∃ value, action = .ok value ∧ next value = .ok result := by
  cases action with
  | error error => simp
  | ok value => simp

theorem bind_eq_error {action : Except Error Value} {next : Value → Except Error Result}
    {error : Error} :
    action >>= next = .error error ↔
      action = .error error ∨ ∃ value, action = .ok value ∧ next value = .error error := by
  cases action with
  | error other => simp
  | ok value => simp

theorem map_bind_eq {action : Except Error Value} {translate : Value → Value}
    {translateResult : Result → Result} {next next' : Value → Except Error Result}
    (translates : ∀ value, next' (translate value) = (next value).map translateResult) :
    action.map translate >>= next' = (action >>= next).map translateResult := by
  cases action with
  | error error => rfl
  | ok value => exact translates value

theorem bind_eq_map {action : Except Error Value} {translateResult : Result → Result}
    {next next' : Value → Except Error Result}
    (translates : ∀ value, next' value = (next value).map translateResult) :
    action >>= next' = (action >>= next).map translateResult := by
  cases action with
  | error error => rfl
  | ok value => exact translates value

theorem bind_ok_ne_error {action : Except Error Value} {result : Value → Result} {error : Error}
    (returns : action ≠ .error error) :
    (action >>= fun value => .ok (result value)) ≠ .error error := by
  rw [ne_eq, bind_eq_error]
  simp [returns]

end Except

/-- A service driven by events.  `enabled` is what the environment promises about
the next event; `handle` returns the new state and what was done, or halts. -/
structure System (State Event Output Halt : Type*) where
  initial : State
  enabled : State → Event → Prop
  handle : State → Event → Except Halt (State × Output)

structure Step (State Event Output : Type*) where
  pre : State
  event : Event
  output : Output
  post : State

variable {State Event Output Halt : Type*}

/-- The handler ran on this step's event and returned. -/
def System.Performs (system : System State Event Output Halt)
    (step : Step State Event Output) : Prop :=
  system.enabled step.pre step.event ∧
    system.handle step.pre step.event = .ok (step.post, step.output)

/-- Runs from the initial state: the completed steps, newest first, and the
state reached. -/
inductive Exec (system : System State Event Output Halt) :
    List (Step State Event Output) → State → Prop
  | start : Exec system [] system.initial
  | step {history : List (Step State Event Output)} {step : Step State Event Output} :
      Exec system history step.pre → system.Performs step →
      Exec system (step :: history) step.post

def Reachable (system : System State Event Output Halt) (state : State) : Prop :=
  ∃ history, Exec system history state

variable {system : System State Event Output Halt}
  {history earlier later : List (Step State Event Output)}
  {step : Step State Event Output} {state : State}

theorem Reachable.start : Reachable system system.initial := ⟨[], .start⟩

theorem Reachable.next (reached : Reachable system step.pre)
    (performs : system.Performs step) : Reachable system step.post := by
  obtain ⟨history, run⟩ := reached
  exact ⟨step :: history, run.step performs⟩

theorem Exec.reachable (run : Exec system history state) : Reachable system state :=
  ⟨history, run⟩

/-- An invariant of the history and the state: it holds at the start and every
completed step keeps it. -/
theorem Exec.rule (Inv : List (Step State Event Output) → State → Prop)
    (initially : Inv [] system.initial)
    (kept : ∀ history step, Exec system history step.pre → Inv history step.pre →
      system.Performs step → Inv (step :: history) step.post)
    (run : Exec system history state) : Inv history state := by
  induction run with
  | start => exact initially
  | @step history step run performs inductionHypothesis =>
      exact kept history step run inductionHypothesis performs

theorem Reachable.rule (Inv : State → Prop) (initially : Inv system.initial)
    (kept : ∀ step, Inv step.pre → system.Performs step → Inv step.post)
    (reached : Reachable system state) : Inv state := by
  obtain ⟨history, run⟩ := reached
  exact run.rule (fun _ state => Inv state) initially
    fun _ step _ invariant performs => kept step invariant performs

theorem Exec.reaches_earlier (run : Exec system (later ++ earlier) state) :
    ∃ middle, Exec system earlier middle := by
  induction later generalizing state with
  | nil => exact ⟨state, run⟩
  | cons step later inductionHypothesis =>
      cases run with
      | step run performs => exact inductionHypothesis run

theorem Exec.at_step (run : Exec system (later ++ step :: earlier) state) :
    Exec system earlier step.pre ∧ system.Performs step ∧
      Exec system (step :: earlier) step.post := by
  obtain ⟨middle, run⟩ := run.reaches_earlier
  cases run with
  | step run performs => exact ⟨run, performs, run.step performs⟩

/-- The completed steps determine the state reached. -/
theorem Exec.unique {other : State} (run : Exec system history state)
    (again : Exec system history other) : state = other := by
  cases run with
  | start =>
      cases again with
      | start => rfl
  | step =>
      cases again with
      | step => rfl

theorem Exec.performed (run : Exec system history state) (member : step ∈ history) :
    Reachable system step.pre ∧ system.Performs step := by
  obtain ⟨later, earlier, rfl⟩ := List.append_of_mem member
  exact ⟨run.at_step.1.reachable, run.at_step.2.1⟩

theorem exists_earliest {Found : Step State Event Output → Prop} (member : step ∈ history)
    (found : Found step) : ∃ later first earlier, history = later ++ first :: earlier ∧
      Found first ∧ ∀ other ∈ earlier, ¬ Found other := by
  induction history generalizing step with
  | nil => cases member
  | cons newest history inductionHypothesis =>
      by_cases already : ∃ other ∈ history, Found other
      · obtain ⟨other, otherMember, otherFound⟩ := already
        obtain ⟨later, first, earlier, rfl, isFound, none⟩ :=
          inductionHypothesis otherMember otherFound
        exact ⟨newest :: later, first, earlier, rfl, isFound, none⟩
      · have none : ∀ other ∈ history, ¬ Found other := by
          intro other otherMember otherFound
          exact already ⟨other, otherMember, otherFound⟩
        rcases List.mem_cons.mp member with rfl | earlier
        · exact ⟨[], step, history, rfl, found, none⟩
        · exact absurd found (none step earlier)

/-- "From then on": a property that holds after an initial segment and that each
later step keeps still holds at the end. -/
theorem Exec.since (Kept : State → Prop)
    (run : Exec system (later ++ earlier) state)
    (established : ∀ middle, Exec system earlier middle → Kept middle)
    (keeps : ∀ step ∈ later, Reachable system step.pre → Kept step.pre →
      system.Performs step → Kept step.post) : Kept state := by
  induction later generalizing state with
  | nil => exact established state run
  | cons step later inductionHypothesis =>
      cases run with
      | step run performs =>
          refine keeps step (by simp) run.reachable ?_ performs
          exact inductionHypothesis run fun other member =>
            keeps other (List.mem_cons_of_mem step member)

end Reactive
