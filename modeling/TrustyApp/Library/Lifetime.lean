import Mathlib.Data.List.Basic

/-!
# Lifetimes of resources

A log, newest entry first, records when a resource was created and when it was
released.  Names may be used again after a release, so "released at most once"
means that a new creation stands between any two releases of one name.
-/

namespace Lifetime

inductive Act (Name : Type*)
  | created (name : Name)
  | released (name : Name)

variable {Name : Type*}

/-- The last entry about this name is a creation. -/
def Alive : List (Act Name) → Name → Prop
  | [], _ => False
  | .created other :: log, name => name = other ∨ Alive log name
  | .released other :: log, name => name ≠ other ∧ Alive log name

/-- Only resources that are alive are released. -/
def Scoped : List (Act Name) → Prop
  | [] => True
  | .created _ :: log => Scoped log
  | .released name :: log => Alive log name ∧ Scoped log

def ReleasedOnce (log : List (Act Name)) : Prop :=
  ∀ name later between earlier,
    log = later ++ .released name :: (between ++ .released name :: earlier) →
      .created name ∈ between

theorem created_mem_of_alive {between earlier : List (Act Name)} {name : Name}
    (alive : Alive (between ++ .released name :: earlier) name) :
    .created name ∈ between := by
  induction between with
  | nil => exact absurd rfl alive.1
  | cons act between inductionHypothesis =>
      cases act with
      | created other =>
          rcases alive with same | alive
          · simp [same]
          · exact List.mem_cons_of_mem _ (inductionHypothesis alive)
      | released other => exact List.mem_cons_of_mem _ (inductionHypothesis alive.2)

theorem Scoped.of_append {later earlier : List (Act Name)}
    (disciplined : Scoped (later ++ earlier)) :
    Scoped earlier := by
  induction later with
  | nil => exact disciplined
  | cons act later inductionHypothesis =>
      cases act with
      | created other => exact inductionHypothesis disciplined
      | released other => exact inductionHypothesis disciplined.2

theorem Scoped.releasedOnce {log : List (Act Name)} (disciplined : Scoped log) :
    ReleasedOnce log := by
  rintro name later between earlier rfl
  exact created_mem_of_alive disciplined.of_append.1

end Lifetime
