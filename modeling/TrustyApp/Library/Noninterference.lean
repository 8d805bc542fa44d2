import TrustyApp.Library.Reactive

/-!
# Noninterference

Some events of a service concern an observer and the others do not.  If the others
leave no trace for the observer, every run can be purged of them: the events that
remain make up a run of the same service, with the same outputs.
-/

namespace Noninterference

open Reactive

variable {State Event Output Halt : Type*}

def transcript (history : List (Step State Event Output)) : List (Event × Output) :=
  history.map fun step => (step.event, step.output)

def observed (visible : State → Event → Bool) (history : List (Step State Event Output)) :
    List (Step State Event Output) :=
  history.filter fun step => visible step.pre step.event

/-- A relation between the state of a run and the state of the purged run, and what
has to be shown of it for one step. -/
structure Unwinding (system : System State Event Output Halt)
    (visible : State → Event → Bool) (Alike : State → State → Prop) : Prop where
  initially : Alike system.initial system.initial
  /-- An event that is not visible is not noticed. -/
  respects : ∀ {step other}, Reachable system step.pre → Reachable system other →
    Alike step.pre other → system.Performs step → visible step.pre step.event = false →
    Alike step.post other
  /-- A visible event has the same effect in both runs. -/
  consistent : ∀ {step other}, Reachable system step.pre → Reachable system other →
    Alike step.pre other → system.Performs step → visible step.pre step.event = true →
    ∃ post, system.Performs ⟨other, step.event, step.output, post⟩ ∧
      visible other step.event = true ∧ Alike step.post post

variable {system : System State Event Output Halt} {visible : State → Event → Bool}
  {Alike : State → State → Prop} {history : List (Step State Event Output)} {state : State}

theorem Unwinding.purge (unwinding : Unwinding system visible Alike)
    (run : Exec system history state) :
    ∃ purged other, Exec system purged other ∧ Alike state other ∧
      transcript purged = transcript (observed visible history) ∧
      observed visible purged = purged := by
  induction run with
  | start => exact ⟨[], system.initial, .start, unwinding.initially, rfl, rfl⟩
  | @step history step run performs inductionHypothesis =>
      obtain ⟨purged, other, purgedRun, alike, same, onlyVisible⟩ := inductionHypothesis
      cases concerns : visible step.pre step.event with
      | false =>
          have unnoticed := unwinding.respects run.reachable purgedRun.reachable alike performs
            concerns
          refine ⟨purged, other, purgedRun, unnoticed, ?_, onlyVisible⟩
          simpa [observed, concerns] using same
      | true =>
          obtain ⟨post, performed, concernsOther, stillAlike⟩ :=
            unwinding.consistent run.reachable purgedRun.reachable alike performs concerns
          let replayed : Step State Event Output := ⟨other, step.event, step.output, post⟩
          have replayedRun : Exec system (replayed :: purged) replayed.post :=
            .step purgedRun performed
          refine ⟨_, post, replayedRun, stillAlike, ?_, ?_⟩
          · simpa [observed, transcript, concerns, replayed] using same
          · simpa [observed, concernsOther, replayed] using onlyVisible

end Noninterference
